/-
# Removing surrogates

The store takes no surrogates.  Those from U+DC80 to U+DCFF stand for bytes of a file name that is
not UTF-8; where all surrogates of a text are of that sort, they are turned back into bytes, and the
bytes together with those of their neighbours are decoded.  Any other surrogate makes every
surrogate of the text a question mark.  Scrubbed texts are well-formed, and `ScalarText` is the type
of the texts that are.
-/

import HookAtlas.Text.Utf8

namespace HookAtlas

/-- The surrogates that stand for a byte. -/
def CodePoint.isEscapedByte (c : CodePoint) : Bool :=
  0xDC80 ≤ c.val && c.val ≤ 0xDCFF

namespace Text

/-- The bytes that a code point stands for in a file name. -/
def fileBytesOf (c : CodePoint) : List Nat :=
  if c.isEscapedByte then [c.val - 0xDC00] else Utf8.encodeCodePoint c

def fileBytes (t : Text) : List Nat :=
  t.flatMap fileBytesOf

/-- Remove the surrogates. -/
def scrub (t : Text) : Text :=
  if t.all fun c => !c.isSurrogate || c.isEscapedByte then Utf8.decode t.fileBytes
  else t.map fun c => if c.isSurrogate then '?' else c

theorem isScalar_scrub (t : Text) : t.scrub.isScalar := by
  unfold scrub
  split
  · exact Utf8.decode_isScalar _
  · simp only [isScalar, List.all_map, List.all_eq_true, Function.comp_apply]
    intro c _
    split
    · decide
    · simp_all

end Text

/-- A well-formed text, which is what the store takes. -/
structure ScalarText where
  text : Text
  isScalar : text.isScalar = true
deriving DecidableEq, Repr

namespace ScalarText

def empty : ScalarText :=
  ⟨[], rfl⟩

def ofText (t : Text) : ScalarText :=
  ⟨t.scrub, t.isScalar_scrub⟩

instance : Inhabited ScalarText := ⟨empty⟩

end ScalarText

end HookAtlas
