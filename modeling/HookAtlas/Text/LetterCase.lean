/-
# Lower case

Two maps.  `CodePoint.lower` takes one code point to one and is what a search compares by.
`Text.lower` is the full map of a text: a dotted capital I becomes two code points, and a capital
sigma at the end of a word becomes the final small sigma.  File extensions, setting names and slugs
use the full map.
-/

import HookAtlas.Text.CaseTable

namespace HookAtlas

namespace CodePoint

def lowerFromTable (c : CodePoint) : CodePoint :=
  match CaseRun.table.findSome? fun run => run.small? c.val with
  | some n => ofNat n
  | none => c

/-- Lower case, one code point for one.  A dotted capital I becomes a plain i. -/
def lower (c : CodePoint) : CodePoint :=
  if c.val < 0x80 then c.asciiLower
  else if c.val = 0x130 then 'i'
  else c.lowerFromTable

/-- A code point that has case and is seen by a capital sigma. -/
def isCased (c : CodePoint) : Bool :=
  c.inRanges casedRanges

/-- A code point that a capital sigma looks past. -/
def isCaseIgnorable (c : CodePoint) : Bool :=
  c.inRanges caseIgnorableRanges

end CodePoint

namespace Text

/-- Whether the first code point that a sigma does not look past has case. -/
def meetsCased : Text → Bool
  | [] => false
  | c :: cs => if c.isCaseIgnorable then meetsCased cs else c.isCased

/-- The full lower-case map, given the text before it in reverse.  A capital sigma that follows a
cased letter and precedes none is final. -/
def lowerAfter (before : Text) : Text → Text
  | [] => []
  | c :: cs =>
    if c.val = 0x130 then
      'i' :: CodePoint.ofNat 0x307 :: lowerAfter (c :: before) cs
    else if c.val = 0x3A3 then
      CodePoint.ofNat (if meetsCased before && !meetsCased cs then 0x3C2 else 0x3C3) ::
        lowerAfter (c :: before) cs
    else c.lower :: lowerAfter (c :: before) cs

def lower (t : Text) : Text :=
  lowerAfter [] t

end Text

end HookAtlas
