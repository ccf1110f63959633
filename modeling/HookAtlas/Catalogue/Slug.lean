/-
# Anchors of headings

The anchor of a heading is its text in lower case without punctuation and with hyphens for runs of
spaces and hyphens; hyphens at the ends are dropped.  The lower-case map is a parameter: what matters
of it is that it keeps the characters an anchor may hold.
-/

import HookAtlas.Text.LetterCase

namespace HookAtlas.Slug

/-- The characters that punctuation removal keeps: small letters, digits, space, underscore and
hyphen. -/
def isKept (c : CodePoint) : Bool :=
  (0x61 ≤ c.val && c.val ≤ 0x7A) || c.isAsciiDigit || c.val == 0x20 || c.val == 0x5F ||
    c.val == 0x2D

/-- The characters that become hyphens. -/
def isGap (c : CodePoint) : Bool :=
  c.val == 0x20 || c.val == 0x2D

def hyphenate : Text → Text
  | [] => []
  | c :: cs =>
    if isGap c then
      if cs.head?.any isGap then hyphenate cs else '-' :: hyphenate cs
    else c :: hyphenate cs

/-- The anchor of a heading under a lower-case map. -/
def ofName (lower : Text → Text) (name : Text) : Text :=
  (hyphenate ((lower name).filter isKept)).strip fun c => c = '-'

end HookAtlas.Slug

namespace HookAtlas

def slugify (name : Text) : Text :=
  Slug.ofName Text.lower name

end HookAtlas
