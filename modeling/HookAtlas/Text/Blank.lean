/-
# White space

Blank are the code points with the Unicode property of white space together with the four
information separators U+001C to U+001F.  `Text.trim` and the lexer of source files use this class.
The narrower class `isUnicodeSpace` leaves the separators out; number fields of requests and
settings are trimmed by it.
-/

import HookAtlas.Text.CodePoint

namespace HookAtlas

namespace CodePoint

/-- The code points with the Unicode property of white space. -/
def isUnicodeSpace (c : CodePoint) : Bool :=
  (0x9 ≤ c.val && c.val ≤ 0xD) || c.val == 0x20 || c.val == 0x85 || c.val == 0xA0 ||
    c.val == 0x1680 || (0x2000 ≤ c.val && c.val ≤ 0x200A) || c.val == 0x2028 ||
    c.val == 0x2029 || c.val == 0x202F || c.val == 0x205F || c.val == 0x3000

/-- White space, the information separators included. -/
def isBlank (c : CodePoint) : Bool :=
  (0x1C ≤ c.val && c.val ≤ 0x1F) || c.isUnicodeSpace

/-- The space and the tab, which may stand before a closing heredoc label. -/
def isSpaceOrTab (c : CodePoint) : Bool :=
  c.val == 0x20 || c.val == 0x9

end CodePoint

namespace Text

def trim (t : Text) : Text :=
  t.strip CodePoint.isBlank

end Text

end HookAtlas
