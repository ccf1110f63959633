/-
# Whole numbers in decimal and hexadecimal

How whole numbers are written, and how a run of digits is read back.  The reader goes from left to
right and multiplies what it has by the base, so reading what was written returns the number.
-/

import HookAtlas.Text.CodePoint

namespace HookAtlas.Number

def natText (n : Nat) : Text :=
  if n < 10 then [CodePoint.ofDigit n] else natText (n / 10) ++ [CodePoint.ofDigit (n % 10)]
termination_by n

/-- The decimal digits of an integer after a minus sign where it is negative. -/
def intText : Int → Text
  | .ofNat n => natText n
  | .negSucc n => '-' :: natText (n + 1)

/-- The decimal digits of a number, filled up with zeros on the left to a given width. -/
def paddedText (width n : Nat) : Text :=
  let digits := natText n
  List.replicate (width - digits.length) (CodePoint.ofDigit 0) ++ digits

def hexText : Nat → Nat → Text
  | 0, _ => []
  | width + 1, n => hexText width (n / 16) ++ [CodePoint.ofHexDigit (n % 16)]

def ofDigits (base : Nat) (digits : List Nat) : Nat :=
  digits.foldl (fun total digit => total * base + digit) 0

/-- The greatest number of digits that a whole number is read from. -/
def maxDigits : Nat :=
  4300

/-- Whether an underscore stands at an end or beside another one, where it separates no digits. -/
def hasStrayUnderscore (t : Text) : Bool :=
  t.head? = some ('_' : CodePoint) || t.getLast? = some ('_' : CodePoint) ||
    Text.occursIn (Text.ofChars ['_', '_']) t

/-- The number that a non-empty list of ASCII digits stands for. -/
def parseNat? (t : Text) : Option Nat :=
  if t.isEmpty then none
  else if t.all CodePoint.isAsciiDigit then some (ofDigits 10 (t.map fun c => c.val - 0x30))
  else none

end HookAtlas.Number
