/-
# Texts as lists of code points

Every text of the catalogue is a list of code points: hook names, file names, source files and
stored payloads alike.  The surrogates are included.  No well-formed text holds one, but file
names that are not UTF-8 and literals that listeners pass on may, and `Text.scrub` is the one place
that removes them.
-/

namespace HookAtlas

/-- A point of the Unicode code space, the surrogates included. -/
structure CodePoint where
  val : Nat
  isLt : val < 0x110000
deriving DecidableEq, Repr

/-- A text is the list of its code points. -/
abbrev Text := List CodePoint

namespace CodePoint

def ofChar (c : Char) : CodePoint :=
  ⟨c.toNat, by
    have h := c.valid
    unfold UInt32.isValidChar Nat.isValidChar at h
    unfold Char.toNat
    omega⟩

instance : Coe Char CodePoint := ⟨ofChar⟩

instance : Inhabited CodePoint := ⟨(' ' : Char)⟩

/-- The replacement character, which stands for what cannot be decoded. -/
def replacement : CodePoint := ⟨0xFFFD, by decide⟩

/-- The code point of a number, with the replacement character for a number outside the code
space. -/
def ofNat (n : Nat) : CodePoint :=
  if h : n < 0x110000 then ⟨n, h⟩ else replacement

/-- The surrogates are the code points that no well-formed text holds. -/
def isSurrogate (c : CodePoint) : Bool :=
  0xD800 ≤ c.val && c.val ≤ 0xDFFF

/-- The code point of a number beside the surrogates is none of them. -/
theorem isSurrogate_ofNat {n : Nat} (h : n < 0xD800 ∨ 0xDFFF < n) :
    (ofNat n).isSurrogate = false := by
  unfold ofNat
  split
  · simp only [isSurrogate, Bool.and_eq_false_iff, decide_eq_false_iff_not]
    omega
  · decide

def isAsciiLetter (c : CodePoint) : Bool :=
  (0x41 ≤ c.val && c.val ≤ 0x5A) || (0x61 ≤ c.val && c.val ≤ 0x7A)

/-- The control characters of ASCII. -/
def isAsciiControl (c : CodePoint) : Bool :=
  c.val < 0x20 || c.val = 0x7F

def isAsciiDigit (c : CodePoint) : Bool :=
  0x30 ≤ c.val && c.val ≤ 0x39

/-- The digits `0` to `7`. -/
def isOctalDigit (c : CodePoint) : Bool :=
  0x30 ≤ c.val && c.val ≤ 0x37

def hexValue? (c : CodePoint) : Option Nat :=
  if 0x30 ≤ c.val ∧ c.val ≤ 0x39 then some (c.val - 0x30)
  else if 0x41 ≤ c.val ∧ c.val ≤ 0x46 then some (c.val - 0x41 + 10)
  else if 0x61 ≤ c.val ∧ c.val ≤ 0x66 then some (c.val - 0x61 + 10)
  else none

def isHexDigit (c : CodePoint) : Bool :=
  (hexValue? c).isSome

def ofDigit (d : Nat) : CodePoint :=
  ofNat (0x30 + d)

/-- The code point of a lower-case hexadecimal digit below sixteen. -/
def ofHexDigit (d : Nat) : CodePoint :=
  if d < 10 then ofNat (0x30 + d) else ofNat (0x61 + (d - 10))

/-- An ASCII capital becomes the small letter; nothing else changes. -/
def asciiLower (c : CodePoint) : CodePoint :=
  if 0x41 ≤ c.val ∧ c.val ≤ 0x5A then ofNat (c.val + 32) else c

/-- An ASCII small letter becomes the capital; nothing else changes. -/
def asciiUpper (c : CodePoint) : CodePoint :=
  if 0x61 ≤ c.val ∧ c.val ≤ 0x7A then ofNat (c.val - 32) else c

end CodePoint

namespace Text

def ofChars (cs : List Char) : Text :=
  cs.map CodePoint.ofChar

def ofString (s : String) : Text :=
  ofChars s.toList

instance : Coe String Text := ⟨ofString⟩

def mark (c : Char) : Text :=
  [CodePoint.ofChar c]

/-- The string of a text; a surrogate, which no string holds, becomes U+FFFD. -/
def toString (t : Text) : String :=
  String.ofList (t.map fun c => if c.isSurrogate then Char.ofNat 0xFFFD else Char.ofNat c.val)

def isScalar (t : Text) : Bool :=
  t.all fun c => !c.isSurrogate

theorem isScalar_append (s t : Text) : isScalar (s ++ t) = (isScalar s && isScalar t) := by
  simp [isScalar]

/-- Texts are ordered by their first differing code point, and a text comes before its proper
extensions. -/
def le : Text → Text → Bool
  | [], _ => true
  | _ :: _, [] => false
  | a :: as, b :: bs => if a.val = b.val then le as bs else a.val < b.val

def lineFeeds (t : Text) : Nat :=
  t.countP fun c : CodePoint => c = '\n'

/-- The length of the longest run of code points in a class at the start of a text. -/
def runLength (p : CodePoint → Bool) : Text → Nat
  | [] => 0
  | c :: cs => if p c then runLength p cs + 1 else 0

def strip (p : CodePoint → Bool) (t : Text) : Text :=
  ((t.dropWhile p).reverse.dropWhile p).reverse

/-- Cut a text at every occurrence of a separator. -/
def split (separator : CodePoint) : Text → List Text
  | [] => [[]]
  | c :: cs =>
    if c = separator then [] :: split separator cs
    else
      match split separator cs with
      | [] => [[c]]
      | part :: parts => (c :: part) :: parts

/-- Write texts one after the other with a separator between neighbours. -/
def join (separator : Text) : List Text → Text
  | [] => []
  | [t] => t
  | t :: ts => t ++ separator ++ join separator ts

/-- Whether a text occurs as a contiguous part of another. -/
def occursIn (needle : Text) : Text → Bool
  | [] => needle.isEmpty
  | c :: cs => needle.isPrefixOf (c :: cs) || occursIn needle cs

end Text

end HookAtlas
