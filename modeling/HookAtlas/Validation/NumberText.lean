/-
# Numbers in texts

A field that wants a number also takes a text that spells one.  A whole number may have white space
around it, a sign, zeros before it and a fraction of zeros behind it; single underscores may stand
between its digits, and any number of them among the zeros before it.  A double is written as a
decimal number or as a word for infinity or for what is no number.

A whole number has at most `Number.maxDigits` digits.  Only a text that starts with a longer one is
said to be too long; any other text that does not spell a number is just no number.
-/

import HookAtlas.Number.Binary64
import HookAtlas.Number.Decimal
import HookAtlas.Text.Blank
import HookAtlas.Validation.Issue

namespace HookAtlas.Validation

def trimNumber (t : Text) : Text :=
  t.strip CodePoint.isUnicodeSpace

/-- A text without underscores, if each of them stands between other marks. -/
def dropUnderscores? (t : Text) : Option Text :=
  if Number.hasStrayUnderscore t then none else some (t.filter fun c : CodePoint => c ≠ '_')

/-! ## Whole numbers -/

def isLeadingDigit (c : CodePoint) : Bool :=
  c.isAsciiDigit && c ≠ '0'

/-- Read digits of which the first is no zero, unless it is the only one. -/
def plainNat? (t : Text) : Option Nat :=
  match t with
  | [] => none
  | c :: cs => if c = '0' ∧ cs ≠ [] then none else Number.parseNat? (c :: cs)

/-- Read digits after a minus sign or none. -/
def plainInt? (t : Text) : Option Int :=
  match t with
  | [] => none
  | c :: cs =>
    if c = '-' then (plainNat? cs).map fun n => -(Int.ofNat n)
    else (plainNat? (c :: cs)).map Int.ofNat

/-- Whether a text starts with a number that is too long, its sign counted as a digit. -/
def startsTooLong (t : Text) : Bool :=
  let digits := match t with
    | c :: cs => if c = '-' then cs else c :: cs
    | [] => []
  digits.head?.any isLeadingDigit &&
    Number.maxDigits < t.length - (digits.dropWhile CodePoint.isAsciiDigit).length

/-- Drop zeros and underscores up to the first mark of the number proper, given the mark before.  The
zero before a point is kept, and so is the last mark of a number of zeros. -/
def dropZeros? (before : CodePoint) : Text → Option Text
  | [] => some [before]
  | c :: cs =>
    if c = '0' ∨ c = '_' then dropZeros? c cs
    else if isLeadingDigit c ∨ c = '-' then some (c :: cs)
    else if c = '.' then some (before :: c :: cs)
    else none

/-- Drop the zeros before a number, which has to start with a digit. -/
def dropLeadingZeros? (t : Text) : Option Text :=
  match t with
  | [] => none
  | c :: cs =>
    if c = '0' then dropZeros? c cs else if isLeadingDigit c then some (c :: cs) else none

/-- The part of a number before its point, if zeros and nothing else follow the point. -/
def dropZeroFraction (t : Text) : Text :=
  let whole := t.takeWhile fun c : CodePoint => c ≠ '.'
  match t.drop whole.length with
  | _ :: zeros => if zeros ≠ [] ∧ zeros.all fun c : CodePoint => c = '0' then whole else t
  | [] => t

def normalNumber? (t : Text) : Option Text :=
  let normal (t : Text) : Option Text :=
    (dropLeadingZeros? t).bind fun t => dropUnderscores? (dropZeroFraction t)
  match trimNumber t with
  | [] => none
  | c :: cs =>
    if c = '-' then (normal cs).map fun t => c :: t
    else if c = '+' then normal cs
    else normal (c :: cs)

def intOfText (t : Text) : Except IssueKind Int :=
  if startsTooLong t then .error .intParsingSize
  else
    let number? := (plainInt? t).orElse fun _ =>
      (normalNumber? t).bind fun t => if Number.maxDigits < t.length then none else plainInt? t
    match number? with
    | some n => .ok n
    | none => .error .intParsing

/-! ## Doubles -/

/-- Read the magnitude of a decimal number: digits with a point among them, and an exponent. -/
def decimalMagnitude? (t : Text) : Option Float :=
  let whole := t.takeWhile CodePoint.isAsciiDigit
  let rest := t.drop whole.length
  let (decimals, rest) : Text × Text :=
    match rest with
    | c :: cs =>
      if c = '.' then (cs.takeWhile CodePoint.isAsciiDigit, cs.dropWhile CodePoint.isAsciiDigit)
      else ([], rest)
    | [] => ([], [])
  let exponent? : Option Int :=
    match rest with
    | [] => some 0
    | e :: cs =>
      if e = 'e' ∨ e = 'E' then
        match cs with
        | s :: ds =>
          if s = '-' then (Number.parseNat? ds).map fun n => -(Int.ofNat n)
          else if s = '+' then (Number.parseNat? ds).map Int.ofNat
          else (Number.parseNat? cs).map Int.ofNat
        | [] => none
      else none
  match exponent?, Number.parseNat? (whole ++ decimals) with
  | some exponent, some digits =>
    some (Number.nearestFloatOfDecimal digits (exponent - Int.ofNat decimals.length))
  | _, _ => none

/-- Read a double from a text without white space: a decimal number, or a word for infinity or for
what is not a number, with one sign. -/
def floatOfBareText? (t : Text) : Option Float :=
  let magnitude (t : Text) : Option Float :=
    let word := t.map CodePoint.asciiLower
    if word = Text.ofString "inf" ∨ word = Text.ofString "infinity" then some (1.0 / 0.0)
    else if word = Text.ofString "nan" then some (0.0 / 0.0)
    else decimalMagnitude? t
  match t with
  | [] => none
  | c :: cs =>
    if c = '-' then (magnitude cs).map fun x => -x
    else if c = '+' then magnitude cs
    else magnitude (c :: cs)

/-- Read a double from a text: white space around it, or single underscores inside it. -/
def floatOfText (t : Text) : Except IssueKind Float :=
  let number? := (floatOfBareText? (trimNumber t)).orElse fun _ =>
    (dropUnderscores? t).bind floatOfBareText?
  match number? with
  | some x => .ok x
  | none => .error .floatParsing

/-! ## Counts -/

/-- A number that counts something, whole or not. -/
inductive Count
  | whole (value : Int)
  | fractional (value : Float)

/-- Read a count: digits after one sign or none, with a point or an exponent behind a point where it
is not whole.  A whole one has 64 bits. -/
def countOfText? (t : Text) : Option Count :=
  let (negative, body) : Bool × Text :=
    match t with
    | c :: cs => if c = '-' then (true, cs) else if c = '+' then (false, cs) else (false, t)
    | [] => (false, [])
  let digits := body.takeWhile CodePoint.isAsciiDigit
  if digits = [] then none
  else
    match body.drop digits.length with
    | [] =>
      (Number.parseNat? digits).bind fun n =>
        let value : Int := if negative then -(Int.ofNat n) else Int.ofNat n
        if -Int.pow 2 63 ≤ value ∧ value < Int.pow 2 63 then some (.whole value) else none
    | c :: _ =>
      if c = '.' then
        (decimalMagnitude? body).map fun x => .fractional (if negative then -x else x)
      else none

end HookAtlas.Validation
