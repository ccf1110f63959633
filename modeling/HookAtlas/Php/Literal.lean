/-
# The value of a quoted literal

A single-quoted literal knows two escapes, of the backslash and of the single quote.  A
double-quoted one also knows control characters, the dollar sign, octal and hexadecimal bytes and
code points in braces.  What is no escape stays as it is written, and so does a code point in braces
that is a surrogate or lies outside the code space.
-/

import HookAtlas.Text.CodePoint

namespace HookAtlas.Php

/-- The value of the body of a single-quoted literal. -/
def decodeSingle : Text → Text
  | [] => []
  | c :: cs =>
    if c = '\\' then
      match cs with
      | [] => [c]
      | d :: rest =>
        if d = '\\' ∨ d = '\'' then d :: decodeSingle rest else c :: decodeSingle (d :: rest)
    else c :: decodeSingle cs

def simpleEscape? (c : CodePoint) : Option CodePoint :=
  if c = 'n' then some (CodePoint.ofNat 0xA)
  else if c = 't' then some (CodePoint.ofNat 0x9)
  else if c = 'r' then some (CodePoint.ofNat 0xD)
  else if c = 'v' then some (CodePoint.ofNat 0xB)
  else if c = 'e' then some (CodePoint.ofNat 0x1B)
  else if c = 'f' then some (CodePoint.ofNat 0xC)
  else if c = '\\' ∨ c = '$' ∨ c = '"' then some c
  else none

def hexNumber (digits : Text) : Nat :=
  digits.foldl (fun total c => total * 16 + c.hexValue?.getD 0) 0

def octalNumber (digits : Text) : Nat :=
  digits.foldl (fun total c => total * 8 + (c.val - 0x30)) 0

/-- The digits at the start of a text that belong to a class, at most so many. -/
def leadingDigits (p : CodePoint → Bool) (limit : Nat) (t : Text) : Text :=
  t.take (min limit (Text.runLength p t))

/-- An escape with digits in braces, after its letter: the digits and the number of code points
through the closing brace. -/
def bracedDigits? : Text → Option (Text × Nat)
  | [] => none
  | c :: cs =>
    let size := Text.runLength CodePoint.isHexDigit cs
    if c = '{' ∧ size ≠ 0 ∧ (cs.drop size).head? = some ('}' : CodePoint) then
      some (cs.take size, size + 2)
    else none

/-- The escape after a backslash: its value and the number of code points after the backslash that
it uses up.  None where the backslash stands for itself. -/
def doubleEscape? : Text → Option (Text × Nat)
  | [] => none
  | c :: cs =>
    match simpleEscape? c with
    | some value => some ([value], 1)
    | none =>
      if c.isOctalDigit then
        let digits := leadingDigits CodePoint.isOctalDigit 3 (c :: cs)
        some ([CodePoint.ofNat (octalNumber digits % 256)], digits.length)
      else if c = 'x' then
        match leadingDigits CodePoint.isHexDigit 2 cs with
        | [] => none
        | digits => some ([CodePoint.ofNat (hexNumber digits)], 1 + digits.length)
      else if c = 'u' then
        match bracedDigits? cs with
        | none => none
        | some (digits, used) =>
          let value := hexNumber digits
          if value > 0x10FFFF ∨ (0xD800 ≤ value ∧ value ≤ 0xDFFF) then
            some ('\\' :: c :: cs.take used, 1 + used)
          else some ([CodePoint.ofNat value], 1 + used)
      else none

/-- The value of the body of a double-quoted literal. -/
def decodeDouble : Text → Text
  | [] => []
  | c :: cs =>
    if c = '\\' then
      match doubleEscape? cs with
      | some (value, used) => value ++ decodeDouble (cs.drop used)
      | none => c :: decodeDouble cs
    else c :: decodeDouble cs
termination_by body => body.length
decreasing_by
  all_goals simp only [List.length_drop, List.length_cons]; omega

/-- The value of a literal with its quotes.  A text that is no quoted literal is its own value. -/
def literalValue (literal : Text) : Text :=
  match literal with
  | quote :: rest =>
    if rest = [] ∨ rest.getLast? ≠ some quote then literal
    else if quote = '\'' then decodeSingle rest.dropLast
    else if quote = '"' then decodeDouble rest.dropLast
    else literal
  | [] => []

end HookAtlas.Php
