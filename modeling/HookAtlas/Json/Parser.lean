/-
# Reading JSON

A value, and nothing but white space after it.  Whole numbers are read exactly, but one of more than
`Number.maxDigits` digits is refused; a number with a fraction or an exponent is the nearest double.  A
pair of escaped surrogates is one code point; a single one stays as it is.

Every call of the reader uses up a code point before it calls itself again, so the length of the
text bounds the calls; `parse?` starts with one more than that.
-/

import HookAtlas.Json.Basic
import HookAtlas.Number.Binary64
import HookAtlas.Number.Decimal

namespace HookAtlas.Json

/-- The white space that may stand between the parts of a JSON text. -/
def isSpace (c : CodePoint) : Bool :=
  c.val == 0x20 || c.val == 0x9 || c.val == 0xA || c.val == 0xD

def skipSpace (t : Text) : Text :=
  t.dropWhile isSpace

def unitValue? (a b c d : CodePoint) : Option Nat := do
  let a ← a.hexValue?
  let b ← b.hexValue?
  let c ← c.hexValue?
  let d ← d.hexValue?
  pure (((a * 16 + b) * 16 + c) * 16 + d)

/-- A code point of a string, and whether it was written as `\u` and four digits. -/
structure StringPart where
  escaped : Bool
  codePoint : CodePoint

def shortEscape? (c : CodePoint) : Option CodePoint :=
  if c = '"' then some '"'
  else if c = '\\' then some '\\'
  else if c = '/' then some '/'
  else if c = 'b' then some (CodePoint.ofNat 0x8)
  else if c = 'f' then some (CodePoint.ofNat 0xC)
  else if c = 'n' then some '\n'
  else if c = 'r' then some '\r'
  else if c = 't' then some '\t'
  else none

/-- Read a string after its opening quote: its parts and the text after the closing quote. -/
def parseStringParts? : Text → Option (List StringPart × Text)
  | [] => none
  | c :: cs =>
    if c = '"' then some ([], cs)
    else if c = '\\' then
      match cs with
      | [] => none
      | e :: rest =>
        if e = 'u' then
          match rest with
          | h₁ :: h₂ :: h₃ :: h₄ :: rest =>
            match unitValue? h₁ h₂ h₃ h₄ with
            | none => none
            | some unit =>
              (parseStringParts? rest).map fun (parts, rest) =>
                (⟨true, CodePoint.ofNat unit⟩ :: parts, rest)
          | _ => none
        else
          match shortEscape? e with
          | none => none
          | some e =>
            (parseStringParts? rest).map fun (parts, rest) => (⟨false, e⟩ :: parts, rest)
    else if c.val < 0x20 then none
    else (parseStringParts? cs).map fun (parts, rest) => (⟨false, c⟩ :: parts, rest)

/-- Join every pair of escaped surrogates into the code point that it stands for. -/
def joinSurrogates : List StringPart → Text
  | [] => []
  | [part] => [part.codePoint]
  | high :: low :: parts =>
    if high.escaped && low.escaped &&
        (0xD800 ≤ high.codePoint.val && high.codePoint.val < 0xDC00) &&
        (0xDC00 ≤ low.codePoint.val && low.codePoint.val < 0xE000) then
      CodePoint.ofNat (0x10000 + (high.codePoint.val - 0xD800) * 0x400 +
        (low.codePoint.val - 0xDC00)) :: joinSurrogates parts
    else high.codePoint :: joinSurrogates (low :: parts)

def parseString? (t : Text) : Option (Text × Text) :=
  (parseStringParts? t).map fun (parts, rest) => (joinSurrogates parts, rest)

/-- Split off the ASCII digits at the start of a text. -/
def splitDigits (t : Text) : Text × Text :=
  (t.takeWhile CodePoint.isAsciiDigit, t.dropWhile CodePoint.isAsciiDigit)

def digitsValue (digits : Text) : Nat :=
  Number.ofDigits 10 (digits.map fun c => c.val - 0x30)

/-- The digits of a fraction after its point, none where no digit follows a point. -/
def splitFraction : Text → Option Text × Text
  | [] => (none, [])
  | c :: cs =>
    let (digits, rest) := splitDigits cs
    if c = '.' ∧ digits ≠ [] then (some digits, rest) else (none, c :: cs)

/-- The exponent after its letter, none where no digit follows. -/
def splitExponent : Text → Option Int × Text
  | [] => (none, [])
  | c :: cs =>
    let (negative, body) :=
      match cs with
      | [] => (false, [])
      | s :: rest => if s = '-' then (true, rest) else if s = '+' then (false, rest) else (false, cs)
    let (digits, rest) := splitDigits body
    if (c = 'e' ∨ c = 'E') ∧ digits ≠ [] then
      let value : Int := Int.ofNat (digitsValue digits)
      (some (if negative then -value else value), rest)
    else (none, c :: cs)

/-- Read a number without its sign. -/
def parseMagnitude? (negative : Bool) (t : Text) : Option (Json × Text) :=
  match t with
  | [] => none
  | c :: cs =>
    if !c.isAsciiDigit then none
    else
      let (whole, rest) := if c = '0' then ([c], cs) else splitDigits (c :: cs)
      match splitFraction rest with
      | (fraction, rest) =>
        match splitExponent rest with
        | (exponent, rest) =>
          if fraction.isNone && exponent.isNone then
            if Number.maxDigits < whole.length then none
            else
              let value : Int := Int.ofNat (digitsValue whole)
              some (.int (if negative then -value else value), rest)
          else
            let decimals := fraction.getD []
            let value := Number.nearestFloatOfDecimal (digitsValue (whole ++ decimals))
              (exponent.getD 0 - Int.ofNat decimals.length)
            some (.float (if negative then -value else value), rest)

/-- Take a fixed word off the start of a text. -/
def takeWord? (word : List Char) (t : Text) : Option Text :=
  if (Text.ofChars word).isPrefixOf t then some (t.drop word.length) else none

def parseScalar? (t : Text) : Option (Json × Text) :=
  (takeWord? ['n', 'u', 'l', 'l'] t).map (Json.null, ·)
  <|> (takeWord? ['t', 'r', 'u', 'e'] t).map (Json.bool true, ·)
  <|> (takeWord? ['f', 'a', 'l', 's', 'e'] t).map (Json.bool false, ·)
  <|> (takeWord? ['N', 'a', 'N'] t).map (Json.float (0.0 / 0.0), ·)
  <|> (takeWord? ['I', 'n', 'f', 'i', 'n', 'i', 't', 'y'] t).map (Json.float (1.0 / 0.0), ·)
  <|> (takeWord? ['-', 'I', 'n', 'f', 'i', 'n', 'i', 't', 'y'] t).map
        (Json.float (-1.0 / 0.0), ·)
  <|> (match t with
      | c :: cs => if c = '-' then parseMagnitude? true cs else parseMagnitude? false (c :: cs)
      | [] => none)

mutual

/-- Read a value at the start of a text. -/
def parseValue? : Nat → Text → Option (Json × Text)
  | 0, _ => none
  | _, [] => none
  | fuel + 1, c :: cs =>
    if c = '"' then (parseString? cs).map fun (t, rest) => (.text t, rest)
    else if c = '[' then
      match skipSpace cs with
      | [] => none
      | d :: ds =>
        if d = ']' then some (.list [], ds)
        else (parseItems? fuel (d :: ds)).map fun (items, rest) => (.list items, rest)
    else if c = '{' then
      match skipSpace cs with
      | [] => none
      | d :: ds =>
        if d = '}' then some (.object [], ds)
        else (parseFields? fuel [] (d :: ds)).map fun (fields, rest) => (.object fields, rest)
    else parseScalar? (c :: cs)

/-- Read the items of a list up to its closing bracket. -/
def parseItems? : Nat → Text → Option (List Json × Text)
  | 0, _ => none
  | fuel + 1, t =>
    match parseValue? fuel t with
    | none => none
    | some (item, rest) =>
      match skipSpace rest with
      | [] => none
      | c :: cs =>
        if c = ']' then some ([item], cs)
        else if c = ',' then
          (parseItems? fuel (skipSpace cs)).map fun (items, rest) => (item :: items, rest)
        else none

def parseFields? : Nat → List (Text × Json) → Text → Option (List (Text × Json) × Text)
  | 0, _, _ => none
  | _, _, [] => none
  | fuel + 1, before, q :: cs =>
    if q = '"' then
      match parseString? cs with
      | none => none
      | some (name, rest) =>
        match skipSpace rest with
        | [] => none
        | colon :: rest =>
          if colon = ':' then
            match parseValue? fuel (skipSpace rest) with
            | none => none
            | some (value, rest) =>
              let fields := putField name value before
              match skipSpace rest with
              | [] => none
              | c :: cs =>
                if c = '}' then some (fields, cs)
                else if c = ',' then parseFields? fuel fields (skipSpace cs)
                else none
          else none
    else none

end

/-- Read a whole text as one JSON value. -/
def parse? (t : Text) : Option Json :=
  match parseValue? (2 * t.length + 2) (skipSpace t) with
  | none => none
  | some (value, rest) => if skipSpace rest = [] then some value else none

end HookAtlas.Json
