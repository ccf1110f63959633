/-
# Writing JSON

The one-line form: a blank after every comma and colon, and all characters outside printable ASCII
escaped, those above the basic plane as a pair of surrogates.  A value with a whole number of more than
`Number.maxDigits` digits is not written.
-/

import HookAtlas.Json.Basic
import HookAtlas.Number.Shortest

namespace HookAtlas.Json

def unitEscape (unit : Nat) : Text :=
  Text.ofChars ['\\', 'u'] ++ Number.hexText 4 unit

/-- One code point inside a JSON string. -/
def printCodePoint (c : CodePoint) : Text :=
  if c = '"' then Text.ofChars ['\\', '"']
  else if c = '\\' then Text.ofChars ['\\', '\\']
  else if c = '\n' then Text.ofChars ['\\', 'n']
  else if c = '\r' then Text.ofChars ['\\', 'r']
  else if c = '\t' then Text.ofChars ['\\', 't']
  else if c.val = 0x8 then Text.ofChars ['\\', 'b']
  else if c.val = 0xC then Text.ofChars ['\\', 'f']
  else if 0x20 ≤ c.val ∧ c.val ≤ 0x7E then [c]
  else if c.val < 0x10000 then unitEscape c.val
  else
    unitEscape (0xD800 + (c.val - 0x10000) / 0x400) ++
      unitEscape (0xDC00 + (c.val - 0x10000) % 0x400)

def printText (t : Text) : Text :=
  '"' :: (t.flatMap printCodePoint ++ Text.ofChars ['"'])

/-- A double as JSON text. -/
def printFloat (x : Float) : Text :=
  match Number.Binary64.ofFloat x with
  | .notANumber => Text.ofChars ['N', 'a', 'N']
  | .infinite false => Text.ofChars ['I', 'n', 'f', 'i', 'n', 'i', 't', 'y']
  | .infinite true => Text.ofChars ['-', 'I', 'n', 'f', 'i', 'n', 'i', 't', 'y']
  | .finite _ _ => Number.floatText x

mutual

/-- The text of a value, whatever the length of its numbers. -/
def print : Json → Text
  | .null => Text.ofChars ['n', 'u', 'l', 'l']
  | .bool true => Text.ofChars ['t', 'r', 'u', 'e']
  | .bool false => Text.ofChars ['f', 'a', 'l', 's', 'e']
  | .int n => Number.intText n
  | .float x => printFloat x
  | .text t => printText t
  | .list items => '[' :: (printItems items ++ Text.ofChars [']'])
  | .object fields => '{' :: (printFields fields ++ Text.ofChars ['}'])

def printItems : List Json → Text
  | [] => []
  | [item] => print item
  | item :: next :: rest => print item ++ Text.ofChars [',', ' '] ++ printItems (next :: rest)

def printFields : List (Text × Json) → Text
  | [] => []
  | [(name, value)] => printText name ++ Text.ofChars [':', ' '] ++ print value
  | (name, value) :: next :: rest =>
    printText name ++ Text.ofChars [':', ' '] ++ print value ++ Text.ofChars [',', ' '] ++
      printFields (next :: rest)

end

/-- Write a value. -/
def print? (value : Json) : Option Text :=
  if value.hasLongNumber Number.maxDigits then none else some value.print

end HookAtlas.Json
