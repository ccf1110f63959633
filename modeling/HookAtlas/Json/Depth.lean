/-
# How deep JSON is nested

A reader with a bound on nesting gives up at the bracket that goes beyond it, whatever follows.  It
gets that far only if the text up to the bracket is in order, which is the case exactly if the text,
cut off behind the bracket and with all brackets closed, can be read.
-/

import HookAtlas.Json.Parser

namespace HookAtlas.Json

/-- Where a bracket goes beyond the bound: the text up to it and with it, and the brackets that are open then,
innermost first. -/
structure DeepBracket where
  before : Text
  opened : List CodePoint

/-- Find the first bracket outside of strings with more than so many brackets around it.  What was read
is given last first; a string is either not open, or open with or without a backslash just before. -/
def findDeep? (room : Nat) (opened : List CodePoint) (inString escaped : Bool) (read : Text) :
    Text → Option DeepBracket
  | [] => none
  | c :: cs =>
    let read := c :: read
    if inString then
      findDeep? room opened (escaped || c ≠ '"') (!escaped && c = '\\') read cs
    else if c = '"' then findDeep? room opened true false read cs
    else if c = '[' ∨ c = '{' then
      match room with
      | 0 => some ⟨read.reverse, c :: opened⟩
      | room + 1 => findDeep? room (c :: opened) false false read cs
    else if c = ']' ∨ c = '}' then
      match opened with
      | [] => none
      | _ :: opened => findDeep? (room + 1) opened false false read cs
    else findDeep? room opened false false read cs

def closing (c : CodePoint) : CodePoint :=
  if c = '[' then ']' else '}'

/-- The value that is read up to a bracket, with all brackets closed behind it. -/
def DeepBracket.value? (bracket : DeepBracket) : Option Json :=
  parse? (bracket.before ++ bracket.opened.map closing)

end HookAtlas.Json
