/-
# Patterns of a search

In a pattern a percent sign stands for any run of characters, an underscore for any single one, and a
backslash makes the next character literal.  Pattern and text are compared after a map of single code
points; what matters of the map is that it keeps the special characters and makes nothing else one.
-/

import HookAtlas.Text.CodePoint

namespace HookAtlas.Like

def isSpecial (c : CodePoint) : Bool :=
  c = '\\' || c = '%' || c = '_'

/-- The pattern that matches a text literally. -/
def escape (t : Text) : Text :=
  t.flatMap fun c => if isSpecial c then ['\\', c] else [c]

/-- The pattern that matches every text in which the given one occurs. -/
def containing (t : Text) : Text :=
  '%' :: (escape t ++ Text.ofChars ['%'])

/-- Whether a pattern matches a whole text.  A backslash at the end of a pattern matches nothing. -/
def accepts : Text → Text → Bool
  | [], t => t.isEmpty
  | p :: ps, t =>
    if p = '%' then
      accepts ps t ||
        match t with
        | [] => false
        | _ :: cs => accepts (p :: ps) cs
    else
      match t with
      | [] => false
      | c :: cs =>
        if p = '_' then accepts ps cs
        else if p = '\\' then
          match ps with
          | [] => false
          | q :: qs => q = c && accepts qs cs
        else p = c && accepts ps cs
termination_by pattern t => pattern.length + t.length

/-- Whether a pattern matches a text after a map of single code points. -/
def matchesUnder (fold : CodePoint → CodePoint) (pattern t : Text) : Bool :=
  accepts (pattern.map fold) (t.map fold)

end HookAtlas.Like
