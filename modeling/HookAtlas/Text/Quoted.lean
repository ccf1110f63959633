/-
# Quoted text in messages

Messages name a text in quotes.  Single quotes are used unless the text holds a single quote and no
double one.  The backslash, the chosen quote and everything that is not printable are escaped.
-/

import HookAtlas.Text.Printable
import HookAtlas.Number.Decimal

namespace HookAtlas.Text

/-- The quote that goes around a text: a double one only where a single one would need escaping
and a double one would not. -/
def quoteFor (t : Text) : CodePoint :=
  if t.contains '\'' && !t.contains '"' then '"' else '\''

def quotedCodePoint (quote c : CodePoint) : Text :=
  if c = quote ∨ c = '\\' then ['\\', c]
  else if c = '\n' then ofChars ['\\', 'n']
  else if c = '\r' then ofChars ['\\', 'r']
  else if c = '\t' then ofChars ['\\', 't']
  else if c.isPrintable then [c]
  else if c.val < 0x100 then ofChars ['\\', 'x'] ++ Number.hexText 2 c.val
  else if c.val < 0x10000 then ofChars ['\\', 'u'] ++ Number.hexText 4 c.val
  else ofChars ['\\', 'U'] ++ Number.hexText 8 c.val

/-- A text in quotes, as messages show it. -/
def quoted (t : Text) : Text :=
  let quote := quoteFor t
  quote :: (t.flatMap (quotedCodePoint quote) ++ [quote])

end HookAtlas.Text
