/-
# Recognising one token

Given the first code point of the remaining source and what follows it, `codeLexeme` and
`htmlLexeme` say what kind of token starts there and how many of the following code points belong
to it.  A token therefore always has its first code point, so lexing makes progress whatever the
text, and cutting the source at that place loses nothing.

Quoted strings, block comments and heredocs are opaque: they end at their first terminator.  Where
there is none the recogniser says what is left open instead of a kind.
-/

import HookAtlas.Php.Token
import HookAtlas.Text.Blank
import HookAtlas.Text.Digit

namespace HookAtlas.Php

inductive Unterminated
  | blockComment
  | stringLiteral
  | shellString
  | heredoc (label : Text)
deriving DecidableEq, Repr

/-- What starts at a place of the source: a token made of the first code point and `more` of the following ones,
or a literal or a comment that never ends. -/
inductive Lexeme
  | token (kind : TokenKind) (more : Nat)
  | unterminated (what : Unterminated)
deriving DecidableEq, Repr

/-! ## Tags -/

/-- How many code points follow the `<` of an open tag: `?php` in any case before white space or the
end, or `?=`. -/
def openTagRest? : Text → Option Nat
  | q :: p :: h :: r :: rest =>
    if q ≠ '?' then none
    else if p = '=' then some 2
    else if p.asciiLower = 'p' ∧ h.asciiLower = 'h' ∧ r.asciiLower = 'p' ∧
        (rest.head?.all CodePoint.isBlank) then some 4
    else none
  | q :: p :: _ => if q = '?' ∧ p = '=' then some 2 else none
  | _ => none

def openTag? : Text → Option Nat
  | [] => none
  | c :: cs => if c = '<' then (openTagRest? cs).map (· + 1) else none

def hasOpenTag : Text → Bool
  | [] => false
  | c :: cs => (openTag? (c :: cs)).isSome || hasOpenTag cs

/-- The number of code points before the next open tag, or of all where there is none. -/
def htmlLength : Text → Nat
  | [] => 0
  | c :: cs => if (openTag? (c :: cs)).isSome then 0 else htmlLength cs + 1

/-- A close tag swallows one line break that follows it directly. -/
def lineBreakLength : Text → Nat
  | [] => 0
  | c :: cs =>
    if c = '\n' then 1
    else if c = '\r' ∧ cs.head? = some ('\n' : CodePoint) then 2
    else 0

/-! ## Comments -/

/-- The number of code points through the first `*/`. -/
def blockEnd? : Text → Option Nat
  | [] => none
  | c :: cs =>
    if c = '*' ∧ cs.head? = some ('/' : CodePoint) then some 2
    else (blockEnd? cs).map (· + 1)

/-- A line comment runs to the end of its line, and stops before a close tag. -/
def lineCommentLength : Text → Nat
  | [] => 0
  | c :: cs =>
    if c = '\n' ∨ c = '\r' then 0
    else if c = '?' ∧ cs.head? = some ('>' : CodePoint) then 0
    else lineCommentLength cs + 1

/-- A block comment documents what follows when it opens with two stars and white space.  The text
is what follows the first star. -/
def opensDocComment : Text → Bool
  | star :: c :: _ => star = '*' && c.isBlank
  | _ => false

/-! ## Quoted strings -/

/-- The number of code points through the first closing quote that no backslash escapes. -/
def closingQuote? (quote : CodePoint) : Text → Option Nat
  | [] => none
  | c :: cs =>
    if c = quote then some 1
    else if c = '\\' then
      match cs with
      | [] => none
      | _ :: rest => (closingQuote? quote rest).map (· + 2)
    else (closingQuote? quote cs).map (· + 1)

/-- Whether the body of a double-quoted string embeds a variable or an expression: a dollar sign
before a brace or a name, or a brace before a dollar sign, none of them escaped. -/
def hasInterpolation : Text → Bool
  | [] => false
  | c :: cs =>
    if c = '\\' then
      match cs with
      | [] => false
      | _ :: rest => hasInterpolation rest
    else
      match cs with
      | [] => false
      | next :: rest =>
        (c = '$' && (next = '{' || next.isNameStart)) || (c = '{' && next = '$') ||
          hasInterpolation (next :: rest)

/-- A quoted literal, given its quote and what follows it. -/
def quotedLexeme (quote : CodePoint) (kind : Text → TokenKind) (missing : Unterminated)
    (cs : Text) : Lexeme :=
  match closingQuote? quote cs with
  | some n => .token (kind (cs.take (n - 1))) n
  | none => .unterminated missing

/-! ## Heredocs -/

/-- The start of a heredoc after its three angle brackets: the label, and the number of code points
through the line break that follows it.  The label may stand in quotes of either sort. -/
def heredocStart? (cs : Text) : Option (Text × Nat) :=
  let blanks := Text.runLength CodePoint.isSpaceOrTab cs
  match cs.drop blanks with
  | [] => none
  | c :: rest =>
    let quoted := c = '"' ∨ c = '\''
    let body := if quoted then rest else c :: rest
    let size := Text.runLength CodePoint.isNamePart body
    let label := body.take size
    let after := body.drop size
    if (body.head?.all fun c => !c.isNameStart) then none
    else if quoted then
      if after.head? = some c then
        match lineBreakLength (after.drop 1) with
        | 0 => none
        | n => some (label, blanks + 1 + size + 1 + n)
      else none
    else
      match lineBreakLength after with
      | 0 => none
      | n => some (label, blanks + size + n)

/-- Whether a line closes a heredoc: spaces and tabs, the label, and no further name character.
Answers the number of code points through the label. -/
def closingLabel? (label : Text) (line : Text) : Option Nat :=
  let blanks := Text.runLength CodePoint.isSpaceOrTab line
  let rest := line.drop blanks
  if label.isPrefixOf rest && ((rest.drop label.length).head?.all fun c => !c.isNamePart) then
    some (blanks + label.length)
  else none

/-- The number of code points through the closing label, searched from a place inside a line. -/
def heredocEndInLine? (label : Text) : Text → Option Nat
  | [] => none
  | c :: cs =>
    if c = '\n' then
      match closingLabel? label cs with
      | some n => some (n + 1)
      | none => (heredocEndInLine? label cs).map (· + 1)
    else (heredocEndInLine? label cs).map (· + 1)

/-- The number of code points through the closing label, searched from the start of a line. -/
def heredocEnd? (label : Text) (body : Text) : Option Nat :=
  match closingLabel? label body with
  | some n => some n
  | none => heredocEndInLine? label body

/-- The heredoc that starts with an angle bracket, given what follows the bracket; none where no
heredoc starts there. -/
def heredocLexeme? : Text → Option Lexeme
  | b :: c :: rest =>
    if b = '<' ∧ c = '<' then
      match heredocStart? rest with
      | none => none
      | some (label, opener) =>
        match heredocEnd? label (rest.drop opener) with
        | some n => some (.token .heredoc (2 + opener + n))
        | none => some (.unterminated (.heredoc label))
    else none
  | _ => none

/-! ## Numbers, names and operators -/

/-- Hexadecimal digits and the underscores between them. -/
def isHexPart (c : CodePoint) : Bool :=
  c.isHexDigit || c.val == 0x5F

def isBinaryPart (c : CodePoint) : Bool :=
  c.val == 0x30 || c.val == 0x31 || c.val == 0x5F

def isDecimalPart (c : CodePoint) : Bool :=
  c.isDecimal || c.val == 0x5F

/-- The length of an exponent, zero where its letter is not followed by digits. -/
def exponentLength : Text → Nat
  | [] => 0
  | e :: cs =>
    if e = 'e' ∨ e = 'E' then
      let sign := if cs.head? = some ('+' : CodePoint) ∨ cs.head? = some ('-' : CodePoint) then 1 else 0
      match Text.runLength CodePoint.isDecimal (cs.drop sign) with
      | 0 => 0
      | digits => 1 + sign + digits
    else 0

/-- The length of a fraction with its point. -/
def fractionLength : Text → Nat
  | [] => 0
  | c :: cs => if c = '.' then 1 + Text.runLength isDecimalPart cs else 0

def decimalRest (cs : Text) : Nat :=
  let whole := Text.runLength isDecimalPart cs
  let fraction := fractionLength (cs.drop whole)
  whole + fraction + exponentLength (cs.drop (whole + fraction))

/-- The code points of a number after its first one; none where no number starts. -/
def numberRest? (c : CodePoint) (cs : Text) : Option Nat :=
  let radix (letter capital : Char) (part : CodePoint → Bool) : Option Nat :=
    match cs with
    | x :: digits =>
      if c = '0' ∧ (x = letter ∨ x = capital) then
        match Text.runLength part digits with
        | 0 => none
        | n => some (n + 1)
      else none
    | [] => none
  match radix 'x' 'X' isHexPart with
  | some n => some n
  | none =>
    match radix 'b' 'B' isBinaryPart with
    | some n => some n
    | none =>
      if c.isDecimal then some (decimalRest cs)
      else if c = '.' ∧ (cs.head?.any CodePoint.isDecimal) then
        let digits := Text.runLength isDecimalPart cs
        some (digits + exponentLength (cs.drop digits))
      else none

/-- The operators of three characters and of two; a longer one comes before a shorter one that it
starts with. -/
def operators : List (List Char) :=
  [['?', '-', '>'], ['.', '.', '.'], ['<', '=', '>'], ['*', '*', '='], ['?', '?', '='],
    ['=', '=', '='], ['!', '=', '='], ['<', '<', '='], ['>', '>', '='],
    ['-', '>'], [':', ':'], ['=', '>'], ['?', '?'], ['=', '='], ['!', '='], ['<', '>'],
    ['<', '='], ['>', '='], ['&', '&'], ['|', '|'], ['+', '+'], ['-', '-'],
    ['+', '='], ['-', '='], ['*', '='], ['/', '='], ['.', '='], ['%', '='], ['&', '='],
    ['|', '='], ['^', '='], ['<', '<'], ['>', '>'], ['*', '*']]

/-- The code points of an operator after its first one; none for a single punctuation mark. -/
def operatorRest (t : Text) : Nat :=
  match operators.find? fun operator => (Text.ofChars operator).isPrefixOf t with
  | some operator => operator.length - 1
  | none => 0

/-! ## The recognisers of the two modes -/

def codeLexeme (c : CodePoint) (cs : Text) : Lexeme :=
  let next (d : Char) : Bool := cs.head? = some (d : CodePoint)
  if c.isBlank then .token .whitespace (Text.runLength CodePoint.isBlank cs)
  else if c = '?' ∧ next '>' then .token .closeTag (1 + lineBreakLength (cs.drop 1))
  else if c = '/' ∧ next '*' then
    match blockEnd? (cs.drop 1) with
    | some n => .token (if opensDocComment (cs.drop 1) then .docComment else .comment) (1 + n)
    | none => .unterminated .blockComment
  else if c = '#' ∧ next '[' then .token .punct 1
  else if c = '#' ∨ (c = '/' ∧ next '/') then .token .comment (lineCommentLength cs)
  else if c = '\'' then quotedLexeme c (fun _ => .string) .stringLiteral cs
  else if c = '"' then
    quotedLexeme c (fun body => if hasInterpolation body then .template else .string)
      .stringLiteral cs
  else if c.val = 0x60 then quotedLexeme c (fun _ => .template) .shellString cs
  else
    match (if c = '<' then heredocLexeme? cs else none) with
    | some lexeme => lexeme
    | none =>
      if c = '$' then
        match cs with
        | d :: ds =>
          if d.isNameStart then .token .variableName (1 + Text.runLength CodePoint.isNamePart ds)
          else .token .punct 0
        | [] => .token .punct 0
      else if c.isNameStart then .token .identifier (Text.runLength CodePoint.isNamePart cs)
      else
        match
          (if c.isDigit || (c = '.' && cs.head?.any CodePoint.isDigit) then numberRest? c cs
          else none) with
        | some n => .token .number n
        | none => .token .punct (operatorRest (c :: cs))

def htmlLexeme (c : CodePoint) (cs : Text) : Lexeme :=
  match openTag? (c :: cs) with
  | some n => .token .openTag (n - 1)
  | none => .token .inlineHtml (htmlLength cs)

end HookAtlas.Php
