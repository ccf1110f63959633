/-
# Tokens of a PHP source text

A token is a stretch of the source with a kind and the line it starts on.  White space and comments
are trivia: they separate the other tokens and mean nothing themselves.
-/

import HookAtlas.Hook.Kind

namespace HookAtlas

namespace CodePoint

/-- The code points a PHP name may start with: letters, the underscore and everything beyond
ASCII. -/
def isNameStart (c : CodePoint) : Bool :=
  c.isAsciiLetter || c.val == 0x5F || 0x80 ≤ c.val

/-- The code points that may stand in a PHP name: those it may start with, and digits. -/
def isNamePart (c : CodePoint) : Bool :=
  c.isNameStart || c.isAsciiDigit

end CodePoint

namespace Php

/-- The kinds of tokens that matter for finding calls. -/
inductive TokenKind
  | identifier
  | variableName
  | string
  | template
  | heredoc
  | number
  | punct
  | whitespace
  | comment
  | docComment
  | openTag
  | closeTag
  | inlineHtml
deriving DecidableEq, Repr, Inhabited

namespace TokenKind

def all : List TokenKind :=
  [.identifier, .variableName, .string, .template, .heredoc, .number, .punct, .whitespace,
    .comment, .docComment, .openTag, .closeTag, .inlineHtml]

def name : TokenKind → Text
  | .identifier => "identifier"
  | .variableName => "variable"
  | .string => "string"
  | .template => "template"
  | .heredoc => "heredoc"
  | .number => "number"
  | .punct => "punct"
  | .whitespace => "whitespace"
  | .comment => "comment"
  | .docComment => "doc_comment"
  | .openTag => "open_tag"
  | .closeTag => "close_tag"
  | .inlineHtml => "inline_html"

def ofName? (t : Text) : Option TokenKind :=
  HookAtlas.ofName? all name t

def isTrivia : TokenKind → Bool
  | .whitespace | .comment | .docComment => true
  | _ => false

end TokenKind

/-- A stretch of the source with the line it starts on; the lexer counts lines from one. -/
structure Token where
  kind : TokenKind
  text : Text
  line : Int
deriving DecidableEq, Repr

def Token.isTrivia (token : Token) : Bool :=
  token.kind.isTrivia

end Php

end HookAtlas
