/-
# Lexing a PHP source text

A source is a sequence of code between tags and of text outside them.  A source without any open tag
is code throughout; otherwise it starts outside.  Lexing takes one token after the other off the
front of the source.  It stops early only where a literal or a comment never ends, and then reports
what was left open beside the tokens before it.
-/

import HookAtlas.Php.Lexeme
import HookAtlas.Text.Quoted

namespace HookAtlas.Php

/-- Whether the place reached lies between tags. -/
inductive Mode
  | code
  | html
deriving DecidableEq, Repr

namespace Mode

def lexeme : Mode → CodePoint → Text → Lexeme
  | .code => codeLexeme
  | .html => htmlLexeme

/-- The mode after a token: an open tag leads into code and a close tag out of it. -/
def after (mode : Mode) (kind : TokenKind) : Mode :=
  match mode, kind with
  | .code, .closeTag => .html
  | .html, .openTag => .code
  | mode, _ => mode

end Mode

/-- Why lexing stopped before the end of the source, and on which line the open literal starts. -/
structure LexError where
  what : Unterminated
  line : Int
deriving DecidableEq, Repr

def Unterminated.description : Unterminated → Text
  | .blockComment => "Unterminated block comment"
  | .stringLiteral => "Unterminated string literal"
  | .shellString => "Unterminated shell string"
  | .heredoc label => Text.ofString "Unterminated heredoc " ++ label.quoted

def LexError.message (error : LexError) : Text :=
  error.what.description ++ Text.ofString " at line " ++ Number.intText error.line

/-- The tokens of a source and the error that ended it early, if one did. -/
structure Lexing where
  tokens : List Token
  error : Option LexError
deriving DecidableEq, Repr

/-- Lex from a place of the source that was reached in a mode and on a line. -/
def lexFrom (mode : Mode) (line : Int) : Text → Lexing
  | [] => ⟨[], none⟩
  | c :: cs =>
    match mode.lexeme c cs with
    | .unterminated what => ⟨[], some ⟨what, line⟩⟩
    | .token kind more =>
      let text : Text := c :: cs.take more
      let rest := lexFrom (mode.after kind) (line + text.lineFeeds) (cs.drop more)
      ⟨⟨kind, text, line⟩ :: rest.tokens, rest.error⟩
termination_by source => source.length
decreasing_by
  simp only [List.length_drop, List.length_cons]
  omega

/-- The mode in which a source starts. -/
def startMode (source : Text) : Mode :=
  if hasOpenTag source then .html else .code

def lex (source : Text) : Lexing :=
  lexFrom (startMode source) 1 source

/-- The tokens of a source, up to the place where lexing stops. -/
def tokenize (source : Text) : List Token :=
  (lex source).tokens

end HookAtlas.Php
