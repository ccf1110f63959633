/-
# Calls that dispatch a hook by a literal name

A call site is a configured function name, an opening parenthesis, a plain string and then a comma
or the closing parenthesis, with any trivia between them.  A name that is computed in any way is not
guessed at: the string has to be the whole first argument.
-/

import HookAtlas.Php.Token
import HookAtlas.Php.Literal

namespace HookAtlas.Php

/-- A call whose hook name is a literal, with the line of the function name. -/
structure CallSite where
  callee : Text
  hookName : Text
  hookType : HookType
  line : Int
deriving DecidableEq, Repr

/-- The functions that dispatch actions and those that dispatch filters, which take precedence. -/
structure Callees where
  actions : List Text
  filters : List Text

namespace Callees

def standard : Callees where
  actions := [Text.ofString "do_action", Text.ofString "do_action_ref_array"]
  filters := [Text.ofString "apply_filters", Text.ofString "apply_filters_ref_array"]

/-- What a function dispatches, if anything. -/
def hookType? (callees : Callees) (name : Text) : Option HookType :=
  if name ∈ callees.filters then some .filter
  else if name ∈ callees.actions then some .action
  else none

/-- All configured functions, each once, in the order of their names. -/
def names (callees : Callees) : List Text :=
  ((callees.actions ++ callees.filters).mergeSort Text.le).eraseReps

end Callees

/-- The first token that is no trivia, and what follows it. -/
def nextSignificant? : List Token → Option (Token × List Token)
  | [] => none
  | token :: tokens => if token.isTrivia then nextSignificant? tokens else some (token, tokens)

def Token.isPunct (token : Token) (mark : Char) : Bool :=
  token.kind = .punct && token.text = [(mark : CodePoint)]

/-- The value of the first argument of a call, given the tokens after the function name.  It exists
where the argument is one plain string literal. -/
def literalArgument? (tokens : List Token) : Option Text :=
  match nextSignificant? tokens with
  | none => none
  | some (paren, tokens) =>
    if !paren.isPunct '(' then none
    else
      match nextSignificant? tokens with
      | none => none
      | some (argument, tokens) =>
        if argument.kind ≠ .string then none
        else
          match nextSignificant? tokens with
          | none => none
          | some (after, _) =>
            if after.isPunct ',' || after.isPunct ')' then some (literalValue argument.text)
            else none

/-- The call site that starts with a token, given the tokens after it. -/
def callSiteAt? (callees : Callees) (token : Token) (tokens : List Token) : Option CallSite :=
  if token.kind ≠ .identifier then none
  else
    match callees.hookType? token.text with
    | none => none
    | some hookType =>
      (literalArgument? tokens).map fun hookName => ⟨token.text, hookName, hookType, token.line⟩

/-- All call sites in a list of tokens, in order. -/
def callSites (callees : Callees) : List Token → List CallSite
  | [] => []
  | token :: tokens => (callSiteAt? callees token tokens).toList ++ callSites callees tokens

end HookAtlas.Php
