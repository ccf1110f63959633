/-
# Scripted listeners

A scripted listener does what its script says: it checks how many arguments it got, performs some
acts, and returns a value made from its arguments by a rule.  Acts register and remove listeners and
dispatch hooks; acts and rules may raise.
-/

import HookAtlas.Dispatch.Value

namespace HookAtlas

/-- What a scripted listener does before it returns. -/
inductive ScriptAct
  | raise
  | add (hook listener : Text) (priority : Int)
  | remove (hook listener : Text) (priority : Int)
  | action (hook : Text) (args : List Value)
  | filter (hook : Text) (args : List Value)

/-- How a scripted listener makes its result: from its arguments as they are, from the first one with something
added, or, where that is a list of roots, from some of them, from all in reverse as a tuple, or from all and one
more.  Clearing empties the first argument in place. -/
inductive ReturnRule
  | first
  | const (value : Value)
  | args
  | append (suffix : Text)
  | add (summand : Int)
  | keepType (category : Text)
  | clear
  | tupleReversed
  | addRoot (root : SourceRoot Text)
  | mixed

/-- A scripted listener, with the number of arguments it takes if that is fixed. -/
structure ListenerScript where
  arity : Option Nat
  acts : List ScriptAct
  rule : ReturnRule

namespace ReturnRule

/-- The members of an argument that can be gone through. -/
def membersOf? : Value → Option (List Value)
  | .list items => some items
  | .tuple items => some items
  | .text t => some (t.map fun c => .text [c])
  | .object fields => some (fields.map fun field => .text field.1)
  | _ => none

/-- The roots of a category among members that are all roots. -/
def rootsOfCategory? (category : Text) (items : List Value) : Option (List Value) :=
  (items.mapM Value.root?).map fun roots =>
    (roots.filter fun root => root.category = category).map .root

def extended? (member : Value) : Value → Option Value
  | .list items => some (.list (items ++ [member]))
  | _ => none

def emptied? : Value → Option Value
  | .list _ => some (.list [])
  | .object _ => some (.object [])
  | _ => none

/-- The result of a rule and the arguments after it; no result where the rule raises. -/
def apply (rule : ReturnRule) (arguments : List Value) : List Value × Option Value :=
  let value := arguments.head?.getD .null
  match rule with
  | .first => (arguments, some value)
  | .const value => (arguments, some value)
  | .args => (arguments, some (.list arguments))
  | .append suffix =>
    match value with
    | .text t => (arguments, some (.text (t ++ suffix)))
    | _ => (arguments, none)
  | .add summand =>
    match value with
    | .int n => (arguments, some (.int (n + summand)))
    | _ => (arguments, none)
  | .keepType category =>
    (arguments, ((membersOf? value).bind (rootsOfCategory? category)).map .list)
  | .clear =>
    match emptied? value with
    | some left => (left :: arguments.drop 1, some .null)
    | none => (arguments, none)
  | .tupleReversed => (arguments, (membersOf? value).map fun items => .tuple items.reverse)
  | .addRoot root => (arguments, extended? (.root root) value)
  | .mixed => (arguments, extended? (.text (Text.ofString "not a root")) value)

end ReturnRule

end HookAtlas
