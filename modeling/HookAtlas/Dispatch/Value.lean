/-
# Arguments of hooks

What is passed to listeners: JSON values, and source roots, alone or in lists and tuples.  The name
of a category of a root is free text, since listeners make up roots of their own.
-/

import HookAtlas.Json.Basic
import HookAtlas.Source.Root

namespace HookAtlas

/-- An argument of a hook. -/
inductive Value
  | null
  | bool (value : Bool)
  | int (value : Int)
  | float (value : Float)
  | text (value : Text)
  | list (items : List Value)
  | tuple (items : List Value)
  | object (fields : List (Text × Value))
  | root (value : SourceRoot Text)
deriving Inhabited

namespace Value

mutual

def ofJson : Json → Value
  | .null => .null
  | .bool b => .bool b
  | .int n => .int n
  | .float x => .float x
  | .text t => .text t
  | .list items => .list (listOfJson items)
  | .object fields => .object (fieldsOfJson fields)

def listOfJson : List Json → List Value
  | [] => []
  | item :: items => ofJson item :: listOfJson items

def fieldsOfJson : List (Text × Json) → List (Text × Value)
  | [] => []
  | (name, value) :: fields => (name, ofJson value) :: fieldsOfJson fields

end

mutual

/-- An argument as a JSON value.  A root is the list of its category, its name and its path. -/
def toJson : Value → Json
  | .null => .null
  | .bool b => .bool b
  | .int n => .int n
  | .float x => .float x
  | .text t => .text t
  | .list items => .list (listToJson items)
  | .tuple items => .list (listToJson items)
  | .object fields => .object (fieldsToJson fields)
  | .root known => .list [.text known.category, .text known.sourceName, .text known.path.text]

def listToJson : List Value → List Json
  | [] => []
  | item :: items => toJson item :: listToJson items

def fieldsToJson : List (Text × Value) → List (Text × Json)
  | [] => []
  | (name, value) :: fields => (name, toJson value) :: fieldsToJson fields

end

def root? : Value → Option (SourceRoot Text)
  | .root known => some known
  | _ => none

def members? : Value → Option (List Value)
  | .list items => some items
  | .tuple items => some items
  | _ => none

/-- The source roots of a list or a tuple that holds nothing else. -/
def roots? (value : Value) : Option (List (SourceRoot Text)) :=
  value.members?.bind fun items => items.mapM root?

def ofRoots (roots : List (SourceRoot Text)) : Value :=
  .list (roots.map .root)

mutual

/-- Whether an argument can be looked up in a set: it holds no list and no object. -/
def isHashable : Value → Bool
  | .list _ => false
  | .object _ => false
  | .tuple items => areHashable items
  | _ => true

def areHashable : List Value → Bool
  | [] => true
  | item :: items => isHashable item && areHashable items

end

end Value

end HookAtlas
