/-
# JSON values

Values as JSON writes them, with two additions of the wider dialect that the settings accept:
whole numbers of any size are kept apart from doubles, and doubles may be infinite or not a number.
An object keeps the order of its fields; a repeated field keeps its first place and its last value.
-/

import HookAtlas.Text.CodePoint

namespace HookAtlas

inductive Json
  | null
  | bool (value : Bool)
  | int (value : Int)
  | float (value : Float)
  | text (value : Text)
  | list (items : List Json)
  | object (fields : List (Text × Json))
deriving Inhabited

namespace Json

/-- Put a field into a list of fields: in its old place where the name occurs, else at the end. -/
def putField (name : Text) (value : Json) : List (Text × Json) → List (Text × Json)
  | [] => [(name, value)]
  | (other, old) :: fields =>
    if other = name then (name, value) :: fields
    else (other, old) :: putField name value fields

/-- The value of a field in a list of fields. -/
def lookupField? (name : Text) (fields : List (Text × Json)) : Option Json :=
  (fields.find? fun field => field.1 = name).map Prod.snd

/-- The fields of an object; any other value has none. -/
def fields : Json → List (Text × Json)
  | .object entries => entries
  | _ => []

def field? (name : Text) (value : Json) : Option Json :=
  lookupField? name value.fields

def text? : Json → Option Text
  | .text t => some t
  | _ => none

def items? : Json → Option (List Json)
  | .list items => some items
  | _ => none

def int? : Json → Option Int
  | .int n => some n
  | _ => none

mutual

/-- Whether a value holds a whole number of more than so many digits. -/
def hasLongNumber (digits : Nat) : Json → Bool
  | .int n => Nat.pow 10 digits ≤ n.natAbs
  | .list items => itemsHaveLongNumber digits items
  | .object entries => fieldsHaveLongNumber digits entries
  | _ => false

/-- Whether one of some values holds such a number. -/
def itemsHaveLongNumber (digits : Nat) : List Json → Bool
  | [] => false
  | item :: items => hasLongNumber digits item || itemsHaveLongNumber digits items

/-- Whether one of some fields holds such a number. -/
def fieldsHaveLongNumber (digits : Nat) : List (Text × Json) → Bool
  | [] => false
  | (_, value) :: fields => hasLongNumber digits value || fieldsHaveLongNumber digits fields

end

end Json

end HookAtlas
