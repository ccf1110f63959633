/-
# Reading the fields of an object

A field is looked up by its name.  A missing field has its default, or is an issue where it has
none.  Fields that nobody asks for are ignored.
-/

import HookAtlas.Validation.Scalar

namespace HookAtlas.Validation

/-- Read an optional field with a default for a missing one. -/
def fieldOr {α : Type} (fields : List (Text × Json)) (name : String)
    (read : Json → Except IssueKind α) (default : α) : Validated α :=
  match Json.lookupField? name fields with
  | some value => Validated.atField name (read value)
  | none => .ok default

/-- Read a field that must be there. -/
def requiredField {α : Type} (fields : List (Text × Json)) (name : String)
    (read : Json → Except IssueKind α) : Validated α :=
  match Json.lookupField? name fields with
  | some value => Validated.atField name (read value)
  | none => .error [⟨[Text.ofString name], .missing⟩]

def textListOr (fields : List (Text × Json)) (name : String) (default : List Text) :
    Validated (List Text) :=
  match Json.lookupField? name fields with
  | some value => textList name value
  | none => .ok default

def nullable {α : Type} (read : Json → Except IssueKind α) : Json → Except IssueKind (Option α)
  | .null => .ok none
  | value => (read value).map some

end HookAtlas.Validation
