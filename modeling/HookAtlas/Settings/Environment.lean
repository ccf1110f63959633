/-
# Settings from environment variables

A variable named for a field, with a fixed start and in any case, sets the field.  A field that holds
a list is written in JSON, where null stands for the default; text that is no JSON, has a whole number
with too many digits in it or is nested too deep is refused before any field is validated.
-/

import HookAtlas.Json.Depth
import HookAtlas.Settings.Basic
import HookAtlas.Text.LetterCase

namespace HookAtlas

/-- Why environment variables give no settings: the variable of a list field holds no JSON, or JSON that is
nested too deep, in an object at last or not, or fields break rules. -/
inductive EnvironmentError
  | unreadable (field : Text)
  | tooDeep (inObject : Bool)
  | invalid (issues : List Issue)

def EnvironmentError.message : EnvironmentError → Text
  | .unreadable field =>
    Text.ofString "error parsing value for field \"" ++ field ++
      Text.ofString "\" from source \"EnvSettingsSource\""
  | .tooDeep inObject =>
    Text.ofString "maximum recursion depth exceeded while decoding a JSON " ++
      Text.ofString (if inObject then "object" else "array") ++
      Text.ofString " from a unicode string"
  | .invalid _ => []

namespace Settings

/-- What the names of all variables start with, in lower case. -/
def variablePrefix : Text :=
  "hook_directory_"

/-- The value of the variable of a field; of several the last one counts. -/
def valueInEnvironment? (environment : List (Text × Text)) (field : String) : Option Text :=
  (environment.reverse.find? fun entry =>
    entry.1.lower = variablePrefix ++ Text.ofString field).map Prod.snd

/-- How deep the JSON of a variable may be nested. -/
def maxNesting : Nat :=
  984

def jsonOfVariable (field : String) (value : Text) : Except EnvironmentError Json :=
  let deep? := (Json.findDeep? maxNesting [] false false [] value).filter fun bracket =>
    bracket.value?.isSome
  match deep?, Json.parse? value with
  | some bracket, _ => .error (.tooDeep (bracket.opened.head? = some ('{' : CodePoint)))
  | none, none => .error (.unreadable field)
  | none, some json => .ok json

def fieldsOfEnvironment (environment : List (Text × Text)) :
    List String → Except EnvironmentError (List (Text × Json))
  | [] => .ok []
  | field :: fields =>
    match valueInEnvironment? environment field with
    | none => fieldsOfEnvironment environment fields
    | some value =>
      if field ∈ listFieldNames then
        match jsonOfVariable field value with
        | .error error => .error error
        | .ok .null => fieldsOfEnvironment environment fields
        | .ok json =>
          (fieldsOfEnvironment environment fields).map fun rest => (Text.ofString field, json) :: rest
      else
        (fieldsOfEnvironment environment fields).map fun rest =>
          (Text.ofString field, .text value) :: rest

/-- Read the settings from environment variables. -/
def ofEnvironment (environment : List (Text × Text)) : Except EnvironmentError Settings :=
  match fieldsOfEnvironment environment fieldNames with
  | .error error => .error error
  | .ok fields =>
    match ofFields fields with
    | .ok settings => .ok settings
    | .error issues => .error (.invalid issues)

end Settings

end HookAtlas
