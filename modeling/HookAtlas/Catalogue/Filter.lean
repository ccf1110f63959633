/-
# Filters of a listing

A filter is a conjunction of conditions on a row.  The conditions are built from a fixed vocabulary
and hold a placeholder where a value belongs; the values are kept apart, in the order of their
placeholders.  So no value can change what a condition says.

A search compares in lower case, one code point for one.  Absent and empty values add nothing, and a
search for white space adds nothing either.
-/

import HookAtlas.Catalogue.Like
import HookAtlas.Text.Blank
import HookAtlas.Text.LetterCase

namespace HookAtlas

inductive FilterColumn
  | hookType
  | sourceType
  | detectionMethod
deriving DecidableEq, Repr

namespace FilterColumn

def name : FilterColumn → Text
  | .hookType => "hook_type"
  | .sourceType => "source_type"
  | .detectionMethod => "detection_method"

end FilterColumn

/-- A condition with a placeholder: a pattern that the hook name matches, or a column that equals a value. -/
inductive FilterCondition
  | nameMatches
  | equals (column : FilterColumn)
deriving DecidableEq, Repr

def FilterCondition.text : FilterCondition → Text
  | .nameMatches => "hook_name ILIKE ? ESCAPE '\\'"
  | .equals column => column.name ++ Text.ofString " = ?"

/-- Conditions, all of which have to hold, and the values of their placeholders in order. -/
structure HookFilter where
  conditions : List FilterCondition
  params : List Text
deriving DecidableEq, Repr

/-- What a listing may be restricted by: a text that the hook name holds, in any case, or the value of a
column. -/
inductive FilterRequest
  | search (query : Option Text)
  | column (column : FilterColumn) (value : Option Text)
deriving DecidableEq, Repr

/-- The columns of a row that a filter looks at. -/
structure FilterSubject where
  hookName : Text
  value : FilterColumn → Text

inductive SortColumn
  | hookName
  | id
deriving DecidableEq, Repr

def SortColumn.name : SortColumn → Text
  | .hookName => "hook_name"
  | .id => "id"

namespace HookFilter

def empty : HookFilter :=
  ⟨[], []⟩

def push (filter : HookFilter) (condition : FilterCondition) (param : Text) : HookFilter :=
  ⟨filter.conditions ++ [condition], filter.params ++ [param]⟩

def add (filter : HookFilter) : FilterRequest → HookFilter
  | .search none => filter
  | .search (some query) =>
    if query.trim = [] then filter
    else filter.push .nameMatches (Like.containing query.trim)
  | .column _ none => filter
  | .column column (some value) => if value = [] then filter else filter.push (.equals column) value

/-- The filter of a list of requests. -/
def ofRequests (requests : List FilterRequest) : HookFilter :=
  requests.foldl add empty

def whereText (filter : HookFilter) : Text :=
  if filter.conditions = [] then Text.ofString "TRUE"
  else Text.join (Text.ofString " AND ") (filter.conditions.map FilterCondition.text)

/-- The order of every listing: by name, and rows of one name by their number. -/
def order : List SortColumn :=
  [.hookName, .id]

def orderText : Text :=
  Text.ofString "ORDER BY " ++
    Text.join (Text.ofString ", ") (order.map fun column => column.name ++ Text.ofString " ASC")

/-- Whether a condition with the value of its placeholder holds of a row. -/
def holds (condition : FilterCondition) (param : Text) (subject : FilterSubject) : Bool :=
  match condition with
  | .nameMatches => Like.matchesUnder CodePoint.lower param subject.hookName
  | .equals column => subject.value column = param

/-- Whether conditions hold of a row, each taking the next value. -/
def allHold : List FilterCondition → List Text → FilterSubject → Bool
  | [], _, _ => true
  | _ :: _, [], _ => false
  | condition :: conditions, param :: params, subject =>
    holds condition param subject && allHold conditions params subject

def accepts (filter : HookFilter) (subject : FilterSubject) : Bool :=
  allHold filter.conditions filter.params subject

end HookFilter

end HookAtlas
