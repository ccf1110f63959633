/-
# Validation issues

Input from outside is validated field by field.  An issue names the place and the rule that is
broken; all issues are reported together, in the order of the fields.
-/

import HookAtlas.Text.CodePoint

namespace HookAtlas

/-- The rules that a value can break. -/
inductive IssueKind
  | missing
  | stringType
  | stringUnicode
  | pathType
  | listType
  | intType
  | intParsing
  | intFromFloat
  | intParsingSize
  | finiteNumber
  | floatType
  | floatParsing
  | boolType
  | boolParsing
  | enumMember
  | literalMember
  | greaterThanEqual
  | datetimeType
  | datetimeParsing
  | datetimeFromDateParsing
  | frozenInstance
deriving DecidableEq, Repr

def IssueKind.name : IssueKind → Text
  | .missing => "missing"
  | .stringType => "string_type"
  | .stringUnicode => "string_unicode"
  | .pathType => "path_type"
  | .listType => "list_type"
  | .intType => "int_type"
  | .intParsing => "int_parsing"
  | .intFromFloat => "int_from_float"
  | .intParsingSize => "int_parsing_size"
  | .finiteNumber => "finite_number"
  | .floatType => "float_type"
  | .floatParsing => "float_parsing"
  | .boolType => "bool_type"
  | .boolParsing => "bool_parsing"
  | .enumMember => "enum"
  | .literalMember => "literal_error"
  | .greaterThanEqual => "greater_than_equal"
  | .datetimeType => "datetime_type"
  | .datetimeParsing => "datetime_parsing"
  | .datetimeFromDateParsing => "datetime_from_date_parsing"
  | .frozenInstance => "frozen_instance"

/-- A broken rule and its place: the field, and the position in a list where the field holds one. -/
structure Issue where
  place : List Text
  kind : IssueKind
deriving DecidableEq, Repr

/-- A value, or everything that is wrong with it. -/
abbrev Validated (α : Type) := Except (List Issue) α

namespace Validated

def value {α : Type} (a : α) : Validated α :=
  .ok a

/-- Apply a validated function to a validated value, keeping the issues of both. -/
def apply {α β : Type} : Validated (α → β) → Validated α → Validated β
  | .ok f, .ok a => .ok (f a)
  | .ok _, .error issues => .error issues
  | .error issues, .ok _ => .error issues
  | .error first, .error second => .error (first ++ second)

/-- Report a broken rule at a field. -/
def atField {α : Type} (field : Text) : Except IssueKind α → Validated α
  | .ok a => .ok a
  | .error kind => .error [⟨[field], kind⟩]

end Validated

end HookAtlas
