/-
# What a record was read from

A record is read from an object only if every field is: the issues of all fields are reported together, and one of
them is enough for there to be no record.  `HookRecord.ReadFrom` names what was read for each field, so that facts
about one field of an accepted record need not go through the other eight.
-/

import HookAtlas.Hook.Record

namespace HookAtlas

namespace Validated

variable {α β : Type}

/-- A function is applied only where nothing is wrong with it or with its argument. -/
theorem apply_eq_ok {f : Validated (α → β)} {a : Validated α} {b : β} (happly : f.apply a = .ok b) :
    ∃ g x, f = .ok g ∧ a = .ok x ∧ g x = b := by
  cases f with
  | error issues => cases a <;> cases happly
  | ok g =>
      cases a with
      | error issues => cases happly
      | ok x => exact ⟨g, x, rfl, rfl, Except.ok.inj happly⟩

theorem atField_eq_ok {field : Text} {read : Except IssueKind α} {a : α}
    (hfield : atField field read = .ok a) : read = .ok a := by
  cases read with
  | error kind => cases hfield
  | ok x => rw [Except.ok.inj hfield]

end Validated

namespace Validation

variable {α : Type} {fields : List (Text × Json)} {name : String} {read : Json → Except IssueKind α}

theorem requiredField_cases {a : α} (hfield : requiredField fields name read = .ok a) :
    ∃ value, Json.lookupField? name fields = some value ∧ read value = .ok a := by
  rw [requiredField] at hfield
  split at hfield
  · next value hlookup => exact ⟨value, hlookup, Validated.atField_eq_ok hfield⟩
  · cases hfield

end Validation

namespace HookRecord

open Validation

/-- Every field of a record is what its field of the object was read as. -/
structure ReadFrom (now : Timestamp) (fields : List (Text × Json)) (record : HookRecord) : Prop where
  hookName : requiredField fields "hook_name" readText = .ok record.hookName
  hookType : fieldOr fields "hook_type" (member HookType.ofName? .enumMember) .unknown =
    .ok record.hookType
  filePath : fieldOr fields "file_path" (nullable readText) none = .ok record.filePath
  line : fieldOr fields "line" (nullable readLine) none = .ok record.line
  sourceType : fieldOr fields "source_type" (member SourceType.ofName? .enumMember) .unknown =
    .ok record.sourceType
  sourceName : fieldOr fields "source_name" readText .empty = .ok record.sourceName
  detectionMethod :
    fieldOr fields "detection_method" (member DetectionMethod.ofName? .enumMember) .static =
      .ok record.detectionMethod
  firstSeen : fieldOr fields "first_seen" timestamp now = .ok record.firstSeen
  lastSeen : fieldOr fields "last_seen" timestamp now = .ok record.lastSeen

/-- The fields are applied one after the other, so the last one is taken off first. -/
theorem readFrom_of_ofFields {now : Timestamp} {fields : List (Text × Json)} {record : HookRecord}
    (hread : ofFields now fields = .ok record) : ReadFrom now fields record := by
  rw [ofFields] at hread
  obtain ⟨_, lastSeen, h₈, hlastSeen, rfl⟩ := Validated.apply_eq_ok hread
  obtain ⟨_, firstSeen, h₇, hfirstSeen, rfl⟩ := Validated.apply_eq_ok h₈
  obtain ⟨_, detectionMethod, h₆, hdetectionMethod, rfl⟩ := Validated.apply_eq_ok h₇
  obtain ⟨_, sourceName, h₅, hsourceName, rfl⟩ := Validated.apply_eq_ok h₆
  obtain ⟨_, sourceType, h₄, hsourceType, rfl⟩ := Validated.apply_eq_ok h₅
  obtain ⟨_, line, h₃, hline, rfl⟩ := Validated.apply_eq_ok h₄
  obtain ⟨_, filePath, h₂, hfilePath, rfl⟩ := Validated.apply_eq_ok h₃
  obtain ⟨_, hookType, h₁, hhookType, rfl⟩ := Validated.apply_eq_ok h₂
  obtain ⟨_, hookName, h₀, hhookName, rfl⟩ := Validated.apply_eq_ok h₁
  cases h₀
  exact ⟨hhookName, hhookType, hfilePath, hline, hsourceType, hsourceName, hdetectionMethod,
    hfirstSeen, hlastSeen⟩

end HookRecord

end HookAtlas
