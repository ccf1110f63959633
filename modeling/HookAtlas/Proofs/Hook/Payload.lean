/-
# Records read back from a payload

A record that was written as a JSON object is read back with every field, and so is a list of records
that was written as the payload of a chunk.  The moments of a record are always written, so the clock
that the reader is given has no part in it.

A line can have more digits than a number is written with; then neither the record nor a payload with it is
written.  `HookRecord.isWritable` is true of all other records, those of a batch that can be made among them.
-/

import HookAtlas.Cache.Queue
import HookAtlas.Proofs.Hook.TimestampText
import HookAtlas.Proofs.Json.RoundTrip

namespace HookAtlas

/-! ## The readers of the fields -/

namespace Validation

/-- The name of a member is read back. -/
theorem member_name {α : Type} {ofName? : Text → Option α} {name : Text} {value : α}
    {kind : IssueKind} (hscalar : name.isScalar = true) (hread : ofName? name = some value) :
    member ofName? kind (.text name) = .ok value := by
  rw [member, spelled, if_pos hscalar, hread]
  rfl

/-- A field that is there and can be read is read, whatever the default. -/
theorem fieldOr_eq_ok {α : Type} {fields : List (Text × Json)} {name : String}
    {read : Json → Except IssueKind α} {default a : α} {value : Json}
    (hlookup : Json.lookupField? name fields = some value) (hread : read value = .ok a) :
    fieldOr fields name read default = .ok a := by
  rw [fieldOr, hlookup]
  exact congrArg (Validated.atField _) hread

theorem requiredField_eq_ok {α : Type} {fields : List (Text × Json)} {name : String}
    {read : Json → Except IssueKind α} {a : α} {value : Json}
    (hlookup : Json.lookupField? name fields = some value) (hread : read value = .ok a) :
    requiredField fields name read = .ok a := by
  rw [requiredField, hlookup]
  exact congrArg (Validated.atField _) hread

/-- A moment is read back from its ISO text. -/
theorem timestamp_isoText (t : Timestamp) : timestamp (.text t.isoText) = .ok t := by
  rw [timestamp, spelled, if_pos t.isScalar_isoText, momentOfText, t.ofText_isoText]

end Validation

theorem HookType.isScalar_name (value : HookType) : value.name.isScalar = true := by
  cases value with
  | action => decide
  | filter => decide
  | unknown => decide

theorem SourceType.isScalar_name (value : SourceType) : value.name.isScalar = true := by
  cases value with
  | core => decide
  | plugin => decide
  | theme => decide
  | unknown => rfl

theorem DetectionMethod.isScalar_name (value : DetectionMethod) : value.name.isScalar = true := by
  cases value with
  | static => decide
  | runtime => decide

namespace HookRecord

theorem readText_text (t : ScalarText) : readText (.text t.text) = .ok t := by
  rw [readText, Validation.text]
  exact congrArg Except.ok t.ofText_text

theorem nullable_readText (path : Option ScalarText) :
    Validation.nullable readText (path.elim .null fun path => .text path.text) = .ok path := by
  cases path with
  | none => rfl
  | some path =>
      rw [Option.elim_some, Validation.nullable, readText_text]
      · rfl
      · exact fun hnull => nomatch hnull

theorem nullable_readLine (line : Option Nat) :
    Validation.nullable readLine (line.elim .null fun line => .int (Int.ofNat line)) = .ok line := by
  cases line with
  | none => rfl
  | some line =>
      have hint : Validation.intAtLeast 0 (.int (Int.ofNat line)) = .ok (Int.ofNat line) := by
        rw [Validation.intAtLeast, Validation.int]
        exact if_pos (Int.natCast_nonneg line)
      rw [Option.elim_some, Validation.nullable, readLine, hint]
      · rfl
      · exact fun hnull => nomatch hnull

/-! ## Records -/

/-- A record is read back from its JSON object. -/
theorem ofJson_toJson (now : Timestamp) (record : HookRecord) :
    ofJson now record.toJson = .ok record := by
  show ofFields now record.toFields = .ok record
  rw [ofFields,
    Validation.requiredField_eq_ok rfl (readText_text record.hookName),
    Validation.fieldOr_eq_ok rfl
      (Validation.member_name record.hookType.isScalar_name record.hookType.ofName?_name),
    Validation.fieldOr_eq_ok rfl (nullable_readText record.filePath),
    Validation.fieldOr_eq_ok rfl (nullable_readLine record.line),
    Validation.fieldOr_eq_ok rfl
      (Validation.member_name record.sourceType.isScalar_name record.sourceType.ofName?_name),
    Validation.fieldOr_eq_ok rfl (readText_text record.sourceName),
    Validation.fieldOr_eq_ok rfl
      (Validation.member_name record.detectionMethod.isScalar_name
        record.detectionMethod.ofName?_name),
    Validation.fieldOr_eq_ok rfl (Validation.timestamp_isoText record.firstSeen),
    Validation.fieldOr_eq_ok rfl (Validation.timestamp_isoText record.lastSeen)]
  rfl

/-- Whether the line of a record has no more digits than a number is written with. -/
def isWritable (record : HookRecord) : Bool :=
  record.line.all fun line => line < Nat.pow 10 Number.maxDigits

theorem isWritable_iff (record : HookRecord) :
    record.isWritable = true ↔ ∀ line, record.line = some line → line < Nat.pow 10 Number.maxDigits := by
  simp only [isWritable, Option.all_eq_true, decide_eq_true_eq]

/-- The line is the only number of a record. -/
theorem hasLongNumber_toJson (record : HookRecord) :
    record.toJson.hasLongNumber Number.maxDigits = !record.isWritable := by
  have hpath : (record.filePath.elim Json.null fun path => .text path.text).hasLongNumber
      Number.maxDigits = false := by
    cases record.filePath with
    | none => rfl
    | some path => rfl
  have hline : (record.line.elim Json.null fun line => .int (Int.ofNat line)).hasLongNumber
      Number.maxDigits = !record.isWritable := by
    rw [isWritable]
    cases record.line with
    | none => rfl
    | some line =>
        rw [Option.elim_some, Json.hasLongNumber, Option.all_some, ← decide_not]
        exact decide_eq_decide.mpr Nat.not_lt.symm
  simp only [toJson, toFields, Json.hasLongNumber, Json.fieldsHaveLongNumber, hpath, hline,
    Bool.false_or, Bool.or_false]

/-- The JSON object of a record comes back from its text. -/
theorem isExact_toJson {record : HookRecord} (hwritable : record.isWritable = true) :
    record.toJson.IsExact := by
  have hnames : (record.toFields.map Prod.fst).Nodup := by
    show ([Text.ofString "hook_name", Text.ofString "hook_type", Text.ofString "file_path",
      Text.ofString "line", Text.ofString "source_type", Text.ofString "source_name",
      Text.ofString "detection_method", Text.ofString "first_seen",
      Text.ofString "last_seen"] : List Text).Nodup
    decide
  have hpath : Json.IsExact (record.filePath.elim .null fun path => .text path.text) := by
    cases record.filePath with
    | none => trivial
    | some path => exact path.isScalar
  have hline : Json.IsExact (record.line.elim .null fun line => .int (Int.ofNat line)) := by
    rw [isWritable] at hwritable
    cases hrecord : record.line with
    | none => trivial
    | some line =>
        rw [hrecord, Option.all_some] at hwritable
        have hshort : line < Nat.pow 10 Number.maxDigits := of_decide_eq_true hwritable
        exact hshort
  refine ⟨hnames, by decide, record.hookName.isScalar, by decide, record.hookType.isScalar_name,
    by decide, hpath, by decide, hline, by decide, record.sourceType.isScalar_name, by decide,
    record.sourceName.isScalar, by decide, record.detectionMethod.isScalar_name, by decide,
    record.firstSeen.isScalar_isoText, by decide, record.lastSeen.isScalar_isoText, trivial⟩

end HookRecord

/-! ## Chunks -/

namespace QueueChunk

theorem readRecords_toJson (records : List HookRecord) :
    readRecords (records.map HookRecord.toJson) = .ok records := by
  induction records with
  | nil => rfl
  | cons record records ih =>
      rw [List.map_cons, readRecords, record.ofJson_toJson, ih]
      rfl

theorem areExact_toJson {records : List HookRecord}
    (hwritable : ∀ record ∈ records, record.isWritable = true) :
    Json.AreExact (records.map HookRecord.toJson) := by
  induction records with
  | nil => trivial
  | cons record records ih =>
      obtain ⟨hfirst, hothers⟩ := List.forall_mem_cons.mp hwritable
      exact ⟨HookRecord.isExact_toJson hfirst, ih hothers⟩

theorem itemsHaveLongNumber_toJson (records : List HookRecord) :
    Json.itemsHaveLongNumber Number.maxDigits (records.map HookRecord.toJson) =
      !records.all HookRecord.isWritable := by
  induction records with
  | nil => rfl
  | cons record records ih =>
      rw [List.map_cons, Json.itemsHaveLongNumber, record.hasLongNumber_toJson, ih, List.all_cons,
        Bool.not_and]

/-- A payload is written exactly where all of its records are. -/
theorem payload?_eq_some_iff {records : List HookRecord} {payload : Text} :
    payload? records = some payload ↔
      (∀ record ∈ records, record.isWritable = true) ∧
        payload = (Json.list (records.map HookRecord.toJson)).print := by
  rw [payload?, Json.print?, Json.hasLongNumber, itemsHaveLongNumber_toJson, ← List.all_eq_true]
  cases records.all HookRecord.isWritable with
  | false => exact iff_of_false (Option.some_ne_none _).symm (by rintro ⟨⟨⟩, -⟩)
  | true => exact ⟨fun hsome => ⟨rfl, (Option.some.inj hsome).symm⟩, fun hall => congrArg some hall.2.symm⟩

theorem payload?_eq_none_iff {records : List HookRecord} :
    payload? records = none ↔ ∃ record ∈ records, record.isWritable = false := by
  rw [payload?, Json.print?, Json.hasLongNumber, itemsHaveLongNumber_toJson]
  simp

/-- The records of a chunk are read back from its payload. -/
theorem records_of_payload? {records : List HookRecord} {payload : Text}
    (hpayload : payload? records = some payload) (id : Nat) (generation : Text) :
    QueueChunk.records ⟨id, generation, payload⟩ = .ok records := by
  obtain ⟨hwritable, rfl⟩ := payload?_eq_some_iff.mp hpayload
  have hexact : Json.IsExact (.list (records.map HookRecord.toJson)) := areExact_toJson hwritable
  rw [QueueChunk.records, Json.parse?_print hexact]
  exact readRecords_toJson records

/-! ## Batches and payloads -/

theorem batchLimit_le (records : List HookRecord) :
    Store.batchLimit records ≤ Nat.pow 10 Number.maxDigits := by
  apply Nat.le_of_lt
  rw [Store.batchLimit]
  split
  · exact Number.lt_pow_maxDigits (by decide)
  · exact Number.lt_pow_maxDigits (by decide)

/-- Each record of a batch can be written. -/
theorem isWritable_of_fitsBatch {records : List HookRecord} (hfits : Store.fitsBatch records = true)
    {record : HookRecord} (hmem : record ∈ records) : record.isWritable = true := by
  rw [HookRecord.isWritable_iff]
  intro line hline
  have hlimit := (Option.all_eq_true _ _).mp (List.all_eq_true.mp hfits record hmem) line hline
  exact Nat.lt_of_lt_of_le (of_decide_eq_true hlimit) (batchLimit_le records)

theorem exists_payload?_of_fitsBatch {records : List HookRecord}
    (hfits : Store.fitsBatch records = true) : ∃ payload, payload? records = some payload :=
  ⟨_, payload?_eq_some_iff.mpr ⟨fun _ hmem => isWritable_of_fitsBatch hfits hmem, rfl⟩⟩

end QueueChunk

end HookAtlas
