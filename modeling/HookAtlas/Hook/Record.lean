/-
# Hook records

A record is one observed occurrence of a hook: a call in a source file or a dispatch at run time.
Nothing is unique about it; the same name occurs once per place or per sampled dispatch.

Records come from outside as JSON objects.  Fields that are missing have defaults, except the name;
text fields are freed of surrogates when they are read, so every text of a record is well-formed.  A
moment that is missing is the time of the clock, which must show one then.
-/

import HookAtlas.Hook.Clock
import HookAtlas.Hook.Kind
import HookAtlas.Text.Scrub
import HookAtlas.Validation.Field

namespace HookAtlas

/-- One observed occurrence of a hook: its name, the file and the line where those are known, and the part of
the site that the file belongs to. -/
structure HookRecord where
  hookName : ScalarText
  hookType : HookType
  filePath : Option ScalarText
  line : Option Nat
  sourceType : SourceType
  sourceName : ScalarText
  detectionMethod : DetectionMethod
  firstSeen : Timestamp
  lastSeen : Timestamp
deriving DecidableEq, Repr

structure HookEntry extends HookRecord where
  id : Int
deriving DecidableEq, Repr

namespace HookRecord

def readText (value : Json) : Except IssueKind ScalarText :=
  (Validation.text value).map ScalarText.ofText

def readLine (value : Json) : Except IssueKind Nat :=
  (Validation.intAtLeast 0 value).map Int.toNat

/-- Read a record from the fields of an object.  Moments that are missing are the given one. -/
def ofFields (now : Timestamp) (fields : List (Text × Json)) : Validated HookRecord :=
  Validated.value HookRecord.mk
    |>.apply (Validation.requiredField fields "hook_name" readText)
    |>.apply (Validation.fieldOr fields "hook_type" (Validation.member HookType.ofName? .enumMember) .unknown)
    |>.apply (Validation.fieldOr fields "file_path" (Validation.nullable readText) none)
    |>.apply (Validation.fieldOr fields "line" (Validation.nullable readLine) none)
    |>.apply
      (Validation.fieldOr fields "source_type" (Validation.member SourceType.ofName? .enumMember) .unknown)
    |>.apply (Validation.fieldOr fields "source_name" readText .empty)
    |>.apply
      (Validation.fieldOr fields "detection_method" (Validation.member DetectionMethod.ofName? .enumMember)
        .static)
    |>.apply (Validation.fieldOr fields "first_seen" Validation.timestamp now)
    |>.apply (Validation.fieldOr fields "last_seen" Validation.timestamp now)

/-- Read a record from a JSON object.  Moments that are missing are the given one. -/
def ofJson (now : Timestamp) (value : Json) : Validated HookRecord :=
  ofFields now value.fields

/-- Whether a JSON object leaves a moment to the clock. -/
def lacksMoment (value : Json) : Bool :=
  (value.field? "first_seen").isNone || (value.field? "last_seen").isNone

/-- Why a JSON object is no record: a moment is missing and the clock shows none, or fields break rules. -/
inductive ReadError
  | clock (error : ClockError)
  | invalid (issues : List Issue)

/-- Read a record from a JSON object by a clock, which is only asked where a moment is missing. -/
def readAt (clock : Except ClockError Timestamp) (value : Json) : Except ReadError HookRecord :=
  match clock, lacksMoment value with
  | .error error, true => .error (.clock error)
  | clock, _ => (ofJson (clock.toOption.getD .epoch) value).mapError .invalid

/-- A record as a row of the store keeps it. -/
def stored (record : HookRecord) : HookRecord :=
  { record with firstSeen := record.firstSeen.stored, lastSeen := record.lastSeen.stored }

def toFields (record : HookRecord) : List (Text × Json) :=
  [("hook_name", .text record.hookName.text),
    ("hook_type", .text record.hookType.name),
    ("file_path", record.filePath.elim .null fun path => .text path.text),
    ("line", record.line.elim .null fun line => .int (Int.ofNat line)),
    ("source_type", .text record.sourceType.name),
    ("source_name", .text record.sourceName.text),
    ("detection_method", .text record.detectionMethod.name),
    ("first_seen", .text record.firstSeen.isoText),
    ("last_seen", .text record.lastSeen.isoText)]

def toJson (record : HookRecord) : Json :=
  .object record.toFields

end HookRecord

namespace HookEntry

def ofJson (now : Timestamp) (value : Json) : Validated HookEntry :=
  Validated.value HookEntry.mk
    |>.apply (HookRecord.ofJson now value)
    |>.apply (Validation.requiredField value.fields "id" Validation.int)

def toJson (entry : HookEntry) : Json :=
  .object (entry.toHookRecord.toFields ++ [(Text.ofString "id", .int entry.id)])

end HookEntry

end HookAtlas
