/-
# Reading single values leniently

A field that wants a number or a flag also takes a text that spells one.  Each reader here says which
values it takes and which rule any other value breaks.  A text field takes any text; where a text
stands for something else it must be free of surrogates.
-/

import HookAtlas.Hook.TimestampText
import HookAtlas.Json.Basic
import HookAtlas.Validation.NumberText

namespace HookAtlas.Validation

def text : Json → Except IssueKind Text
  | .text t => .ok t
  | _ => .error .stringType

def spelled {α : Type} (read : Text → Except IssueKind α) (t : Text) : Except IssueKind α :=
  if t.isScalar then read t else .error .stringUnicode

/-- The whole number of a double, which must be finite, without a fraction and of 64 bits. -/
def intOfFloat (x : Float) : Except IssueKind Int :=
  match Number.truncate? x with
  | none => .error .finiteNumber
  | some n =>
    if !Number.isWhole x then .error .intFromFloat
    else if -Int.pow 2 63 < n ∧ n < Int.pow 2 63 then .ok n
    else .error .intParsingSize

def int : Json → Except IssueKind Int
  | .int n => .ok n
  | .bool b => .ok (if b then 1 else 0)
  | .float x => intOfFloat x
  | .text t => spelled intOfText t
  | _ => .error .intType

/-- Read a whole number that is not below a bound. -/
def intAtLeast (bound : Int) (value : Json) : Except IssueKind Int :=
  match int value with
  | .ok n => if bound ≤ n then .ok n else .error .greaterThanEqual
  | .error kind => .error kind

/-- Read a flag from a text, in any case and without white space around it. -/
def boolOfText (t : Text) : Except IssueKind Bool :=
  let word := t.map CodePoint.asciiLower
  let spells (words : List String) : Bool := words.any fun w => Text.ofString w = word
  if spells ["1", "on", "t", "true", "y", "yes"] then .ok true
  else if spells ["0", "off", "f", "false", "n", "no"] then .ok false
  else .error .boolParsing

/-- Read a flag from a whole number: of those of 64 bits zero and one spell a flag. -/
def boolOfInt (n : Int) : Except IssueKind Bool :=
  if n = 0 then .ok false
  else if n = 1 then .ok true
  else if -Int.pow 2 63 ≤ n ∧ n < Int.pow 2 63 then .error .boolParsing
  else .error .boolType

/-- Read a flag from a double, which must be a whole number that a flag can be read from. -/
def boolOfFloat (x : Float) : Except IssueKind Bool :=
  match intOfFloat x with
  | .ok n => boolOfInt n
  | .error _ => .error .boolType

def bool : Json → Except IssueKind Bool
  | .bool b => .ok b
  | .int n => boolOfInt n
  | .float x => boolOfFloat x
  | .text t => spelled boolOfText t
  | _ => .error .boolType

def float : Json → Except IssueKind Float
  | .float x => .ok x
  | .int n =>
    let x := Number.nearestFloatOfInt n
    if Number.isInfinite x then .error .floatType else .ok x
  | .bool b => .ok (if b then 1.0 else 0.0)
  | .text t => spelled floatOfText t
  | _ => .error .floatType

/-- Read a double that is not below zero; what is not a number is refused too. -/
def floatAtLeastZero (value : Json) : Except IssueKind Float :=
  match float value with
  | .ok x => if x ≥ 0.0 then .ok x else .error .greaterThanEqual
  | .error kind => .error kind

/-- Read a member of an enumeration by its name. -/
def member {α : Type} (ofName? : Text → Option α) (kind : IssueKind) :
    Json → Except IssueKind α
  | .text t => spelled (fun name => (ofName? name).elim (.error kind) .ok) t
  | _ => .error kind

/-! ## Moments -/

/-- The greatest number that counts seconds; a number beyond it, or below its negative, counts
milliseconds. -/
def greatestSecondCount : Int :=
  20000000000

/-- A count that leads to a year before or after those of the calendar. -/
inductive CountFault
  | yearZero
  | outside

/-- The moment so many seconds and microseconds after the start of the year 1970, which is UTC. -/
def momentOfSeconds (seconds : Int) (micro : Nat) : Except CountFault Timestamp :=
  match Timestamp.ofUnix? seconds micro (some 0) with
  | some moment => .ok moment
  | none => .error (if Timestamp.yearOfSecond seconds = 0 then .yearZero else .outside)

def momentOfInt (n : Int) : Except CountFault Timestamp :=
  if -greatestSecondCount ≤ n ∧ n ≤ greatestSecondCount then momentOfSeconds n 0
  else
    let seconds := Int.fdiv n 1000
    momentOfSeconds seconds ((n - seconds * 1000).toNat * 1000)

/-- The moment of a number of seconds or milliseconds.  Half a microsecond counts as a whole one. -/
def momentOfFloat (x : Float) : Except CountFault Timestamp :=
  let bound := Number.nearestFloatOfInt greatestSecondCount
  let seconds := if -bound ≤ x ∧ x ≤ bound then x else x / 1000.0
  let whole := seconds.floor
  match Number.truncate? whole, Number.Binary64.ofFloat ((seconds - whole) * 1000000.0) with
  | some count, .finite _ m =>
    let (num, den) := m.ratio
    let micro := Number.roundHalfUp num den
    if micro < 1000000 then momentOfSeconds count micro
    else momentOfSeconds (count + 1) (micro - 1000000)
  | _, _ => .error .outside

def momentOfCount : Count → Except CountFault Timestamp
  | .whole n => momentOfInt n
  | .fractional x => momentOfFloat x

def momentOfCountText (t : Text) : Except IssueKind Timestamp :=
  match countOfText? t with
  | none => .error .datetimeFromDateParsing
  | some count =>
    match momentOfCount count with
    | .ok moment => .ok moment
    | .error .yearZero => .error .datetimeParsing
    | .error .outside => .error .datetimeFromDateParsing

/-- Read a moment from a text: an ISO text, or a count. -/
def momentOfText (t : Text) : Except IssueKind Timestamp :=
  match Timestamp.ofText t with
  | .ok moment => .ok moment
  | .error .yearZero => .error .datetimeParsing
  | .error .malformed => momentOfCountText t

/-- Read a moment: a text, or a number of seconds or milliseconds from the start of the year 1970. -/
def timestamp : Json → Except IssueKind Timestamp
  | .text t => spelled momentOfText t
  | .int n =>
    if Number.isInfinite (Number.nearestFloatOfInt n) then .error .datetimeType
    else (momentOfInt n).mapError fun _ => .datetimeParsing
  | .float x => (momentOfFloat x).mapError fun _ => .datetimeParsing
  | _ => .error .datetimeType

/-! ## Lists -/

/-- Read a list of texts; every item that is no text is reported with its position. -/
def textList (field : Text) : Json → Validated (List Text)
  | .list items =>
    let issues := items.zipIdx.filterMap fun (item, index) =>
      match text item with
      | .ok _ => none
      | .error kind => some ⟨[field, Number.natText index], kind⟩
    if issues = [] then .ok (items.filterMap Json.text?) else .error issues
  | _ => .error [⟨[field], .listType⟩]

end HookAtlas.Validation
