/-
# Reading the catalogue

A listing is one page of the rows that a filter accepts, in the order of their names and, for one
name, of their numbers.  Statistics count all rows by type and by source.  Both read the store and
change nothing.
-/

import HookAtlas.Catalogue.Filter
import HookAtlas.Number.Decimal
import HookAtlas.Store.Basic
import HookAtlas.Text.Digit
import HookAtlas.Text.Quoted

namespace HookAtlas

namespace CacheRow

def subject (row : CacheRow) : FilterSubject where
  hookName := row.record.hookName.text
  value
    | .hookType => row.record.hookType.name
    | .sourceType => row.record.sourceType.name
    | .detectionMethod => row.record.detectionMethod.name

def toEntry (row : CacheRow) : HookEntry :=
  { row.record with id := Int.ofNat row.id }

/-- Whether a row may stand before another one in the order of some columns, of which the first one counts
most. -/
def comesBefore : List SortColumn → CacheRow → CacheRow → Bool
  | [], _, _ => true
  | .hookName :: columns, first, second =>
    if first.record.hookName = second.record.hookName then comesBefore columns first second
    else Text.le first.record.hookName.text second.record.hookName.text
  | .id :: columns, first, second =>
    if first.id = second.id then comesBefore columns first second else first.id ≤ second.id

def listedBefore (first second : CacheRow) : Bool :=
  comesBefore HookFilter.order first second

/-- Rows are listed by name, and rows of one name by number. -/
theorem listedBefore_eq (first second : CacheRow) :
    first.listedBefore second =
      if first.record.hookName = second.record.hookName then decide (first.id ≤ second.id)
      else Text.le first.record.hookName.text second.record.hookName.text := by
  simp only [listedBefore, HookFilter.order, comesBefore]
  by_cases hid : first.id = second.id
  · rw [if_pos hid, decide_eq_true (Nat.le_of_eq hid)]
  · rw [if_neg hid]

end CacheRow

/-- The page that is asked for: its number, from one, and how many rows are on a page. -/
structure PageRequest where
  page : Int
  perPage : Int
deriving DecidableEq, Repr

namespace PageRequest

def maxPage : Int :=
  1000000000

def maxPerPage : Int :=
  200

def defaultPerPage : Int :=
  50

/-- Bring both numbers into their bounds. -/
def clamp (request : PageRequest) : PageRequest :=
  ⟨min maxPage (max 1 request.page), min maxPerPage (max 1 request.perPage)⟩

def offset (request : PageRequest) : Int :=
  (request.page - 1) * request.perPage

end PageRequest

/-- One page of a listing, with the number of rows on all pages. -/
structure HookPage where
  total : Nat
  page : Int
  perPage : Int
  items : List HookEntry
deriving DecidableEq, Repr

/-- Counts of all rows and the time of the last scan in seconds from the start of the year 1970; zero without
one. -/
structure HookStats where
  total : Nat
  byType : List (Text × Nat)
  bySource : List (Text × Nat)
  lastScan : Int
deriving DecidableEq, Repr

def lastScanOption : Text :=
  "last_scan"

/-- Why statistics cannot be given: a statement fails, or the time of the last scan is no number or has too
many digits. -/
inductive StatsError
  | store (error : StoreError)
  | invalidTime (text : Text)
  | overlongTime (digits : Nat)
deriving DecidableEq, Repr

namespace StatsError

/-- The greatest length of a quoted time in a message. -/
def maxQuoted : Nat :=
  200

def message : StatsError → Text
  | .store _ => []
  | .invalidTime text =>
    Text.ofString "invalid literal for int() with base 10: " ++ text.quoted.take maxQuoted
  | .overlongTime digits =>
    Text.ofString "Exceeds the limit (" ++ Number.natText Number.maxDigits ++
      Text.ofString " digits) for integer string conversion: value has " ++ Number.natText digits ++
      Text.ofString " digits; use sys.set_int_max_str_digits() to increase the limit"

end StatsError

/-- What is wrong with the text of a whole number: it is none, or it has so many digits, which are too
many. -/
inductive DigitFault
  | malformed
  | overlong (digits : Nat)

/-- Read a number in the digits of any script, with single underscores between them.  A run of too
many digits is noticed before what follows it. -/
def unicodeNat (t : Text) : Except DigitFault Nat :=
  let run := t.takeWhile fun c : CodePoint => c.decimalValue?.isSome || c = '_'
  let digits := run.filterMap CodePoint.decimalValue?
  if Number.hasStrayUnderscore run || digits.isEmpty then .error .malformed
  else if Number.maxDigits < digits.length then .error (.overlong digits.length)
  else if run.length < t.length then .error .malformed
  else .ok (Number.ofDigits 10 digits)

/-- Read a whole number with white space around it and one sign.  The information separators are no
white space here. -/
def unicodeInt (t : Text) : Except DigitFault Int :=
  match t.strip CodePoint.isUnicodeSpace with
  | [] => .error .malformed
  | c :: cs =>
    if c = '-' then (unicodeNat cs).map fun n => -(Int.ofNat n)
    else if c = '+' then (unicodeNat cs).map Int.ofNat
    else (unicodeNat (c :: cs)).map Int.ofNat

/-- The time that an option holds; without a value it is zero. -/
def scanTimeOf (value : Option Text) : Except StatsError Int :=
  match value with
  | none => .ok 0
  | some t =>
    if t = [] then .ok 0
    else
      (unicodeInt t).mapError fun fault =>
        match fault with
        | .malformed => .invalidTime t
        | .overlong digits => .overlongTime digits

namespace Store

def listedRows (store : Store) : Except StoreError (List CacheRow) :=
  store.allRows.map fun rows => rows.mergeSort CacheRow.listedBefore

def rowsMatching (filter : HookFilter) (rows : List CacheRow) : List CacheRow :=
  rows.filter fun row => filter.accepts row.subject

/-- One page of the rows that a filter accepts. -/
def listHooks (requests : List FilterRequest) (request : PageRequest) (store : Store) :
    Except StoreError HookPage :=
  let filter := HookFilter.ofRequests requests
  let request := request.clamp
  match store.allRows with
  | .error error => .error error
  | .ok rows =>
    let total := (rowsMatching filter rows).length
    let listed := (rowsMatching filter rows).mergeSort CacheRow.listedBefore
    let items := (listed.drop request.offset.toNat).take request.perPage.toNat
    .ok ⟨total, request.page, request.perPage, items.map CacheRow.toEntry⟩

/-- How often each text occurs in a list, for the texts that occur in it, in their order. -/
def countsOf (names : List Text) : List (Text × Nat) :=
  (names.mergeSort Text.le).eraseReps.map fun name => (name, names.count name)

def stats (store : Store) : Except StatsError HookStats :=
  match store.allRows with
  | .error error => .error (.store error)
  | .ok rows =>
    match store.getOption lastScanOption (some (Text.mark '0')) with
    | .error error => .error (.store error)
    | .ok value =>
      (scanTimeOf value).map fun lastScan =>
        ⟨rows.length, countsOf (rows.map fun row => row.record.hookType.name),
          countsOf (rows.map fun row => row.record.sourceType.name), lastScan⟩

end Store

end HookAtlas
