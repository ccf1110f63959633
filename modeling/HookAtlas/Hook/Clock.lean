/-
# The clock

A clock counts seconds from the start of the year 1970 as a double.  It shows a moment only within the
years 1 to 9999; outside of them whoever asks for the time gets an error.
-/

import HookAtlas.Hook.Timestamp
import HookAtlas.Number.Binary64

namespace HookAtlas

/-- Why a clock shows no time.  A moment needs a year of the calendar, of 32 bits and from a count of seconds of
64 bits; a whole count of seconds needs a number that is finite. -/
inductive ClockError
  | yearOutOfRange (year : Int)
  | yearTooLong
  | countTooLong
  | notANumber
  | infiniteCount
  | notAWholeNumber
deriving DecidableEq, Repr

def ClockError.message : ClockError → Text
  | .yearOutOfRange year =>
    Text.ofString "year " ++ Number.intText year ++ Text.ofString " is out of range"
  | .yearTooLong => "[Errno 75] Value too large for defined data type"
  | .countTooLong => "timestamp out of range for platform time_t"
  | .notANumber => "Invalid value NaN (not a number)"
  | .infiniteCount => "cannot convert float infinity to integer"
  | .notAWholeNumber => "cannot convert float NaN to integer"

namespace Clock

/-- The part of a double behind its point in whole millionths, a half going to the even neighbour; it
has the sign of the double. -/
def millionths (clock : Float) : Int :=
  -- The integer part of a double is a double itself, so nothing is rounded here.
  let whole := Number.nearestFloatOfInt ((Number.truncate? clock).getD 0)
  match Number.Binary64.ofFloat ((clock - whole) * 1000000.0) with
  | .finite negative m =>
    let (num, den) := m.ratio
    let count : Int := Int.ofNat (Number.roundHalfEven num den)
    if negative then -count else count
  | _ => 0

/-- Whole seconds, and the microseconds after them, of seconds and millionths that may be negative or
fill up a second. -/
def carry (seconds millionths : Int) : Int × Nat :=
  if 1000000 ≤ millionths then (seconds + 1, (millionths - 1000000).toNat)
  else if millionths < 0 then (seconds - 1, (millionths + 1000000).toNat)
  else (seconds, millionths.toNat)

/-- The moment that a count of seconds and microseconds shows. -/
def momentOf (seconds : Int) (micro : Nat) : Except ClockError Timestamp :=
  let year := Timestamp.yearOfSecond seconds
  if seconds < -Int.pow 2 63 ∨ Int.pow 2 63 ≤ seconds then .error .countTooLong
  else if year - 1900 < -Int.pow 2 31 ∨ Int.pow 2 31 ≤ year - 1900 then .error .yearTooLong
  else
    match Timestamp.ofUnix? seconds micro none with
    | some moment => .ok moment
    | none => .error (.yearOutOfRange year)

/-- The moment that a clock shows, as the store keeps it. -/
def now (clock : Float) : Except ClockError Timestamp :=
  match Number.truncate? clock with
  | none => .error (if clock.isNaN then .notANumber else .countTooLong)
  | some whole =>
    let (seconds, micro) := carry whole (millionths clock)
    momentOf seconds micro

def wholeSeconds (clock : Float) : Except ClockError Int :=
  match Number.truncate? clock with
  | none => .error (if clock.isNaN then .notAWholeNumber else .infiniteCount)
  | some seconds => .ok seconds

end Clock

end HookAtlas
