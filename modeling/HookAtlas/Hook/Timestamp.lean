/-
# Timestamps

A moment as calendar fields down to the microsecond, with its distance from UTC where that is known.
The columns of the store have no place for that distance: the session of the store is in UTC, so a moment
with a distance is kept as the UTC time that it stands for, and one without as it is.  Written, a moment
is an ISO text: the fraction has six digits and is left out when it is zero, and UTC is marked by a `Z`.
Every moment of the type is a valid date and time.
-/

import HookAtlas.Hook.Calendar
import HookAtlas.Number.Decimal

namespace HookAtlas

/-- Calendar fields of a moment.  Month and day count from one; `offset` is the number of minutes that the clock
is ahead of UTC, where that is known. -/
structure TimestampFields where
  year : Nat
  month : Nat
  day : Nat
  hour : Nat
  minute : Nat
  second : Nat
  micro : Nat
  offset : Option Int
deriving DecidableEq, Repr

namespace TimestampFields

def minutesPerDay : Int :=
  1440

/-- Whether month, day, time and distance from UTC are possible ones. -/
def hasValidDate (f : TimestampFields) : Bool :=
  1 ≤ f.month && f.month ≤ 12 && 1 ≤ f.day && f.day ≤ Calendar.daysInMonth f.year f.month &&
    f.hour ≤ 23 && f.minute ≤ 59 && f.second ≤ 59 && f.micro ≤ 999999 &&
    f.offset.all fun minutes => -minutesPerDay < minutes && minutes < minutesPerDay

/-- Whether the fields are a date of the years 1 to 9999 and a time of day. -/
def isValid (f : TimestampFields) : Bool :=
  1 ≤ f.year && f.year ≤ 9999 && f.hasValidDate

end TimestampFields

structure Timestamp extends TimestampFields where
  valid : toTimestampFields.isValid = true
deriving DecidableEq, Repr

namespace Timestamp

/-- The moment of some fields, if they are valid. -/
def ofFields? (f : TimestampFields) : Option Timestamp :=
  if h : f.isValid = true then some ⟨f, h⟩ else none

def epoch : Timestamp :=
  ⟨⟨1970, 1, 1, 0, 0, 0, 0, none⟩, by decide⟩

instance : Inhabited Timestamp := ⟨epoch⟩

def secondsPerDay : Int :=
  86400

/-- The year of a second counted from the start of the year 1970. -/
def yearOfSecond (seconds : Int) : Int :=
  (Calendar.dateOfDay (Int.fdiv seconds secondsPerDay)).1

/-- The moment so many seconds and microseconds after the start of the year 1970, if it lies in the
years 1 to 9999. -/
def ofUnix? (seconds : Int) (micro : Nat) (offset : Option Int) : Option Timestamp :=
  let day := Int.fdiv seconds secondsPerDay
  let rest := (seconds - day * secondsPerDay).toNat
  let (year, month, date) := Calendar.dateOfDay day
  if year < 0 then none
  else
    ofFields?
      ⟨year.toNat, month, date, rest / 3600, rest / 60 % 60, rest % 60, micro, offset⟩

/-! ## In the store -/

/-- The fields in UTC of a moment that is so many minutes ahead of it. -/
def utcFields (t : Timestamp) (offset : Int) : TimestampFields :=
  let minutes := Int.ofNat (t.hour * 60 + t.minute) - offset
  let (year, month, day) :=
    if minutes < 0 then Calendar.previousDate t.year t.month t.day
    else if minutes < TimestampFields.minutesPerDay then (t.year, t.month, t.day)
    else Calendar.nextDate t.year t.month t.day
  let minuteOfDay := (minutes % TimestampFields.minutesPerDay).toNat
  ⟨year, month, day, minuteOfDay / 60, minuteOfDay % 60, t.second, t.micro, none⟩

/-- The same calendar fields with no distance from UTC. -/
def withoutOffset (t : Timestamp) : Timestamp where
  toTimestampFields := { t.toTimestampFields with offset := none }
  valid := by
    have hvalid := t.valid
    simp only [TimestampFields.isValid, TimestampFields.hasValidDate, Bool.and_eq_true] at hvalid ⊢
    exact ⟨hvalid.1, hvalid.2.1, rfl⟩

/-- A moment as a column of the store keeps it.  Within a day of the ends of the calendar its UTC time may be
no moment of this type; then the calendar fields stay. -/
def stored (t : Timestamp) : Timestamp :=
  match t.offset with
  | none => t
  | some offset => (ofFields? (t.utcFields offset)).getD t.withoutOffset

@[simp]
theorem stored_of_offset_eq_none {t : Timestamp} (hoffset : t.offset = none) : t.stored = t := by
  rw [stored, hoffset]

/-! ## As text -/

def monthDayText (t : Timestamp) : Text :=
  Number.paddedText 2 t.month ++ Text.mark '-' ++ Number.paddedText 2 t.day

def timeText (t : Timestamp) : Text :=
  Number.paddedText 2 t.hour ++ Text.mark ':' ++ Number.paddedText 2 t.minute ++
    Text.mark ':' ++ Number.paddedText 2 t.second

/-- A distance from UTC: `Z` for none, or a sign, hours and minutes. -/
def offsetText (minutes : Int) : Text :=
  if minutes = 0 then Text.mark 'Z'
  else
    Text.mark (if minutes < 0 then '-' else '+') ++
      Number.paddedText 2 (minutes.natAbs / 60) ++ Text.mark ':' ++
      Number.paddedText 2 (minutes.natAbs % 60)

/-- The ISO text of a moment. -/
def isoText (t : Timestamp) : Text :=
  Number.paddedText 4 t.year ++ Text.mark '-' ++ t.monthDayText ++ Text.mark 'T' ++ t.timeText ++
    (if t.micro = 0 then [] else Text.mark '.' ++ Number.paddedText 6 t.micro) ++
    t.offset.elim [] offsetText

end Timestamp

end HookAtlas
