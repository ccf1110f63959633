/-
# Reading timestamps

A moment is read from an ISO text: a date, or a date and a time of day with a mark between them.  The
seconds, their fraction and the distance from UTC may be left out.  Digits of the fraction beyond the
microsecond are dropped.
-/

import HookAtlas.Hook.Timestamp

namespace HookAtlas.Timestamp

/-- Why a text is no moment: it is no ISO text, or one of the year zero, which is no year of the calendar. -/
inductive TextFault
  | malformed
  | yearZero
deriving DecidableEq, Repr

/-- Read a fixed number of decimal digits. -/
def takeNumber? (width : Nat) (t : Text) : Option (Nat × Text) :=
  if (t.take width).length = width then
    (Number.parseNat? (t.take width)).map fun n => (n, t.drop width)
  else none

def takeMark? (marks : List Char) (t : Text) : Option Text :=
  match t with
  | c :: cs => if marks.any fun mark => c = mark then some cs else none
  | [] => none

/-- Read the fraction of a second, if there is one, as microseconds. -/
def takeFraction? (t : Text) : Option (Nat × Text) :=
  match takeMark? ['.', ','] t with
  | none => some (0, t)
  | some t =>
    let run := t.takeWhile CodePoint.isAsciiDigit
    (Number.parseNat? (run.take 6)).map fun value =>
      (value * Nat.pow 10 (6 - run.length), t.drop run.length)

/-- Read the seconds and their fraction, if they are given, of a time of day. -/
def takeSeconds? (t : Text) : Option (Nat × Nat × Text) :=
  match takeMark? [':'] t with
  | none => some (0, 0, t)
  | some t => do
    let (second, t) ← takeNumber? 2 t
    let (micro, t) ← takeFraction? t
    some (second, micro, t)

/-- Read hours and minutes of a distance from UTC, up to the end. -/
def hoursAndMinutes? (t : Text) : Option Int := do
  let (hours, t) ← takeNumber? 2 t
  let (minutes, t) ← takeNumber? 2 ((takeMark? [':'] t).getD t)
  if t = [] ∧ minutes < 60 then some (Int.ofNat (hours * 60 + minutes)) else none

/-- Read the distance from UTC, if it is given, up to the end. -/
def readOffset? (t : Text) : Option (Option Int) :=
  match t with
  | [] => some none
  | c :: cs =>
    if c = 'Z' ∨ c = 'z' then if cs = [] then some (some 0) else none
    else if c = '+' then (hoursAndMinutes? cs).map some
    else if c = '-' ∨ c = '−' then (hoursAndMinutes? cs).map fun minutes => some (-minutes)
    else none

/-- Read the calendar fields of an ISO text. -/
def readFields? (t : Text) : Option TimestampFields := do
  let (year, t) ← takeNumber? 4 t
  let t ← takeMark? ['-'] t
  let (month, t) ← takeNumber? 2 t
  let t ← takeMark? ['-'] t
  let (day, t) ← takeNumber? 2 t
  if t = [] then some ⟨year, month, day, 0, 0, 0, 0, none⟩
  else
    let t ← takeMark? ['T', 't', ' ', '_'] t
    let (hour, t) ← takeNumber? 2 t
    let t ← takeMark? [':'] t
    let (minute, t) ← takeNumber? 2 t
    let (second, micro, t) ← takeSeconds? t
    let offset ← readOffset? t
    some ⟨year, month, day, hour, minute, second, micro, offset⟩

def ofText (t : Text) : Except TextFault Timestamp :=
  match readFields? t with
  | none => .error .malformed
  | some fields =>
    match ofFields? fields with
    | some moment => .ok moment
    | none =>
      if fields.year = 0 ∧ fields.hasValidDate then .error .yearZero else .error .malformed

end HookAtlas.Timestamp
