/-
# Doubles as exact fractions

A finite double is a sign and a magnitude m · 2^e with whole m and e.  This module takes a double
apart in that way and goes back from an exact fraction to the nearest double, of two equally near
ones the one with an even m.
-/

namespace HookAtlas.Number

/-- A finite magnitude `mantissa * 2 ^ exponent`, as a double holds it.  It is a power boundary where the next
smaller double is only half as far away as the next larger one. -/
structure Magnitude where
  mantissa : Nat
  exponent : Int
  isPowerBoundary : Bool
deriving Repr

inductive Binary64
  | finite (negative : Bool) (magnitude : Magnitude)
  | infinite (negative : Bool)
  | notANumber

def Binary64.ofFloat (x : Float) : Binary64 :=
  let bits : Nat := x.toBits.toNat
  let negative := bits / Nat.pow 2 63 == 1
  let biased : Nat := bits / Nat.pow 2 52 % Nat.pow 2 11
  let fraction : Nat := bits % Nat.pow 2 52
  if biased = 2047 then
    if fraction = 0 then .infinite negative else .notANumber
  else if biased = 0 then .finite negative ⟨fraction, -1074, false⟩
  else .finite negative ⟨Nat.pow 2 52 + fraction, (biased : Int) - 1075, fraction == 0 && biased != 1⟩

/-- The numerator and the denominator of a magnitude. -/
def Magnitude.ratio (m : Magnitude) : Nat × Nat :=
  if 0 ≤ m.exponent then (m.mantissa * Nat.pow 2 m.exponent.toNat, 1)
  else (m.mantissa, Nat.pow 2 (-m.exponent).toNat)

/-- The quotient of two numbers rounded to a whole one, a half going to the even neighbour. -/
def roundHalfEven (num den : Nat) : Nat :=
  let q := num / den
  let r := num % den
  if 2 * r < den then q
  else if 2 * r > den then q + 1
  else if q % 2 = 0 then q else q + 1

/-- The quotient of two numbers rounded to a whole one, a half going up. -/
def roundHalfUp (num den : Nat) : Nat :=
  if 2 * (num % den) < den then num / den else num / den + 1

/-- The nearest double to the fraction `num / den`. -/
def nearestFloat (num den : Nat) : Float :=
  if num = 0 ∨ den = 0 then 0.0
  else
    -- the exponent that leaves 53 significant bits, or the least one
    let guess : Int := (Nat.log2 num : Int) - (Nat.log2 den : Int) - 52
    let fits (e : Int) : Bool :=
      if 0 ≤ e then num < den * Nat.pow 2 (53 + e.toNat)
      else num * Nat.pow 2 (-e).toNat < den * Nat.pow 2 53
    let exponent := max (-1074) (if fits (guess - 1) then guess - 1 else guess)
    let mantissa :=
      if 0 ≤ exponent then roundHalfEven num (den * Nat.pow 2 exponent.toNat)
      else roundHalfEven (num * Nat.pow 2 (-exponent).toNat) den
    let (mantissa, exponent) :=
      if mantissa = Nat.pow 2 53 then (Nat.pow 2 52, exponent + 1) else (mantissa, exponent)
    if exponent > 971 then Float.ofBits 0x7FF0000000000000
    else if mantissa < Nat.pow 2 52 then Float.ofBits (UInt64.ofNat mantissa)
    else
      Float.ofBits
        (UInt64.ofNat ((exponent + 1075).toNat * Nat.pow 2 52 + (mantissa - Nat.pow 2 52)))

/-- The nearest double to `digits * 10 ^ exponent`.  Far outside the range of doubles the answer
is infinity or zero at once: the number lies between `10 ^ (least + exponent)` and
`10 ^ (greatest + exponent)`. -/
def nearestFloatOfDecimal (digits : Nat) (exponent : Int) : Float :=
  let least : Int := Int.ofNat (Nat.log2 digits * 30102 / 100000)
  let greatest : Int := Int.ofNat ((Nat.log2 digits + 1) * 30103 / 100000 + 1)
  if digits = 0 then 0.0
  else if 310 < least + exponent then Float.ofBits 0x7FF0000000000000
  else if greatest + exponent < -330 then 0.0
  else if 0 ≤ exponent then nearestFloat (digits * Nat.pow 10 exponent.toNat) 1
  else nearestFloat digits (Nat.pow 10 (-exponent).toNat)

/-- The nearest double to an integer. -/
def nearestFloatOfInt : Int → Float
  | .ofNat n => nearestFloat n 1
  | .negSucc n => -(nearestFloat (n + 1) 1)

/-- The integer part of a double toward zero; none for infinities and NaN. -/
def truncate? (x : Float) : Option Int :=
  match Binary64.ofFloat x with
  | .finite negative m =>
    let (num, den) := m.ratio
    let n : Int := Int.ofNat (num / den)
    some (if negative then -n else n)
  | _ => none

def isWhole (x : Float) : Bool :=
  match Binary64.ofFloat x with
  | .finite _ m => let (num, den) := m.ratio; num % den = 0
  | _ => false

def isInfinite (x : Float) : Bool :=
  match Binary64.ofFloat x with
  | .infinite _ => true
  | _ => false

end HookAtlas.Number
