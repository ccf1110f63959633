/-
# The shortest decimal that reads back as a double

The reals that round to a double form an interval around it.  For one digit, two digits and so on,
the two neighbours of the double on that decimal grid are tried; the first grid with a neighbour
inside the interval gives the digits, and of two neighbours inside the nearer one.  The layout is
positional while the exponent is between -5 and 16 and scientific outside.
-/

import HookAtlas.Number.Binary64
import HookAtlas.Number.Decimal

namespace HookAtlas.Number

/-- Decimal digits before a power of ten: the value is `digits * 10 ^ exponent`. -/
structure Scaled where
  digits : Nat
  exponent : Int

/-- The interval of reals that round to a magnitude, over four times its unit: lower end, value and
upper end, with the power of two of the unit. -/
def Magnitude.interval (m : Magnitude) : Nat × Nat × Nat × Int :=
  let value := 4 * m.mantissa
  let below := if m.isPowerBoundary then 1 else 2
  (value - below, value, value + 2, m.exponent - 2)

/-- The candidate on one decimal grid: the neighbour of the value inside the interval, the nearer
one where both are.  `scale` and `grid` turn the unit of the interval and the grid step into whole
numbers. -/
def gridCandidate? (m : Magnitude) (scale grid : Nat) : Option Nat :=
  let (low, value, high, _) := m.interval
  let closed := m.mantissa % 2 = 0
  let inside (k : Nat) : Bool :=
    let x := k * grid
    (low * scale < x || (closed && low * scale == x)) &&
      (x < high * scale || (closed && x == high * scale))
  let down := value * scale / grid
  let up := down + 1
  match inside down, inside up with
  | true, true =>
    let toDown := value * scale - down * grid
    let toUp := up * grid - value * scale
    if toDown < toUp then some down
    else if toUp < toDown then some up
    else if down % 2 = 0 then some down else some up
  | true, false => some down
  | false, true => some up
  | false, false => none

/-- Whole factors whose quotient is `2 ^ two / 10 ^ ten`. -/
def factors (two ten : Int) : Nat × Nat :=
  (Nat.pow 2 two.toNat * Nat.pow 10 (-ten).toNat, Nat.pow 2 (-two).toNat * Nat.pow 10 ten.toNat)

/-- Try the decimal grids from the coarsest exponent down. -/
def shortestFrom (m : Magnitude) : Nat → Int → Scaled
  | 0, exponent => ⟨0, exponent⟩
  | steps + 1, exponent =>
    let (scale, grid) := factors (m.exponent - 2) exponent
    match gridCandidate? m scale grid with
    | some 0 => shortestFrom m steps (exponent - 1)
    | some digits => ⟨digits, exponent⟩
    | none => shortestFrom m steps (exponent - 1)

def Magnitude.shortest (m : Magnitude) : Scaled :=
  let (num, den) := m.ratio
  -- an upper bound of the decimal exponent
  let top : Int := ((Nat.log2 num : Int) - (Nat.log2 den : Int)) * 30103 / 100000 + 2
  shortestFrom m 24 top

def Scaled.normalize (s : Scaled) : Nat → Scaled
  | 0 => s
  | steps + 1 =>
    if s.digits ≠ 0 ∧ s.digits % 10 = 0 then
      Scaled.normalize ⟨s.digits / 10, s.exponent + 1⟩ steps
    else s

/-- The text of a positive decimal: positional from 10^-4 to below 10^16, else scientific. -/
def Scaled.text (s : Scaled) : Text :=
  let digits := natText s.digits
  let point : Int := (digits.length : Int) + s.exponent
  if -4 < point ∧ point ≤ 16 then
    if point ≤ 0 then
      Text.ofChars ['0', '.'] ++ List.replicate (-point).toNat (CodePoint.ofDigit 0) ++ digits
    else if digits.length ≤ point.toNat then
      digits ++ List.replicate (point.toNat - digits.length) (CodePoint.ofDigit 0) ++
        Text.ofChars ['.', '0']
    else digits.take point.toNat ++ ('.' : CodePoint) :: digits.drop point.toNat
  else
    let mantissa :=
      match digits with
      | [] => []
      | [d] => [d]
      | d :: ds => d :: '.' :: ds
    let power := point - 1
    mantissa ++ ('e' : CodePoint) :: (if power < 0 then '-' else '+') ::
      paddedText 2 power.natAbs

/-- The text of a double: the fewest digits that read back, and words for the values that are not
finite. -/
def floatText (x : Float) : Text :=
  match Binary64.ofFloat x with
  | .notANumber => Text.ofChars ['n', 'a', 'n']
  | .infinite negative => Text.ofChars (if negative then ['-', 'i', 'n', 'f'] else ['i', 'n', 'f'])
  | .finite negative m =>
    let magnitude :=
      if m.mantissa = 0 then Text.ofChars ['0', '.', '0']
      else ((m.shortest).normalize 24).text
    if negative then '-' :: magnitude else magnitude

end HookAtlas.Number
