/-
# UTF-8

Encoding is defined for every code point, surrogates included, by the three-byte form.  Decoding
never fails: a machine takes one byte at a time, and what is written for each longest stretch of bytes
that starts a sequence and cannot be continued is a parameter.  The state of the machine is the
sequence it is in: the bytes and bits so far, the bytes still owed, and the bounds of the next byte.
Those bounds keep the machine off the surrogates, so a decoded text is well-formed.
-/

import HookAtlas.Text.CodePoint

namespace HookAtlas.Utf8

def encodeCodePoint (c : CodePoint) : List Nat :=
  if c.val < 0x80 then [c.val]
  else if c.val < 0x800 then [0xC0 + c.val / 0x40, 0x80 + c.val % 0x40]
  else if c.val < 0x10000 then
    [0xE0 + c.val / 0x1000, 0x80 + c.val / 0x40 % 0x40, 0x80 + c.val % 0x40]
  else
    [0xF0 + c.val / 0x40000, 0x80 + c.val / 0x1000 % 0x40, 0x80 + c.val / 0x40 % 0x40,
      0x80 + c.val % 0x40]

def encode (t : Text) : List Nat :=
  t.flatMap encodeCodePoint

/-- A sequence that is not complete: its bytes so far and the bits they stand for, how many bytes it still owes,
less one, and the bounds between which the next byte has to lie. -/
structure Sequence where
  bytes : List Nat
  bits : Nat
  owedAfterNext : Nat
  low : Nat
  high : Nat
deriving DecidableEq, Repr

/-- What the machine writes for a byte, and the sequence that is open afterwards. -/
structure Step where
  output : Text
  state : Option Sequence

/-- Read a byte between sequences, given what is written for bytes that cannot be decoded. -/
def start (invalid : List Nat → Text) (b : Nat) : Step :=
  if b < 0x80 then ⟨[CodePoint.ofNat b], none⟩
  else if 0xC2 ≤ b ∧ b ≤ 0xDF then ⟨[], some ⟨[b], b - 0xC0, 0, 0x80, 0xBF⟩⟩
  else if b = 0xE0 then ⟨[], some ⟨[b], 0, 1, 0xA0, 0xBF⟩⟩
  else if b = 0xED then ⟨[], some ⟨[b], 0xD, 1, 0x80, 0x9F⟩⟩
  else if 0xE1 ≤ b ∧ b ≤ 0xEF then ⟨[], some ⟨[b], b - 0xE0, 1, 0x80, 0xBF⟩⟩
  else if b = 0xF0 then ⟨[], some ⟨[b], 0, 2, 0x90, 0xBF⟩⟩
  else if b = 0xF4 then ⟨[], some ⟨[b], 4, 2, 0x80, 0x8F⟩⟩
  else if 0xF1 ≤ b ∧ b ≤ 0xF3 then ⟨[], some ⟨[b], b - 0xF0, 2, 0x80, 0xBF⟩⟩
  else ⟨invalid [b], none⟩

def step (invalid : List Nat → Text) (state : Option Sequence) (b : Nat) : Step :=
  match state with
  | none => start invalid b
  | some s =>
    if s.low ≤ b ∧ b ≤ s.high then
      let bits := s.bits * 0x40 + b % 0x40
      match s.owedAfterNext with
      | 0 => ⟨[CodePoint.ofNat bits], none⟩
      | n + 1 => ⟨[], some ⟨s.bytes ++ [b], bits, n, 0x80, 0xBF⟩⟩
    else
      let next := start invalid b
      ⟨invalid s.bytes ++ next.output, next.state⟩

/-- Decode from a state of the machine.  A sequence that is still open at the end cannot be
decoded. -/
def decodeFrom (invalid : List Nat → Text) : Option Sequence → List Nat → Text
  | none, [] => []
  | some s, [] => invalid s.bytes
  | state, b :: bs =>
    let next := step invalid state b
    next.output ++ decodeFrom invalid next.state bs

/-- Decode bytes; each stretch that cannot be decoded becomes one replacement character. -/
def decode (bytes : List Nat) : Text :=
  decodeFrom (fun _ => [CodePoint.replacement]) none bytes

/-- Decode the bytes of a file name; each byte that cannot be decoded becomes the surrogate that
stands for it. -/
def decodeFileName (bytes : List Nat) : Text :=
  decodeFrom (fun stretch => stretch.map fun b => CodePoint.ofNat (0xDC00 + b)) none bytes

/-! ## Decoded texts are well-formed -/

/-- The bits of a sequence and the bounds of its next byte lead to no surrogate. -/
def Sequence.AvoidsSurrogates (s : Sequence) : Prop :=
  match s.owedAfterNext with
  | 0 => s.bits < 0x360 ∨ 0x37F < s.bits
  | 1 => 0x80 ≤ s.low ∧ s.high ≤ 0xBF ∧ (s.bits ≠ 0xD ∨ s.high ≤ 0x9F)
  | 2 => 0x80 ≤ s.low ∧ s.high ≤ 0xBF ∧ (s.bits ≠ 0 ∨ 0x90 ≤ s.low)
  | _ => False

/-- A step writes no surrogate and leads to none. -/
def Step.AvoidsSurrogates (s : Step) : Prop :=
  s.output.isScalar ∧ ∀ q, s.state = some q → q.AvoidsSurrogates

theorem start_avoidsSurrogates {invalid : List Nat → Text}
    (hinvalid : ∀ bytes, (invalid bytes).isScalar) (b : Nat) :
    (start invalid b).AvoidsSurrogates := by
  unfold start Step.AvoidsSurrogates
  repeat' split
  all_goals simp_all [Sequence.AvoidsSurrogates, Text.isScalar]
  · exact CodePoint.isSurrogate_ofNat (by omega)
  · omega
  · omega
  · omega
  · exact hinvalid [b]

theorem step_avoidsSurrogates {invalid : List Nat → Text}
    (hinvalid : ∀ bytes, (invalid bytes).isScalar) {state : Option Sequence}
    (hstate : ∀ q, state = some q → q.AvoidsSurrogates) (b : Nat) :
    (step invalid state b).AvoidsSurrogates := by
  cases state with
  | none => exact start_avoidsSurrogates hinvalid b
  | some s =>
    have hs := hstate s rfl
    unfold Sequence.AvoidsSurrogates at hs
    simp only [step]
    split
    · split
      · rename_i howed
        simp only [howed] at hs
        refine ⟨?_, by simp⟩
        simp only [Text.isScalar, List.all_cons, List.all_nil, Bool.and_true, Bool.not_eq_true']
        exact CodePoint.isSurrogate_ofNat (by omega)
      · rename_i n howed
        refine ⟨rfl, fun q hq => ?_⟩
        cases hq
        match n, howed with
        | 0, howed =>
          simp only [howed] at hs
          simp only [Sequence.AvoidsSurrogates]
          omega
        | 1, howed =>
          simp only [howed] at hs
          simp only [Sequence.AvoidsSurrogates]
          omega
        | n + 2, howed => simp only [howed] at hs
    · have hnext := start_avoidsSurrogates hinvalid b
      refine ⟨?_, hnext.2⟩
      rw [Text.isScalar_append, hinvalid, hnext.1]
      rfl

/-- Decoding writes no surrogate unless what is written for invalid bytes holds one. -/
theorem decodeFrom_isScalar {invalid : List Nat → Text}
    (hinvalid : ∀ bytes, (invalid bytes).isScalar) (bytes : List Nat) {state : Option Sequence}
    (hstate : ∀ q, state = some q → q.AvoidsSurrogates) :
    (decodeFrom invalid state bytes).isScalar := by
  induction bytes generalizing state with
  | nil =>
    cases state with
    | none => rfl
    | some s => exact hinvalid s.bytes
  | cons b bytes ih =>
    have hstep := step_avoidsSurrogates hinvalid hstate b
    simp only [decodeFrom]
    rw [Text.isScalar_append, hstep.1, ih hstep.2]
    rfl

/-- A decoded text is well-formed, whatever the bytes. -/
theorem decode_isScalar (bytes : List Nat) : (decode bytes).isScalar :=
  decodeFrom_isScalar (fun _ => by decide) bytes (by simp)

end HookAtlas.Utf8
