/-
# Runs of code points in a class

A scanner that knows a class of code points splits a text behind the longest run of that class.  The part
that is split off lies inside the class.  Conversely a part inside the class and a rest that does not start
in it determine the split, which `runLength_append` states in the form in which scanners use it.

Stripping drops the runs at both ends, so what is left neither starts nor ends in the class.
-/

import HookAtlas.Text.CodePoint
import Mathlib.Data.List.DropRight

namespace HookAtlas.Text

variable {p : CodePoint → Bool}

/-- A text does not start with a code point of a class. -/
def StartsOutside (p : CodePoint → Bool) (t : Text) : Prop :=
  ∀ c, t.head? = some c → p c = false

@[simp]
theorem startsOutside_nil : StartsOutside p [] := fun _ hhead => nomatch hhead

@[simp]
theorem startsOutside_cons {c : CodePoint} {cs : Text} :
    StartsOutside p (c :: cs) ↔ p c = false := by
  simp [StartsOutside]

theorem runLength_eq_zero {t : Text} (houtside : StartsOutside p t) : runLength p t = 0 := by
  cases t with
  | nil => rfl
  | cons c cs => simp [runLength, startsOutside_cons.mp houtside]

/-- A run goes through everything in the class and on from there. -/
theorem runLength_append_of_all {s : Text} (hall : ∀ c ∈ s, p c = true) (t : Text) :
    runLength p (s ++ t) = s.length + runLength p t := by
  induction s with
  | nil => simp
  | cons c s ih =>
      have hrest := ih fun d hmem => hall d (List.mem_cons_of_mem c hmem)
      rw [List.cons_append, runLength, if_pos (hall c List.mem_cons_self), hrest, List.length_cons]
      omega

/-- The longest run of a class ends before the first code point outside it. -/
theorem runLength_append {s t : Text} (hall : ∀ c ∈ s, p c = true) (houtside : StartsOutside p t) :
    runLength p (s ++ t) = s.length := by
  rw [runLength_append_of_all hall, runLength_eq_zero houtside, Nat.add_zero]

theorem mem_take_runLength {t : Text} {c : CodePoint} (hmem : c ∈ t.take (runLength p t)) :
    p c = true := by
  induction t with
  | nil => simp at hmem
  | cons d t ih =>
      by_cases hclass : p d = true
      · rw [runLength, if_pos hclass, List.take_succ_cons, List.mem_cons] at hmem
        rcases hmem with rfl | hmem
        · exact hclass
        · exact ih hmem
      · rw [runLength, if_neg hclass, List.take_zero] at hmem
        cases hmem

theorem runLength_le_length (p : CodePoint → Bool) (t : Text) : runLength p t ≤ t.length := by
  induction t with
  | nil => exact Nat.le_refl 0
  | cons d t ih =>
      rw [runLength, List.length_cons]
      split <;> omega

theorem length_take_runLength (p : CodePoint → Bool) (t : Text) :
    (t.take (runLength p t)).length = runLength p t := by
  rw [List.length_take, Nat.min_eq_left (runLength_le_length p t)]

/-- A run ends before a rest outside its class, if it gets that far. -/
theorem runLength_append_of_startsOutside (s : Text) {t : Text} (houtside : StartsOutside p t) :
    runLength p (s ++ t) = runLength p s := by
  induction s with
  | nil => exact runLength_eq_zero houtside
  | cons c s ih => rw [List.cons_append, runLength, runLength, ih]

/-- A run ends at the end of the text or before a code point outside its class. -/
theorem startsOutside_drop_runLength (p : CodePoint → Bool) (t : Text) :
    StartsOutside p (t.drop (runLength p t)) := by
  induction t with
  | nil => exact startsOutside_nil
  | cons c t ih =>
      rw [runLength]
      split
      · exact ih
      · next hother => exact startsOutside_cons.mpr (by simpa using hother)

/-! ## Stripping -/

/-- A text does not end with a code point of a class. -/
def EndsOutside (p : CodePoint → Bool) (t : Text) : Prop :=
  ∀ c, t.getLast? = some c → p c = false

theorem endsOutside_singleton {c : CodePoint} (houtside : p c = false) : EndsOutside p [c] := by
  intro d hlast
  rw [← Option.some.inj hlast]
  exact houtside

theorem strip_eq_rdropWhile (p : CodePoint → Bool) (t : Text) :
    t.strip p = (t.dropWhile p).rdropWhile p := rfl

theorem strip_isInfix (p : CodePoint → Bool) (t : Text) : t.strip p <:+: t :=
  (List.rdropWhile_prefix p (t.dropWhile p)).isInfix.trans (List.dropWhile_suffix p).isInfix

theorem startsOutside_strip (p : CodePoint → Bool) (t : Text) : StartsOutside p (t.strip p) := by
  intro c hhead
  obtain ⟨cs, hstrip⟩ := List.head?_eq_some_iff.mp hhead
  obtain ⟨dropped, hdropped⟩ := List.rdropWhile_prefix p (t.dropWhile p)
  have houtside := List.head?_dropWhile_not p t
  rw [← hdropped, ← strip_eq_rdropWhile, hstrip] at houtside
  exact houtside

theorem endsOutside_strip (p : CodePoint → Bool) (t : Text) : EndsOutside p (t.strip p) := by
  intro c hlast
  have hsome : t.strip p ≠ [] := by
    rintro hempty
    rw [hempty] at hlast
    cases hlast
  have houtside := List.rdropWhile_last_not p (t.dropWhile p) hsome
  rw [List.getLast?_eq_some_getLast hsome, Option.some.injEq] at hlast
  rw [← hlast]
  exact Bool.eq_false_iff.mpr houtside

theorem strip_eq_self {t : Text} (hstart : StartsOutside p t) (hend : EndsOutside p t) :
    t.strip p = t := by
  have hfront : t.dropWhile p = t := by
    cases t with
    | nil => rfl
    | cons c cs => rw [List.dropWhile_cons_of_neg (by simpa using hstart)]
  rw [strip_eq_rdropWhile, hfront, List.rdropWhile_eq_self_iff]
  intro hsome
  rw [hend _ (List.getLast?_eq_some_getLast hsome)]
  decide

/-- Stripping a class loses nothing of another one. -/
theorem filter_strip {q : CodePoint → Bool} (hapart : ∀ c, p c = true → q c = false) (t : Text) :
    (t.strip p).filter q = t.filter q := by
  have hfront (s : Text) : (s.dropWhile p).filter q = s.filter q := by
    induction s with
    | nil => rfl
    | cons c s ih =>
        rw [List.dropWhile_cons]
        split
        · next hclass => rw [ih, List.filter_cons_of_neg (by simp [hapart c hclass])]
        · rfl
  rw [strip, List.filter_reverse, hfront, List.filter_reverse, List.reverse_reverse, hfront]

end HookAtlas.Text
