/-
# Groups of a sorted list

In a list that is sorted by a key the items of one key stand together.  So leaving out each key that was
just seen leaves every key once, in ascending order, and the items of these keys in a row are the list.
-/

import Mathlib.Data.List.Basic

namespace HookAtlas

section EraseReps

variable {κ : Type} [BEq κ]

theorem eraseRepsBy_loop (k : κ) (keys found : List κ) :
    List.eraseRepsBy.loop (· == ·) k keys found =
      found.reverse ++ List.eraseRepsBy.loop (· == ·) k keys [] := by
  induction keys generalizing k found with
  | nil => rw [List.eraseRepsBy.loop, List.eraseRepsBy.loop, List.reverse_cons, List.reverse_singleton]
  | cons other keys ih =>
      rw [List.eraseRepsBy.loop, List.eraseRepsBy.loop]
      split
      · exact ih k found
      · rw [ih other (k :: found), ih other [k], List.reverse_cons, List.reverse_singleton,
          List.append_assoc]

variable [DecidableEq κ] [LawfulBEq κ]

/-- A key is left out if it is the next one too. -/
theorem eraseReps_cons (k : κ) (keys : List κ) :
    (k :: keys).eraseReps = if keys.head? = some k then keys.eraseReps else k :: keys.eraseReps := by
  cases keys with
  | nil => rfl
  | cons other keys =>
      show (match k == other with
          | true => List.eraseRepsBy.loop (· == ·) k keys []
          | false => List.eraseRepsBy.loop (· == ·) other keys [k]) = _
      by_cases hsame : k = other
      · rw [hsame, beq_self_eq_true, if_pos List.head?_cons]
        rfl
      · have hhead : (other :: keys).head? ≠ some k := fun heq => hsame (Option.some.inj heq).symm
        rw [beq_false_of_ne hsame, if_neg hhead]
        exact eraseRepsBy_loop other keys [k]

theorem head?_eraseReps (keys : List κ) : keys.eraseReps.head? = keys.head? := by
  induction keys with
  | nil => rfl
  | cons k keys ih =>
      rw [eraseReps_cons]
      split
      · next hhead => rw [ih, hhead, List.head?_cons]
      · rfl

theorem mem_eraseReps {k : κ} {keys : List κ} : k ∈ keys.eraseReps ↔ k ∈ keys := by
  induction keys with
  | nil => exact Iff.rfl
  | cons first keys ih =>
      rw [eraseReps_cons]
      split
      · next hhead =>
          rw [ih, List.mem_cons, or_iff_right_of_imp]
          rintro rfl
          exact List.mem_of_mem_head? hhead
      · rw [List.mem_cons, List.mem_cons, ih]

end EraseReps

section Sorted

variable {κ : Type} {before : κ → κ → Prop}
  (hanti : ∀ first second, before first second → before second first → first = second)

include hanti

/-- A key that does not come next in a sorted list does not come at all. -/
theorem not_mem_of_head?_ne {k : κ} {keys : List κ} (hsorted : (k :: keys).Pairwise before)
    (hhead : keys.head? ≠ some k) : k ∉ keys := by
  cases keys with
  | nil => exact List.not_mem_nil
  | cons other keys =>
      intro hmem
      rcases List.mem_cons.mp hmem with rfl | hmem
      · exact hhead rfl
      · have hfirst : before k other := List.rel_of_pairwise_cons hsorted List.mem_cons_self
        have hback : before other k := List.rel_of_pairwise_cons hsorted.of_cons hmem
        exact hhead (congrArg some (hanti _ _ hfirst hback).symm)

variable [DecidableEq κ] [BEq κ] [LawfulBEq κ]

/-- The keys of a sorted list are strictly sorted where each is left once. -/
theorem pairwise_eraseReps {keys : List κ} (hsorted : keys.Pairwise before) :
    keys.eraseReps.Pairwise fun first second => before first second ∧ first ≠ second := by
  induction keys with
  | nil => exact .nil
  | cons k keys ih =>
      rw [eraseReps_cons]
      split
      · exact ih hsorted.of_cons
      · next hhead =>
          have hnew := not_mem_of_head?_ne hanti hsorted hhead
          refine List.pairwise_cons.mpr ⟨?_, ih hsorted.of_cons⟩
          intro other hmem
          rw [mem_eraseReps] at hmem
          refine ⟨List.rel_of_pairwise_cons hsorted hmem, ?_⟩
          rintro rfl
          exact hnew hmem

/-- The groups of a sorted list in a row are the list. -/
theorem flatMap_filter_eraseReps {α : Type} (key : α → κ) {items : List α}
    (hsorted : (items.map key).Pairwise before) :
    ((items.map key).eraseReps.flatMap fun k => items.filter fun item => key item = k) = items := by
  induction items with
  | nil => rfl
  | cons item items ih =>
      rw [List.map_cons] at hsorted
      have hrest := ih hsorted.of_cons
      have hfirst : ((item :: items).filter fun other => key other = key item) =
          item :: items.filter fun other => key other = key item :=
        List.filter_cons_of_pos (decide_eq_true rfl)
      -- The other groups do not hold the new item.
      have hothers (keys : List κ) (hkeys : key item ∉ keys) :
          (keys.flatMap fun k => (item :: items).filter fun item => key item = k) =
            keys.flatMap fun k => items.filter fun item => key item = k := by
        apply List.flatMap_congr
        intro k hmem
        rw [List.filter_cons_of_neg]
        rw [decide_eq_true_eq]
        rintro rfl
        exact hkeys hmem
      rw [List.map_cons, eraseReps_cons]
      split
      · next hhead =>
          rw [← head?_eraseReps, List.head?_eq_some_iff] at hhead
          obtain ⟨others, hgroups⟩ := hhead
          have hstrict := pairwise_eraseReps hanti hsorted.of_cons
          rw [hgroups] at hstrict hrest
          rw [List.flatMap_cons] at hrest
          rw [hgroups, List.flatMap_cons, hothers others, hfirst, List.cons_append, hrest]
          exact fun hmem => (List.rel_of_pairwise_cons hstrict hmem).2 rfl
      · next hhead =>
          have hnew := not_mem_of_head?_ne hanti hsorted hhead
          have hnone : (items.filter fun other => key other = key item) = [] := by
            rw [List.filter_eq_nil_iff]
            intro other hmem hsame
            exact hnew (List.mem_map.mpr ⟨other, hmem, of_decide_eq_true hsame⟩)
          rw [List.flatMap_cons, hothers _ (fun hmem => hnew (mem_eraseReps.mp hmem)), hrest, hfirst,
            hnone]
          rfl

end Sorted

end HookAtlas
