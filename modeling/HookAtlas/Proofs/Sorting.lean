/-
# Stable sorting

A stable sort keeps the order of elements that are related in both directions.  So where the elements with
some property are so related to one another, sorting leaves those elements as they are.
-/

import Mathlib.Data.List.Basic

namespace HookAtlas

/-- Sorting keeps the elements with a property, if any two of them are related, in their order. -/
theorem filter_mergeSort_of_related {α : Type} {le : α → α → Bool}
    (htrans : ∀ first second third, le first second = true → le second third = true →
      le first third = true)
    (htotal : ∀ first second, (le first second || le second first) = true) {p : α → Bool}
    (hrelated : ∀ first second, p first = true → p second = true → le first second = true)
    (items : List α) : (items.mergeSort le).filter p = items.filter p := by
  have hsorted : (items.filter p).Pairwise fun first second => le first second = true := by
    apply List.pairwise_of_forall_mem_list
    intro first hfirst second hsecond
    exact hrelated first second (List.mem_filter.mp hfirst).2 (List.mem_filter.mp hsecond).2
  have hsublist := (List.sublist_mergeSort htrans htotal hsorted List.filter_sublist).filter p
  rw [List.filter_filter] at hsublist
  simp only [Bool.and_self] at hsublist
  have hlength := ((items.mergeSort_perm le).filter p).length_eq
  exact (hsublist.eq_of_length hlength.symm).symm

end HookAtlas
