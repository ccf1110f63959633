/-
# The pages of a listing

A listing sorts the rows that a filter accepts by name, and the rows of one name by number.  Since every
row has a number of its own this order is strict, so there is only one list that a listing can be cut from.
Its pages are the pieces of that list of the length that is asked for, and the pieces in a row give the list
back.

Page numbers and lengths come from outside.  They are brought into bounds first, which is why neither the
length of a page nor the number of rows before it can leave the range of the store.
-/

import HookAtlas.Catalogue.Listing
import HookAtlas.Proofs.Cache.Drain
import HookAtlas.Proofs.Catalogue.Filter
import HookAtlas.Proofs.Store.Numbers
import Mathlib.Algebra.Order.Floor.Div
import Mathlib.Data.List.Lex
import Mathlib.Data.Prod.Lex

namespace HookAtlas

/-! ## The order of a listing -/

/-- Texts are ordered as the lists of the numbers of their code points. -/
theorem Text.le_iff (s t : Text) :
    Text.le s t = true ↔ s.map CodePoint.val ≤ t.map CodePoint.val := by
  rw [← not_lt]
  induction s generalizing t with
  | nil => simp [Text.le]
  | cons a s ih =>
      cases t with
      | nil => simp [Text.le]
      | cons b t =>
          rw [Text.le, List.map_cons, List.map_cons, List.cons_lt_cons_iff]
          split
          · next heq => simp [ih, heq]
          · next hne =>
              have hswap : b.val ≠ a.val := Ne.symm hne
              simp only [decide_eq_true_eq, hswap, false_and, or_false, not_lt]
              omega

theorem CodePoint.val_injective : Function.Injective CodePoint.val := by
  intro a b heq
  cases a
  cases b
  cases heq
  rfl

/-- Names with the same code points are one name. -/
theorem antisymm_names (first second : Text)
    (hle : first.map CodePoint.val ≤ second.map CodePoint.val)
    (hge : second.map CodePoint.val ≤ first.map CodePoint.val) : first = second :=
  List.map_injective_iff.mpr CodePoint.val_injective (le_antisymm hle hge)

theorem ScalarText.text_injective : Function.Injective ScalarText.text :=
  Function.LeftInverse.injective ScalarText.ofText_text

namespace CacheRow

/-- What rows are listed by: the code points of the name, and then the number. -/
def listingKey (row : CacheRow) : List Nat ×ₗ Nat :=
  toLex (row.record.hookName.text.map CodePoint.val, row.id)

theorem listedBefore_iff (first second : CacheRow) :
    first.listedBefore second = true ↔ first.listingKey ≤ second.listingKey := by
  have hname : first.record.hookName.text.map CodePoint.val =
      second.record.hookName.text.map CodePoint.val ↔
        first.record.hookName = second.record.hookName := by
    rw [(List.map_injective_iff.mpr CodePoint.val_injective).eq_iff,
      ScalarText.text_injective.eq_iff]
  rw [listedBefore_eq, listingKey, listingKey, Prod.Lex.toLex_le_toLex, hname]
  split
  · next heq => simp [heq]
  · next hne => simp [Text.le_iff, le_iff_lt_or_eq, hname, hne]

end CacheRow

namespace Store

variable {rows : List CacheRow}

theorem mergeSort_listedBefore_pairwise (rows : List CacheRow) :
    (rows.mergeSort CacheRow.listedBefore).Pairwise fun row other => row.listingKey ≤ other.listingKey := by
  have htrans : ∀ first second third : CacheRow, first.listedBefore second = true →
      second.listedBefore third = true → first.listedBefore third = true := by
    intro first second third hfirst hsecond
    rw [CacheRow.listedBefore_iff] at hfirst hsecond ⊢
    exact hfirst.trans hsecond
  have htotal : ∀ first second : CacheRow,
      (first.listedBefore second || second.listedBefore first) = true := by
    intro first second
    rw [Bool.or_eq_true, CacheRow.listedBefore_iff, CacheRow.listedBefore_iff]
    exact le_total _ _
  apply (List.pairwise_mergeSort htrans htotal rows).imp
  intro row other hle
  exact (CacheRow.listedBefore_iff row other).mp hle

/-- Rows with numbers of their own are listed in a strict order. -/
theorem mergeSort_listedBefore_strict (hids : rows.Pairwise fun row other => row.id < other.id) :
    (rows.mergeSort CacheRow.listedBefore).Pairwise fun row other => row.listingKey < other.listingKey := by
  have hdistinct : (rows.mergeSort CacheRow.listedBefore).Pairwise fun row other => row.id ≠ other.id :=
    (rows.mergeSort_perm CacheRow.listedBefore).symm.pairwise (hids.imp Nat.ne_of_lt) Ne.symm
  apply ((mergeSort_listedBefore_pairwise rows).and hdistinct).imp
  intro row other hboth
  apply lt_of_le_of_ne hboth.1
  intro heq
  exact hboth.2 (congrArg (fun key => (ofLex key).2) heq)

end Store

/-! ## Pages as pieces of a list -/

/-- Pieces of one length in a row are the start of the list. -/
theorem flatMap_drop_take {α : Type} (items : List α) (size count : Nat) :
    (List.range count).flatMap (fun n => (items.drop (n * size)).take size) =
      items.take (count * size) := by
  induction count with
  | zero => simp
  | succ count ih => simp [List.range_succ, ih, Nat.succ_mul, List.take_add]

namespace PageRequest

/-- The number of rows on a page of the length that is asked for. -/
def pageSize (perPage : Int) : Nat :=
  (min maxPerPage (max 1 perPage)).toNat

/-- The number of a page as it is answered. -/
def pageNumber (page : Int) : Int :=
  min maxPage (max 1 page)

variable (page perPage : Int)

theorem cast_pageSize : (pageSize perPage : Int) = min maxPerPage (max 1 perPage) := by
  simp only [pageSize, maxPerPage]
  omega

theorem clamp_eq : clamp ⟨page, perPage⟩ = ⟨pageNumber page, pageSize perPage⟩ := by
  rw [clamp, cast_pageSize, pageNumber]

theorem pageNumber_succ {n : Nat} (hmax : (n : Int) < maxPage) : pageNumber (n + 1) = n + 1 := by
  rw [pageNumber]
  omega

end PageRequest

/-! ## Listings -/

namespace Store

open PageRequest (pageSize pageNumber maxPage)

variable {store : Store} {rows : List CacheRow}

/-- The rows that satisfy all requests. -/
def rowsAdmitted (requests : List FilterRequest) (rows : List CacheRow) : List CacheRow :=
  rows.filter fun row => requests.all fun request => request.admits row.subject

theorem rowsMatching_ofRequests (requests : List FilterRequest) (rows : List CacheRow) :
    rowsMatching (HookFilter.ofRequests requests) rows = rowsAdmitted requests rows := by
  simp [rowsMatching, rowsAdmitted, HookFilter.accepts_ofRequests]

/-- The entries of a page that is cut from a sorted list. -/
def entriesOnPage (listed : List CacheRow) (page perPage : Int) : List HookEntry :=
  ((listed.drop ((pageNumber page - 1) * pageSize perPage).toNat).take (pageSize perPage)).map
    CacheRow.toEntry

theorem listHooks_eq (hrows : store.allRows = .ok rows) (requests : List FilterRequest)
    (page perPage : Int) :
    store.listHooks requests ⟨page, perPage⟩ =
      .ok ⟨(rowsAdmitted requests rows).length, pageNumber page, pageSize perPage,
        entriesOnPage ((rowsAdmitted requests rows).mergeSort CacheRow.listedBefore) page perPage⟩ := by
  simp [listHooks, hrows, rowsMatching_ofRequests, PageRequest.clamp_eq, PageRequest.offset,
    entriesOnPage]

theorem entriesOnPage_succ (listed : List CacheRow) (perPage : Int) {n : Nat}
    (hmax : (n : Int) < maxPage) :
    entriesOnPage listed (n + 1) perPage =
      ((listed.drop (n * pageSize perPage)).take (pageSize perPage)).map CacheRow.toEntry := by
  have hoffset : ((n + 1 - 1 : Int) * pageSize perPage).toNat = n * pageSize perPage := by
    rw [Int.add_sub_cancel, ← Int.natCast_mul, Int.toNat_natCast]
  rw [entriesOnPage, PageRequest.pageNumber_succ hmax, hoffset]

variable (listed : List CacheRow) (perPage : Int)

/-- The first pages in a row are the start of the list. -/
theorem flatMap_entriesOnPage_take {count : Nat} (hmax : (count : Int) ≤ maxPage) :
    ((List.range count).flatMap fun n : Nat => entriesOnPage listed (n + 1) perPage) =
      (listed.take (count * pageSize perPage)).map CacheRow.toEntry := by
  rw [← flatMap_drop_take, List.map_flatMap]
  apply List.flatMap_congr
  intro n hmem
  have hlt := List.mem_range.mp hmem
  exact entriesOnPage_succ listed perPage (by omega)

/-- A store with four rows, of which three were found in the source. -/
def fourRows : Store :=
  (blank.createMissingTables.insertAll
    [HookCache.letterRecord 'r' rfl .static, HookCache.letterRecord 'p' rfl .static,
      HookCache.letterRecord 'q' rfl .runtime, HookCache.letterRecord 'p' rfl .static] none).2

end Store

end HookAtlas
