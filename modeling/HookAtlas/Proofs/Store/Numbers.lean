/-
# Every row has a number of its own

Rows are numbered by a sequence that never gives out a number twice, though it may go back: a store that
is closed forgets the numbers that failed statements have used up.  What keeps it right is that no row has
such a number.  `rowIdFloor` is the number that the sequence may go back to, and `WellNumbered` says that
all rows are numbered below it, in the order in which they stand.
-/

import HookAtlas.Proofs.Store.Insert
import HookAtlas.Proofs.Store.Writes

namespace HookAtlas

namespace Store

variable {store before after : Store}

/-- The rows of the cache table; none where there is no table. -/
def standingRows (store : Store) : List CacheRow :=
  store.cache.getD []

/-- The next number of a row if the store were closed and opened again. -/
def rowIdFloor (store : Store) : Nat :=
  store.unwrittenSince.elim store.nextRowId Prod.fst

/-- The rows stand in the order of their numbers, and no number is given out again. -/
structure WellNumbered (store : Store) : Prop where
  ids_increase : store.standingRows.Pairwise fun row other => row.id < other.id
  id_lt_rowIdFloor : ∀ row ∈ store.standingRows, row.id < store.rowIdFloor
  rowIdFloor_le : store.rowIdFloor ≤ store.nextRowId

theorem rowIdFloor_of_written (hwritten : store.unwrittenSince = none) :
    store.rowIdFloor = store.nextRowId := by
  simp [rowIdFloor, hwritten]

/-- No number is used for the first time twice. -/
theorem Writes.nextRowId_le (hwrites : Writes before after) :
    before.nextRowId ≤ after.nextRowId := by
  induction hwrites with
  | refl store => exact Nat.le_refl _
  | trans _ _ hfirst hsecond => exact Nat.le_trans hfirst hsecond
  | insertAll records generation store =>
      unfold Store.insertAll
      grind
  | insertRow record generation store =>
      unfold Store.insertRow
      grind
  | deleteStatic store =>
      unfold Store.deleteStatic
      grind
  | enqueue generation payload store =>
      unfold Store.enqueue
      grind
  | deleteOtherChunks generation store =>
      unfold Store.deleteOtherChunks
      grind
  | popOldest store =>
      unfold Store.popOldest
      grind
  | setOption name value store =>
      unfold Store.setOption
      grind
  | rollBackTo _ hlater => exact hlater

namespace WellNumbered

/-- Dropping rows and using up numbers is harmless. -/
theorem of_sublist (hnumbered : before.WellNumbered)
    (hrows : after.standingRows.Sublist before.standingRows)
    (hnumbers : before.nextRowId ≤ after.nextRowId)
    (hsince : after.unwrittenSince = none ∨ after.unwrittenSince = before.unwrittenSince) :
    after.WellNumbered := by
  have hfloor : before.rowIdFloor ≤ after.rowIdFloor ∧ after.rowIdFloor ≤ after.nextRowId := by
    rcases hsince with hwritten | hsame
    · have hle := hnumbered.rowIdFloor_le
      rw [rowIdFloor_of_written hwritten]
      omega
    · have hle := hnumbered.rowIdFloor_le
      rw [rowIdFloor] at hle
      rw [rowIdFloor, rowIdFloor, hsame]
      cases hbefore : before.unwrittenSince with
      | none => exact ⟨hnumbers, Nat.le_refl _⟩
      | some since =>
          rw [hbefore] at hle
          exact ⟨Nat.le_refl _, Nat.le_trans hle hnumbers⟩
  constructor
  · exact hnumbered.ids_increase.sublist hrows
  · intro row hmem
    exact Nat.lt_of_lt_of_le (hnumbered.id_lt_rowIdFloor row (hrows.subset hmem)) hfloor.1
  · exact hfloor.2

/-- New rows with numbers that were not given out before stand behind the others. -/
theorem of_append (hnumbered : before.WellNumbered) (new : List CacheRow)
    (hrows : after.standingRows = before.standingRows ++ new)
    (hincrease : new.Pairwise fun row other => row.id < other.id)
    (hnew : ∀ row ∈ new, before.nextRowId ≤ row.id ∧ row.id < after.nextRowId)
    (hnumbers : before.nextRowId ≤ after.nextRowId) (hwritten : after.unwrittenSince = none) :
    after.WellNumbered := by
  have hold : ∀ row ∈ before.standingRows, row.id < before.nextRowId := fun row hmem =>
    Nat.lt_of_lt_of_le (hnumbered.id_lt_rowIdFloor row hmem) hnumbered.rowIdFloor_le
  constructor
  · rw [hrows, List.pairwise_append]
    refine ⟨hnumbered.ids_increase, hincrease, ?_⟩
    intro row hrow other hother
    exact Nat.lt_of_lt_of_le (hold row hrow) (hnew other hother).1
  · intro row hmem
    rw [rowIdFloor_of_written hwritten]
    rw [hrows, List.mem_append] at hmem
    rcases hmem with hmem | hmem
    · exact Nat.lt_of_lt_of_le (hold row hmem) hnumbers
    · exact (hnew row hmem).2
  · exact Nat.le_of_eq (rowIdFloor_of_written hwritten)

/-! ## Statements -/

theorem insertAll (hnumbered : store.WellNumbered) (records : List HookRecord)
    (generation : Option Text) : (store.insertAll records generation).2.WellNumbered := by
  cases hfits : fitsBatch records with
  | false =>
      rw [insertAll_of_overflow hfits]
      exact hnumbered
  | true =>
  rw [Store.insertAll, hfits, Bool.not_true, if_neg Bool.false_ne_true]
  split
  · exact hnumbered
  · next rows hcache =>
      dsimp only
      split
      · refine hnumbered.of_append (rowsFrom generation store.nextRowId records) ?_
          (pairwise_rowsFrom generation store.nextRowId records) ?_ (Nat.le_add_right _ _) rfl
        · simp [standingRows, hcache]
        · intro row hmem
          exact (mem_rowsFrom hmem).2
      · exact hnumbered.of_sublist (List.Sublist.refl _) (Nat.le_add_right _ _) (.inr rfl)

theorem insertRow (hnumbered : store.WellNumbered) (record : HookRecord)
    (generation : Option Text) : (store.insertRow record generation).2.WellNumbered := by
  rw [Store.insertRow]
  split
  · exact hnumbered
  · next rows hcache =>
      split
      · exact hnumbered
      · dsimp only
        split
        · exact hnumbered.of_sublist (List.Sublist.refl _) (Nat.le_succ _) (.inr rfl)
        · refine hnumbered.of_append [⟨store.nextRowId, record.stored, generation⟩] ?_
            (List.pairwise_singleton _ _) ?_ (Nat.le_succ _) rfl
          · simp [standingRows, hcache]
          · simp

theorem deleteStatic (hnumbered : store.WellNumbered) :
    store.deleteStatic.2.WellNumbered := by
  rw [Store.deleteStatic]
  split
  · exact hnumbered
  · next rows hcache =>
      apply hnumbered.of_sublist
      · simp [standingRows, hcache]
      · exact Nat.le_refl _
      · dsimp only
        split
        · exact .inl rfl
        · exact .inr rfl

/-- A statement that leaves the rows and their numbers as they are. -/
theorem of_eq (hnumbered : before.WellNumbered) (hcache : after.cache = before.cache)
    (hnumbers : after.nextRowId = before.nextRowId)
    (hsince : after.unwrittenSince = none ∨ after.unwrittenSince = before.unwrittenSince) :
    after.WellNumbered := by
  apply hnumbered.of_sublist ?_ (Nat.le_of_eq hnumbers.symm) hsince
  simp [standingRows, hcache]

/-- Every statement keeps the numbers right. -/
theorem writes (hnumbered : before.WellNumbered) (hwrites : Writes before after) :
    after.WellNumbered := by
  induction hwrites with
  | refl store => exact hnumbered
  | trans _ _ hfirst hsecond => exact hsecond (hfirst hnumbered)
  | insertAll records generation store => exact hnumbered.insertAll records generation
  | insertRow record generation store => exact hnumbered.insertRow record generation
  | deleteStatic store => exact hnumbered.deleteStatic
  | enqueue generation payload store =>
      unfold Store.enqueue
      apply hnumbered.of_eq <;> grind
  | deleteOtherChunks generation store =>
      unfold Store.deleteOtherChunks
      apply hnumbered.of_eq <;> grind
  | popOldest store =>
      unfold Store.popOldest
      apply hnumbered.of_eq <;> grind
  | setOption name value store =>
      unfold Store.setOption
      apply hnumbered.of_eq <;> grind
  | rollBackTo hlater _ =>
      exact hnumbered.of_sublist (List.Sublist.refl _) hlater.nextRowId_le (.inr rfl)

/-- Closing the store and opening it again goes back to the floor. -/
theorem reopen (hnumbered : store.WellNumbered) : store.reopen.WellNumbered := by
  rw [Store.reopen]
  split
  · next hwritten =>
      have hlt := hnumbered.id_lt_rowIdFloor
      rw [rowIdFloor_of_written hwritten] at hlt
      exact ⟨hnumbered.ids_increase, hlt, Nat.le_refl _⟩
  · next nextRowId nextChunkId hsince =>
      have hlt := hnumbered.id_lt_rowIdFloor
      rw [rowIdFloor, hsince] at hlt
      constructor
      · exact hnumbered.ids_increase
      · intro row hmem
        rw [rowIdFloor, hsince]
        exact hlt row hmem
      · rw [rowIdFloor, hsince]
        exact Nat.le_refl _

theorem createMissingTables (hnumbered : store.WellNumbered) :
    store.createMissingTables.WellNumbered := by
  apply hnumbered.of_sublist
  · cases hcache : store.cache <;> simp [standingRows, Store.createMissingTables, hcache]
  · exact Nat.le_refl _
  · simp only [Store.createMissingTables]
    split
    · exact .inr rfl
    · exact .inl rfl

theorem applyFault (hnumbered : store.WellNumbered) (fault : StoreFault) :
    (store.applyFault fault).2.WellNumbered := by
  have hstanding : (store.applyFault fault).2.standingRows.Sublist store.standingRows := by
    cases fault <;> grind [Store.applyFault, Store.setPayloadColumn, standingRows]
  apply hnumbered.of_sublist hstanding
  · cases fault <;> grind [Store.applyFault, Store.setPayloadColumn]
  · cases fault <;> grind [Store.applyFault, Store.setPayloadColumn]

end WellNumbered

/-- In every store that the program can come to have, each row has a number of its own. -/
theorem IsReachable.wellNumbered (hreachable : store.IsReachable) : store.WellNumbered := by
  induction hreachable with
  | blank => exact ⟨.nil, fun _ hmem => absurd hmem List.not_mem_nil, Nat.le_refl _⟩
  | writes _ hwrites hbefore => exact hbefore.writes hwrites
  | reopen _ hstore => exact hstore.reopen
  | createMissingTables _ hstore => exact hstore.createMissingTables
  | applyFault fault _ hstore => exact hstore.applyFault fault

end Store

end HookAtlas
