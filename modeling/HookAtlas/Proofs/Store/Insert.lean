/-
# What inserting records appends

Records are inserted by one statement, or one by one where that statement is refused.  On a store that has
its cache table both ways append the same: one row for each storable record, in the order of the records
and with increasing numbers.  Only the numbers differ, since failed statements use some up.

`Store.Inserts` says this of a store before and after; it is composed like the list of records.

A batch that cannot be made raises before the store is asked, and inserts nothing: neither its storable records
nor any other.
-/

import HookAtlas.Cache.Basic

namespace HookAtlas

namespace Store

/-- A store after some records were inserted into it, given the rows before and the new ones. -/
structure Inserts (generation : Option Text) (records : List HookRecord)
    (rows new : List CacheRow) (before after : Store) : Prop where
  /-- The new rows stand behind the old ones. -/
  cache_eq : after.cache = some (rows ++ new)
  /-- They are those of the storable records. -/
  record_eq : new.map CacheRow.record = (records.filter isStorable).map HookRecord.stored
  generation_eq : ∀ row ∈ new, row.generation = generation
  /-- Their numbers were not given out before, and are now. -/
  nextRowId_le_id : ∀ row ∈ new, before.nextRowId ≤ row.id
  id_lt_nextRowId : ∀ row ∈ new, row.id < after.nextRowId
  ids_increase : new.Pairwise fun row other => row.id < other.id
  nextRowId_le : before.nextRowId ≤ after.nextRowId
  queue_eq : after.queue = before.queue
  options_eq : after.options = before.options
  nextChunkId_eq : after.nextChunkId = before.nextChunkId

namespace Inserts

variable {generation : Option Text} {records others : List HookRecord}
  {rows new more : List CacheRow} {before middle after : Store}

/-- A statement that at most uses up numbers inserts nothing. -/
theorem of_skipped (hcache : after.cache = some rows)
    (hskipped : ∀ record ∈ records, isStorable record = false)
    (hnumbers : before.nextRowId ≤ after.nextRowId) (hqueue : after.queue = before.queue)
    (hoptions : after.options = before.options) (hchunks : after.nextChunkId = before.nextChunkId) :
    Inserts generation records rows [] before after where
  cache_eq := by rw [List.append_nil]; exact hcache
  record_eq := by
    rw [List.map_nil, eq_comm, List.map_eq_nil_iff, List.filter_eq_nil_iff]
    intro record hmem
    rw [hskipped record hmem]
    exact Bool.false_ne_true
  generation_eq := fun _ hmem => absurd hmem List.not_mem_nil
  nextRowId_le_id := fun _ hmem => absurd hmem List.not_mem_nil
  id_lt_nextRowId := fun _ hmem => absurd hmem List.not_mem_nil
  ids_increase := .nil
  nextRowId_le := hnumbers
  queue_eq := hqueue
  options_eq := hoptions
  nextChunkId_eq := hchunks

/-- No records, no rows. -/
theorem nil (hcache : before.cache = some rows) : Inserts generation [] rows [] before before :=
  of_skipped hcache (fun _ hmem => absurd hmem List.not_mem_nil) (Nat.le_refl _) rfl rfl rfl

/-- Two insertions in a row. -/
theorem append (hfirst : Inserts generation records rows new before middle)
    (hsecond : Inserts generation others (rows ++ new) more middle after) :
    Inserts generation (records ++ others) rows (new ++ more) before after where
  cache_eq := by rw [hsecond.cache_eq, List.append_assoc]
  record_eq := by
    rw [List.map_append, List.filter_append, List.map_append, hfirst.record_eq, hsecond.record_eq]
  generation_eq := by
    intro row hmem
    rcases List.mem_append.mp hmem with hmem | hmem
    · exact hfirst.generation_eq row hmem
    · exact hsecond.generation_eq row hmem
  nextRowId_le_id := by
    intro row hmem
    rcases List.mem_append.mp hmem with hmem | hmem
    · exact hfirst.nextRowId_le_id row hmem
    · exact Nat.le_trans hfirst.nextRowId_le (hsecond.nextRowId_le_id row hmem)
  id_lt_nextRowId := by
    intro row hmem
    rcases List.mem_append.mp hmem with hmem | hmem
    · exact Nat.lt_of_lt_of_le (hfirst.id_lt_nextRowId row hmem) hsecond.nextRowId_le
    · exact hsecond.id_lt_nextRowId row hmem
  ids_increase := by
    rw [List.pairwise_append]
    refine ⟨hfirst.ids_increase, hsecond.ids_increase, ?_⟩
    intro row hrow other hother
    exact Nat.lt_of_lt_of_le (hfirst.id_lt_nextRowId row hrow)
      (hsecond.nextRowId_le_id other hother)
  nextRowId_le := Nat.le_trans hfirst.nextRowId_le hsecond.nextRowId_le
  queue_eq := hsecond.queue_eq.trans hfirst.queue_eq
  options_eq := hsecond.options_eq.trans hfirst.options_eq
  nextChunkId_eq := hsecond.nextChunkId_eq.trans hfirst.nextChunkId_eq

/-- Every new row is the one of a record. -/
theorem exists_record (hinserts : Inserts generation records rows new before after) {row : CacheRow}
    (hmem : row ∈ new) : ∃ record ∈ records, record.stored = row.record := by
  have hrow : row.record ∈ (records.filter isStorable).map HookRecord.stored := by
    rw [← hinserts.record_eq]
    exact List.mem_map_of_mem hmem
  obtain ⟨record, hrecord, hstored⟩ := List.mem_map.mp hrow
  exact ⟨record, (List.mem_filter.mp hrecord).1, hstored⟩

end Inserts

/-! ## Batches that can be made -/

/-- Every line that is short enough for a column of doubles fits, whatever else is in the batch. -/
theorem fitsBatch_of_lines {records : List HookRecord}
    (hlines : ∀ record ∈ records, ∀ line, record.line = some line → line < 9223372036854775296) :
    fitsBatch records = true := by
  refine List.all_eq_true.mpr fun record hmem => ?_
  cases hrecord : record.line with
  | none => rfl
  | some line =>
      have hline := hlines record hmem line hrecord
      rw [Option.all_some, decide_eq_true_eq, batchLimit]
      split
      · omega
      · exact hline

/-- Where every record has a line the whole column counts. -/
theorem fitsBatch_of_someLines {records : List HookRecord}
    (hlines : ∀ record ∈ records, ∃ line, record.line = some line ∧ line < 9223372036854775808) :
    fitsBatch records = true := by
  have hall : (records.all fun record => record.line.isSome) = true := by
    refine List.all_eq_true.mpr fun record hmem => ?_
    obtain ⟨line, hline, -⟩ := hlines record hmem
    rw [hline, Option.isSome_some]
  refine List.all_eq_true.mpr fun record hmem => ?_
  obtain ⟨line, hrecord, hline⟩ := hlines record hmem
  rw [hrecord, Option.all_some, decide_eq_true_eq, batchLimit, if_pos hall]
  exact hline

/-- Fewer records have no lower limit, so a part of a batch that can be made can be made. -/
theorem fitsBatch_of_subset {records piece : List HookRecord} (hfits : fitsBatch records = true)
    (hsubset : piece ⊆ records) : fitsBatch piece = true := by
  have hlimit : batchLimit records ≤ batchLimit piece := by
    rw [batchLimit, batchLimit]
    split
    · next hall =>
        have hpiece : (piece.all fun record => record.line.isSome) = true :=
          List.all_eq_true.mpr fun record hmem => List.all_eq_true.mp hall record (hsubset hmem)
        exact Nat.le_of_eq (if_pos hpiece).symm
    · split
      · omega
      · omega
  refine List.all_eq_true.mpr fun record hmem => ?_
  have hline := List.all_eq_true.mp hfits record (hsubset hmem)
  cases hrecord : record.line with
  | none => rfl
  | some line =>
      rw [hrecord, Option.all_some, decide_eq_true_eq] at hline
      exact decide_eq_true (Nat.lt_of_lt_of_le hline hlimit)

theorem fitsBatch_of_isStorable {records : List HookRecord}
    (hstorable : ∀ record ∈ records, isStorable record = true) : fitsBatch records = true := by
  refine fitsBatch_of_lines fun record hmem line hline => ?_
  have hfits := hstorable record hmem
  rw [isStorable, lineFits, hline, Option.all_some, Bool.and_eq_true, decide_eq_true_eq,
    decide_eq_true_eq, maxLine] at hfits
  omega

/-! ## One statement for all records -/

theorem map_record_rowsFrom (generation : Option Text) (id : Nat) (records : List HookRecord) :
    (rowsFrom generation id records).map CacheRow.record = records.map HookRecord.stored := by
  induction records generalizing id with
  | nil => rfl
  | cons record records ih => rw [rowsFrom, List.map_cons, List.map_cons, ih]

/-- The rows of a statement are numbered one after the other. -/
theorem mem_rowsFrom {generation : Option Text} {id : Nat} {records : List HookRecord}
    {row : CacheRow} (hmem : row ∈ rowsFrom generation id records) :
    row.generation = generation ∧ id ≤ row.id ∧ row.id < id + records.length := by
  induction records generalizing id with
  | nil => exact absurd hmem List.not_mem_nil
  | cons record records ih =>
      rw [rowsFrom, List.mem_cons] at hmem
      rw [List.length_cons]
      rcases hmem with rfl | hmem
      · exact ⟨rfl, Nat.le_refl _, by dsimp only; omega⟩
      · obtain ⟨hgeneration, hlower, hupper⟩ := ih hmem
        exact ⟨hgeneration, by omega, by omega⟩

theorem pairwise_rowsFrom (generation : Option Text) (id : Nat) (records : List HookRecord) :
    (rowsFrom generation id records).Pairwise fun row other => row.id < other.id := by
  induction records generalizing id with
  | nil => exact .nil
  | cons record records ih =>
      refine .cons (fun row hmem => ?_) (ih (id + 1))
      exact (mem_rowsFrom hmem).2.1

/-- A batch that cannot be made never comes to the store. -/
theorem insertAll_of_overflow {records : List HookRecord} (hoverflow : fitsBatch records = false)
    (generation : Option Text) (store : Store) :
    insertAll records generation store = (.error .lineOverflow, store) := by
  rw [insertAll, hoverflow]
  rfl

/-- A statement for all records inserts all of them, or uses up their numbers. -/
theorem insertAll_cases {rows : List CacheRow} {store : Store} (hcache : store.cache = some rows)
    {records : List HookRecord} (hfits : fitsBatch records = true) (generation : Option Text) :
    (∃ new after, insertAll records generation store = (.ok (), after) ∧
      Inserts generation records rows new store after) ∨
      insertAll records generation store =
        (.error .rejectedValue, { store with nextRowId := store.nextRowId + records.length }) := by
  rw [insertAll, hfits, hcache, Bool.not_true, if_neg Bool.false_ne_true]
  dsimp only
  split
  · next hall =>
      refine .inl ⟨rowsFrom generation store.nextRowId records, _, rfl, ?_⟩
      exact {
        cache_eq := rfl
        record_eq := by
          rw [map_record_rowsFrom, List.filter_eq_self.mpr (List.all_eq_true.mp hall)]
        generation_eq := fun row hmem => (mem_rowsFrom hmem).1
        nextRowId_le_id := fun row hmem => (mem_rowsFrom hmem).2.1
        id_lt_nextRowId := fun row hmem => (mem_rowsFrom hmem).2.2
        ids_increase := pairwise_rowsFrom generation store.nextRowId records
        nextRowId_le := Nat.le_add_right _ _
        queue_eq := rfl
        options_eq := rfl
        nextChunkId_eq := rfl }
  · exact .inr rfl

/-! ## One statement for each record -/

/-- A statement for one record inserts it exactly if it is storable. -/
theorem insertRow_inserts {rows : List CacheRow} {store : Store} (hcache : store.cache = some rows)
    (record : HookRecord) (generation : Option Text) :
    ∃ new, Inserts generation [record] rows new store (insertRow record generation store).2 := by
  rw [insertRow, hcache]
  dsimp only
  split
  · next hline =>
      have hlong : lineFits record = false := by simpa using hline
      refine ⟨[], .of_skipped hcache (fun other hmem => ?_) (Nat.le_refl _) rfl rfl rfl⟩
      rw [List.mem_singleton.mp hmem, isStorable, hlong, Bool.and_false]
  · next hline =>
      split
      · next hname =>
          refine ⟨[], .of_skipped rfl (fun other hmem => ?_) (Nat.le_succ _) rfl rfl rfl⟩
          rw [List.mem_singleton.mp hmem, isStorable, hname]
          rfl
      · next hname =>
          have hstorable : isStorable record = true := by
            rw [isStorable, Bool.and_eq_true]
            exact ⟨decide_eq_true hname, by simpa using hline⟩
          refine ⟨[⟨store.nextRowId, record.stored, generation⟩], ?_⟩
          exact {
            cache_eq := rfl
            record_eq := by
              rw [List.map_singleton, List.filter_cons_of_pos hstorable, List.filter_nil,
                List.map_singleton]
            generation_eq := fun row hmem => by rw [List.mem_singleton.mp hmem]
            nextRowId_le_id := fun row hmem =>
              Nat.le_of_eq (congrArg CacheRow.id (List.mem_singleton.mp hmem)).symm
            id_lt_nextRowId := fun row hmem => by
              rw [List.mem_singleton.mp hmem]
              exact Nat.lt_succ_self _
            ids_increase := List.pairwise_singleton _ _
            nextRowId_le := Nat.le_succ _
            queue_eq := rfl
            options_eq := rfl
            nextChunkId_eq := rfl }

/-- A tally takes up the store that one more row leaves. -/
theorem store_add (generation : Option Text) (tally : InsertTally) (record : HookRecord) :
    (tally.add generation record).store = (insertRow record generation tally.store).2 := by
  rw [InsertTally.add]
  split
  · next hinsert => rw [hinsert]
  · next hinsert => rw [hinsert]

/-- The rows of a batch, one after the other. -/
theorem foldl_add_inserts (generation : Option Text) (records : List HookRecord)
    {rows : List CacheRow} {tally : InsertTally} (hcache : tally.store.cache = some rows) :
    ∃ new, Inserts generation records rows new tally.store
      (records.foldl (InsertTally.add generation) tally).store := by
  induction records generalizing rows tally with
  | nil => exact ⟨[], .nil hcache⟩
  | cons record records ih =>
      obtain ⟨new, hfirst⟩ := insertRow_inserts hcache record generation
      rw [← store_add] at hfirst
      obtain ⟨more, hrest⟩ := ih hfirst.cache_eq
      exact ⟨new ++ more, hfirst.append hrest⟩

/-- Inserting row by row attempts every record. -/
theorem insertRows_inserts {rows : List CacheRow} {store : Store} (hcache : store.cache = some rows)
    (records : List HookRecord) (generation : Option Text) :
    ∃ new, Inserts generation records rows new store (insertRows records generation store).state :=
  @foldl_add_inserts generation records rows ⟨store, 0, 0⟩ hcache

theorem insertBatch_of_overflow {records : List HookRecord} (hoverflow : fitsBatch records = false)
    (generation : Option Text) (store : Store) :
    insertBatch records generation store = ⟨.error .lineOverflow, store, []⟩ := by
  have hsome : records ≠ [] := by
    rintro rfl
    cases hoverflow
  rw [insertBatch, if_neg hsome, insertAll_of_overflow hoverflow]
  rfl

/-- What refuses a batch that can be made is handled. -/
theorem isHandled_of_insertAll {records : List HookRecord} (hfits : fitsBatch records = true)
    {generation : Option Text} {store after : Store} {error : StoreError}
    (hrefused : insertAll records generation store = (.error error, after)) :
    error.isHandled = true := by
  rw [insertAll, hfits, Bool.not_true, if_neg Bool.false_ne_true] at hrefused
  split at hrefused
  · cases hrefused
    rfl
  · dsimp only at hrefused
    split at hrefused
    · cases hrefused
    · cases hrefused
      rfl

/-- A batch that can be made is inserted, at once or row by row. -/
theorem exists_value_insertBatch {records : List HookRecord} (hfits : fitsBatch records = true)
    (generation : Option Text) (store : Store) :
    ∃ inserted, (insertBatch records generation store).value = .ok inserted := by
  rw [insertBatch]
  split
  · exact ⟨0, rfl⟩
  · split
    · exact ⟨records.length, rfl⟩
    · next error after hrefused =>
        rw [isHandled_of_insertAll hfits hrefused, Bool.not_true, if_neg Bool.false_ne_true]
        exact ⟨_, rfl⟩

/-- A batch that can be made appends a row for each storable record, whichever way it is inserted. -/
theorem insertBatch_inserts {rows : List CacheRow} {store : Store} (hcache : store.cache = some rows)
    {records : List HookRecord} (hfits : fitsBatch records = true) (generation : Option Text) :
    ∃ new, Inserts generation records rows new store (insertBatch records generation store).state := by
  rw [insertBatch]
  split
  · next hempty =>
      rw [hempty]
      exact ⟨[], .nil hcache⟩
  · rcases insertAll_cases hcache hfits generation with
      ⟨new, after, hinsert, hinserts⟩ | hinsert
    · rw [hinsert]
      exact ⟨new, hinserts⟩
    · rw [hinsert]
      have hnone : Inserts generation [] rows [] store
          { store with nextRowId := store.nextRowId + records.length } :=
        .of_skipped hcache (fun _ hmem => absurd hmem List.not_mem_nil) (Nat.le_add_right _ _) rfl
          rfl rfl
      obtain ⟨new, hrows⟩ := insertRows_inserts hnone.cache_eq records generation
      exact ⟨new, hnone.append hrows⟩

/-- For a single record a batch that cannot be made skips what no row could hold anyway. -/
theorem insertBatch_toList_inserts {rows : List CacheRow} {store : Store} (hcache : store.cache = some rows)
    (record? : Option HookRecord) (generation : Option Text) :
    ∃ new, Inserts generation record?.toList rows new store
      (insertBatch record?.toList generation store).state := by
  cases hfits : fitsBatch record?.toList with
  | true => exact insertBatch_inserts hcache hfits generation
  | false =>
      have hskipped : ∀ record ∈ record?.toList, isStorable record = false := by
        intro record hmem
        rw [Option.mem_toList] at hmem
        rw [hmem] at hfits
        rw [← Bool.not_eq_true]
        intro hstorable
        rw [Option.toList_some, fitsBatch_of_isStorable (by simpa using hstorable)] at hfits
        cases hfits
      rw [insertBatch_of_overflow hfits]
      exact ⟨[], .of_skipped hcache hskipped (Nat.le_refl _) rfl rfl rfl⟩

end Store

end HookAtlas
