/-
# A batch and its records one by one

A batch is inserted by one statement where all of its records are storable, and record by record where one is
not.  Either way it appends one row for each storable record, in order, and answers how many.  Inserting the
records one by one, each as a batch of its own, appends the same records and answers the same number.

The numbers of the rows are another matter.  A refused statement has used up one number for each of its
records before the first row is inserted, so the rows are numbered higher than they would be one by one.  The
numbers agree exactly where all records are storable, or none is.

All this is said of records that a batch can be made of.  Then a batch of each one can be made, too.
-/

import HookAtlas.Proofs.Cache.Drain
import HookAtlas.Proofs.Store.Numbers

namespace HookAtlas

/-- What a row says, apart from its number. -/
def CacheRow.contents (row : CacheRow) : HookRecord × Option Text :=
  (row.record, row.generation)

namespace Store

variable {generation : Option Text} {record : HookRecord} {records skipped others : List HookRecord}
  {rows new : List CacheRow} {store before after : Store} {tally : InsertTally}

/-! ## One statement -/

/-- A store that has given out some numbers in vain. -/
def wasting (count : Nat) (store : Store) : Store :=
  { store with nextRowId := store.nextRowId + count }

/-- A store with new rows behind some others. -/
def appending (rows new : List CacheRow) (store : Store) : Store :=
  { store with
    cache := some (rows ++ new)
    nextRowId := store.nextRowId + new.length
    unwrittenSince := none }

@[simp]
theorem cache_wasting (count : Nat) (store : Store) : (store.wasting count).cache = store.cache :=
  rfl

@[simp]
theorem nextRowId_wasting (count : Nat) (store : Store) :
    (store.wasting count).nextRowId = store.nextRowId + count :=
  rfl

theorem wasting_wasting (first second : Nat) (store : Store) :
    (store.wasting first).wasting second = store.wasting (first + second) := by
  simp [wasting, Nat.add_assoc]

@[simp]
theorem cache_appending (rows new : List CacheRow) (store : Store) :
    (store.appending rows new).cache = some (rows ++ new) :=
  rfl

/-- The numbers that a statement uses up for a record that is not storable: none where the line is too long,
which is noticed first. -/
def numbersWasted (record : HookRecord) : Nat :=
  if lineFits record then 1 else 0

theorem insertRow_of_isStorable (hcache : store.cache = some rows) (hstorable : isStorable record = true) :
    insertRow record generation store =
      (.ok (), store.appending rows [⟨store.nextRowId, record.stored, generation⟩]) := by
  simp only [isStorable, Bool.and_eq_true, decide_eq_true_eq] at hstorable
  simp [insertRow, hcache, hstorable.1, hstorable.2, appending]

theorem insertRow_of_not_isStorable (hcache : store.cache = some rows)
    (hskipped : isStorable record = false) :
    insertRow record generation store = (.error .rejectedValue, store.wasting (numbersWasted record)) := by
  rw [insertRow, hcache]
  cases hline : lineFits record with
  | false => simp [numbersWasted, wasting, hline]
  | true =>
      have hname : record.hookName.text = [] := by simpa [isStorable, hline] using hskipped
      simp [numbersWasted, wasting, hline, hname, ← hcache]

theorem length_rowsFrom (generation : Option Text) (id : Nat) (records : List HookRecord) :
    (rowsFrom generation id records).length = records.length := by
  rw [← List.length_map CacheRow.record, map_record_rowsFrom, List.length_map]

theorem insertAll_of_isStorable (hcache : store.cache = some rows)
    (hstorable : records.all isStorable = true) :
    insertAll records generation store =
      (.ok (), store.appending rows (rowsFrom generation store.nextRowId records)) := by
  rw [insertAll, fitsBatch_of_isStorable (List.all_eq_true.mp hstorable), hcache, Bool.not_true,
    if_neg Bool.false_ne_true]
  simp only [if_pos hstorable, appending, length_rowsFrom]

theorem insertAll_of_not_isStorable (hcache : store.cache = some rows) (hfits : fitsBatch records = true)
    (hrefused : records.all isStorable = false) :
    insertAll records generation store = (.error .rejectedValue, store.wasting records.length) := by
  rw [insertAll, hfits, hcache, Bool.not_true, if_neg Bool.false_ne_true]
  simp [hrefused, wasting, ← hcache]

/-! ## Row by row -/

theorem add_of_isStorable (hcache : tally.store.cache = some rows) (hstorable : isStorable record = true) :
    tally.add generation record =
      ⟨tally.store.appending rows [⟨tally.store.nextRowId, record.stored, generation⟩],
        tally.inserted + 1, tally.failed⟩ := by
  rw [InsertTally.add, insertRow_of_isStorable hcache hstorable]

theorem add_of_not_isStorable (hcache : tally.store.cache = some rows)
    (hskipped : isStorable record = false) :
    tally.add generation record =
      ⟨tally.store.wasting (numbersWasted record), tally.inserted, tally.failed + 1⟩ := by
  rw [InsertTally.add, insertRow_of_not_isStorable hcache hskipped]

/-- The count of inserted rows goes up by the number of storable records. -/
theorem inserted_foldl_add (generation : Option Text) (records : List HookRecord) (tally : InsertTally)
    (hcache : tally.store.cache = some rows) :
    (records.foldl (InsertTally.add generation) tally).inserted =
      tally.inserted + (records.filter isStorable).length := by
  induction records generalizing rows tally with
  | nil => rfl
  | cons record records ih =>
      rw [List.foldl_cons]
      cases hstorable : isStorable record with
      | true =>
          rw [add_of_isStorable hcache hstorable, ih _ (cache_appending _ _ _),
            List.filter_cons_of_pos hstorable, List.length_cons]
          dsimp only
          omega
      | false =>
          let wasted : InsertTally :=
            ⟨tally.store.wasting (numbersWasted record), tally.inserted, tally.failed + 1⟩
          have hthere : wasted.store.cache = some rows := hcache
          rw [add_of_not_isStorable hcache hstorable, ih wasted hthere,
            List.filter_cons_of_neg (by simp [hstorable])]

/-- Records that are not storable use up numbers and do nothing else. -/
theorem store_foldl_add_of_not_isStorable (tally : InsertTally) (hcache : tally.store.cache = some rows)
    (hskipped : ∀ record ∈ skipped, isStorable record = false) :
    (skipped.foldl (InsertTally.add generation) tally).store =
      tally.store.wasting (skipped.map numbersWasted).sum := by
  induction skipped generalizing tally with
  | nil => rfl
  | cons record skipped ih =>
      have hothers := fun other hmem => hskipped other (List.mem_cons_of_mem record hmem)
      let wasted : InsertTally :=
        ⟨tally.store.wasting (numbersWasted record), tally.inserted, tally.failed + 1⟩
      have hthere : wasted.store.cache = some rows := hcache
      rw [List.foldl_cons, add_of_not_isStorable hcache (hskipped record List.mem_cons_self),
        ih wasted hthere hothers, wasting_wasting, List.map_cons, List.sum_cons]

/-! ## Batches -/

/-- A batch answers the number of its storable records. -/
theorem value_insertBatch (hcache : store.cache = some rows) (hfits : fitsBatch records = true)
    (generation : Option Text) :
    (store.insertBatch records generation).value = .ok (records.filter isStorable).length := by
  rw [insertBatch]
  split
  · next hempty => simp [hempty]
  · cases hall : records.all isStorable with
    | true =>
        rw [insertAll_of_isStorable hcache hall, List.filter_eq_self.mpr (List.all_eq_true.mp hall)]
    | false =>
        have hcount := inserted_foldl_add generation records ⟨store.wasting records.length, 0, 0⟩ hcache
        rw [insertAll_of_not_isStorable hcache hfits hall]
        simpa [insertRows, StoreError.isHandled] using hcount

/-- The rows of a batch that is not refused are numbered one after the other. -/
theorem cache_insertBatch_of_isStorable (hcache : store.cache = some rows)
    (hall : records.all isStorable = true) :
    (store.insertBatch records generation).state.cache =
      some (rows ++ rowsFrom generation store.nextRowId records) := by
  rw [insertBatch]
  split
  · next hempty => simp [hempty, hcache, rowsFrom]
  · rw [insertAll_of_isStorable hcache hall, cache_appending]

/-- The first row of a refused batch is numbered behind all numbers that the batch has used up. -/
theorem cache_insertBatch_of_refused (hcache : store.cache = some rows)
    (hfits : fitsBatch (skipped ++ record :: others) = true)
    (hskipped : ∀ record ∈ skipped, isStorable record = false) (hstorable : isStorable record = true)
    (hrefused : (skipped ++ record :: others).all isStorable = false) :
    ∃ more, (store.insertBatch (skipped ++ record :: others) generation).state.cache =
      some (rows ++ ⟨store.nextRowId + ((skipped ++ record :: others).length +
        (skipped.map numbersWasted).sum), record.stored, generation⟩ :: more) := by
  let tally : InsertTally := ⟨store.wasting (skipped ++ record :: others).length, 0, 0⟩
  let passed := skipped.foldl (InsertTally.add generation) tally
  have hpassed : passed.store = store.wasting ((skipped ++ record :: others).length +
      (skipped.map numbersWasted).sum) := by
    rw [← wasting_wasting]
    exact store_foldl_add_of_not_isStorable tally hcache hskipped
  have hthere : passed.store.cache = some rows := by rw [hpassed, cache_wasting, hcache]
  have hadded : (passed.add generation record).store.cache =
      some (rows ++ [⟨passed.store.nextRowId, record.stored, generation⟩]) := by
    rw [add_of_isStorable hthere hstorable, cache_appending]
  obtain ⟨more, hmore⟩ := foldl_add_inserts generation others hadded
  refine ⟨more, ?_⟩
  rw [insertBatch, if_neg (by simp), insertAll_of_not_isStorable hcache hfits hrefused]
  dsimp only [insertRows]
  rw [StoreError.isHandled, Bool.not_true, if_neg Bool.false_ne_true]
  dsimp only
  rw [List.foldl_append, List.foldl_cons, hmore.cache_eq, hpassed, nextRowId_wasting, List.append_assoc,
    List.singleton_append]

/-- A batch of one record that is not storable uses up a number for the statement besides those of the row. -/
theorem state_insertBatch_singleton (hcache : store.cache = some rows)
    (hfits : fitsBatch [record] = true) (hskipped : isStorable record = false) :
    (store.insertBatch [record] generation).state = store.wasting (1 + numbersWasted record) := by
  have hrefused : [record].all isStorable = false := by simpa using hskipped
  rw [insertBatch, if_neg (List.cons_ne_nil _ _), insertAll_of_not_isStorable hcache hfits hrefused]
  dsimp only [insertRows]
  rw [StoreError.isHandled, Bool.not_true, if_neg Bool.false_ne_true]
  dsimp only
  rw [List.foldl_cons, List.foldl_nil, add_of_not_isStorable hcache hskipped, wasting_wasting,
    List.length_singleton]

/-- Without a cache table a batch inserts nothing and changes nothing. -/
theorem insertBatch_of_missing (hmissing : store.cache = none) (hfits : fitsBatch records = true)
    (generation : Option Text) :
    (store.insertBatch records generation).value = .ok 0 ∧
      (store.insertBatch records generation).state = store := by
  have hfold (failed : Nat) : ∃ failed',
      records.foldl (InsertTally.add generation) ⟨store, 0, failed⟩ = ⟨store, 0, failed'⟩ := by
    clear hfits
    induction records generalizing failed with
    | nil => exact ⟨failed, rfl⟩
    | cons record records ih => simpa [InsertTally.add, insertRow, hmissing] using ih (failed + 1)
  rw [insertBatch]
  split
  · exact ⟨rfl, rfl⟩
  · obtain ⟨failed, htally⟩ := hfold 0
    simp [insertAll, hfits, hmissing, StoreError.isHandled, insertRows, htally]

end Store

namespace HookCache

variable {generation : Option Text} {record : HookRecord} {records skipped others : List HookRecord}
  {rows new : List CacheRow} {cache : HookCache}

open Store (Inserts isStorable numbersWasted rowsFrom)

/-- Insert records one by one, each as a batch of its own, up to the first that raises.  Answers how many were
inserted. -/
def insertSingly (generation : Option Text) :
    List HookRecord → HookCache → Except StoreError Nat × HookCache
  | [], cache => (.ok 0, cache)
  | record :: records, cache =>
    let first := cache.insertBatch [record] generation
    match first.value with
    | .error error => (.error error, first.state)
    | .ok count =>
      let (inserted, after) := insertSingly generation records first.state
      (inserted.map (count + ·), after)

theorem store_insertBatch (cache : HookCache) (records : List HookRecord) (generation : Option Text) :
    (cache.insertBatch records generation).state.store =
      (cache.store.insertBatch records generation).state :=
  rfl

/-- Where a batch of the first record can be made, the others follow. -/
theorem insertSingly_cons (hcache : cache.store.cache = some rows)
    (hfits : Store.fitsBatch [record] = true) (generation : Option Text) (records : List HookRecord) :
    cache.insertSingly generation (record :: records) =
      (((cache.insertBatch [record] generation).state.insertSingly generation records).1.map
          (([record].filter isStorable).length + ·),
        ((cache.insertBatch [record] generation).state.insertSingly generation records).2) := by
  have hvalue : (cache.insertBatch [record] generation).value =
      .ok ([record].filter isStorable).length := Store.value_insertBatch hcache hfits generation
  rw [insertSingly]
  dsimp only
  rw [hvalue]

/-- One by one, too, each storable record is appended and counted. -/
theorem insertSingly_inserts (hcache : cache.store.cache = some rows)
    (hfits : Store.fitsBatch records = true) (generation : Option Text) :
    (cache.insertSingly generation records).1 = .ok (records.filter isStorable).length ∧
      ∃ new, Inserts generation records rows new cache.store
        (cache.insertSingly generation records).2.store := by
  induction records generalizing rows cache with
  | nil => exact ⟨rfl, [], .nil hcache⟩
  | cons record records ih =>
      have hone : Store.fitsBatch [record] = true := Store.fitsBatch_of_subset hfits (by simp)
      have hothers : Store.fitsBatch records = true := Store.fitsBatch_of_subset hfits (by simp)
      obtain ⟨new, hfirst⟩ := Store.insertBatch_inserts hcache hone generation
      rw [← store_insertBatch] at hfirst
      obtain ⟨hrest, more, hmore⟩ := ih hfirst.cache_eq hothers
      rw [insertSingly_cons hcache hone]
      refine ⟨?_, new ++ more, hfirst.append hmore⟩
      rw [hrest, Except.map, ← List.length_append, ← List.filter_append, List.singleton_append]

/-- One by one, the rows of storable records are numbered one after the other. -/
theorem cache_insertSingly_of_isStorable (hcache : cache.store.cache = some rows)
    (hall : records.all isStorable = true) :
    (cache.insertSingly generation records).2.store.cache =
      some (rows ++ rowsFrom generation cache.store.nextRowId records) := by
  induction records generalizing rows cache with
  | nil => simp [insertSingly, rowsFrom, hcache]
  | cons record records ih =>
      rw [List.all_cons, Bool.and_eq_true] at hall
      have hone : [record].all isStorable = true := by simpa using hall.1
      have hfirst : (cache.insertBatch [record] generation).state.store =
          cache.store.appending rows [⟨cache.store.nextRowId, record.stored, generation⟩] := by
        rw [store_insertBatch, Store.insertBatch, if_neg (List.cons_ne_nil _ _),
          Store.insertAll_of_isStorable hcache hone]
        rfl
      rw [insertSingly_cons hcache (Store.fitsBatch_of_isStorable (List.all_eq_true.mp hone))]
      dsimp only
      rw [ih (by rw [hfirst, Store.cache_appending]) hall.2, hfirst, List.append_assoc]
      rfl

/-- One by one, the first row is numbered behind the numbers of the records that were skipped before it. -/
theorem cache_insertSingly_of_skipped (hcache : cache.store.cache = some rows)
    (hfits : Store.fitsBatch (skipped ++ record :: others) = true)
    (hskipped : ∀ record ∈ skipped, isStorable record = false) (hstorable : isStorable record = true) :
    ∃ more, (cache.insertSingly generation (skipped ++ record :: others)).2.store.cache =
      some (rows ++ ⟨cache.store.nextRowId + (skipped.length + (skipped.map numbersWasted).sum),
        record.stored, generation⟩ :: more) := by
  induction skipped generalizing cache with
  | nil =>
      have hone : Store.fitsBatch [record] = true := Store.fitsBatch_of_subset hfits (by simp)
      have hothers : Store.fitsBatch others = true := Store.fitsBatch_of_subset hfits (by simp)
      have hfirst : (cache.insertBatch [record] generation).state.store.cache =
          some (rows ++ [⟨cache.store.nextRowId, record.stored, generation⟩]) :=
        Store.cache_insertBatch_of_isStorable hcache (by simpa using hstorable)
      obtain ⟨-, more, hmore⟩ := insertSingly_inserts hfirst hothers generation
      refine ⟨more, ?_⟩
      rw [List.nil_append, insertSingly_cons hcache hone, hmore.cache_eq, List.append_assoc]
      rfl
  | cons first skipped ih =>
      have hone : Store.fitsBatch [first] = true := Store.fitsBatch_of_subset hfits (by simp)
      have hothers : Store.fitsBatch (skipped ++ record :: others) = true :=
        Store.fitsBatch_of_subset hfits (by simp)
      have hfirst : (cache.insertBatch [first] generation).state.store =
          cache.store.wasting (1 + numbersWasted first) :=
        Store.state_insertBatch_singleton hcache hone (hskipped first List.mem_cons_self)
      have hthere : (cache.insertBatch [first] generation).state.store.cache = some rows := by
        rw [hfirst, Store.cache_wasting, hcache]
      obtain ⟨more, hmore⟩ := ih hthere hothers fun other hmem =>
        hskipped other (List.mem_cons_of_mem first hmem)
      refine ⟨more, ?_⟩
      have hnumber : cache.store.nextRowId + (1 + numbersWasted first) +
          (skipped.length + (skipped.map numbersWasted).sum) =
            cache.store.nextRowId + ((first :: skipped).length +
              ((first :: skipped).map numbersWasted).sum) := by
        simp only [List.length_cons, List.map_cons, List.sum_cons]
        omega
      rw [hfirst, Store.nextRowId_wasting, hnumber] at hmore
      rw [List.cons_append, insertSingly_cons hcache hone]
      exact hmore

/-- The first storable record of a batch, if there is one. -/
theorem exists_first_storable (hsome : ¬ ∀ record ∈ records, isStorable record = false) :
    ∃ skipped record others, records = skipped ++ record :: others ∧ isStorable record = true ∧
      ∀ other ∈ skipped, isStorable other = false := by
  cases hfind : records.find? isStorable with
  | none => exact absurd (by simpa using hfind) hsome
  | some record =>
      obtain ⟨hstorable, skipped, others, hrecords, hskipped⟩ := List.find?_eq_some_iff_append.mp hfind
      exact ⟨skipped, record, others, hrecords, hstorable, by simpa using hskipped⟩

section Numbers

variable {single : List CacheRow}

/-- In a refused batch the first storable record gets another number than one by one. -/
theorem insertSingly_ne_of_refused (hcache : cache.store.cache = some rows)
    (hfits : Store.fitsBatch records = true)
    (hbatch : Inserts generation records rows new cache.store
      (cache.insertBatch records generation).state.store)
    (hsingle : Inserts generation records rows single cache.store
      (cache.insertSingly generation records).2.store)
    (hrefused : records.all isStorable = false) (hsome : ¬ ∀ record ∈ records, isStorable record = false) :
    single ≠ new := by
  obtain ⟨skipped, record, others, rfl, hstorable, hskipped⟩ := exists_first_storable hsome
  obtain ⟨more, hmore⟩ := Store.cache_insertBatch_of_refused hcache hfits hskipped hstorable hrefused
  obtain ⟨more', hmore'⟩ := cache_insertSingly_of_skipped hcache hfits hskipped hstorable
  rw [← store_insertBatch, hbatch.cache_eq] at hmore
  rw [hsingle.cache_eq] at hmore'
  rintro rfl
  rw [hmore] at hmore'
  simp at hmore'

/-- A batch of storable records is one statement, and its rows are numbered like one by one. -/
theorem insertSingly_eq_of_isStorable (hcache : cache.store.cache = some rows)
    (hbatch : Inserts generation records rows new cache.store
      (cache.insertBatch records generation).state.store)
    (hsingle : Inserts generation records rows single cache.store
      (cache.insertSingly generation records).2.store)
    (hall : records.all isStorable = true) : single = new := by
  have hsame : some (rows ++ single) = some (rows ++ new) := by
    rw [← hsingle.cache_eq, ← hbatch.cache_eq, cache_insertSingly_of_isStorable hcache hall,
      store_insertBatch, Store.cache_insertBatch_of_isStorable hcache hall]
  simpa using hsame

/-- The rows of a batch are numbered like those of its records one by one exactly where all records are
storable or none is. -/
theorem insertSingly_eq_iff (hcache : cache.store.cache = some rows)
    (hfits : Store.fitsBatch records = true)
    (hbatch : Inserts generation records rows new cache.store
      (cache.insertBatch records generation).state.store)
    (hsingle : Inserts generation records rows single cache.store
      (cache.insertSingly generation records).2.store) :
    single = new ↔
      (∀ record ∈ records, isStorable record = true) ∨ ∀ record ∈ records, isStorable record = false := by
  constructor
  · intro hsame
    by_contra hmixed
    obtain ⟨hother, hsome⟩ := not_or.mp hmixed
    rw [← List.all_eq_true, Bool.not_eq_true] at hother
    exact insertSingly_ne_of_refused hcache hfits hbatch hsingle hother hsome hsame
  · rintro (hall | hnone)
    · exact insertSingly_eq_of_isStorable hcache hbatch hsingle (List.all_eq_true.mpr hall)
    · -- Neither of the two inserts a row.
      have hempty : records.filter isStorable = [] := by simpa using hnone
      have hnew := hbatch.record_eq
      have hnew' := hsingle.record_eq
      rw [hempty, List.map_nil, List.map_eq_nil_iff] at hnew hnew'
      rw [hnew, hnew']

end Numbers

/-- Where there is a cache table, a batch that can be made appends a row for each storable record, in order and
numbered upward, leaves all other rows and tables alone and answers how many rows there are.  One by one its
records give rows that say the same, and the same answer; the numbers are the same, too, exactly if all records
are storable or none is.  Where there is no cache table, such a batch inserts nothing and changes nothing. -/
theorem insertBatch_agrees (hfits : Store.fitsBatch records = true) (cache : HookCache)
    (generation : Option Text) :
    (∀ rows, cache.store.cache = some rows → ∃ new single,
      Inserts generation records rows new cache.store
        (cache.insertBatch records generation).state.store ∧
      (cache.store.WellNumbered → (rows ++ new).Pairwise fun row other => row.id < other.id) ∧
      (cache.insertBatch records generation).value = .ok (records.filter isStorable).length ∧
      Inserts generation records rows single cache.store
        (cache.insertSingly generation records).2.store ∧
      single.map CacheRow.contents = new.map CacheRow.contents ∧
      (cache.insertSingly generation records).1 = (cache.insertBatch records generation).value ∧
      (single = new ↔ (∀ record ∈ records, isStorable record = true) ∨
        ∀ record ∈ records, isStorable record = false)) ∧
    (cache.store.cache = none →
      (cache.insertBatch records generation).value = .ok 0 ∧
        (cache.insertBatch records generation).state = cache) := by
  constructor
  · intro rows hcache
    obtain ⟨new, hbatch⟩ := Store.insertBatch_inserts hcache hfits generation
    obtain ⟨hcount, single, hsingle⟩ := insertSingly_inserts hcache hfits generation
    have hvalue := Store.value_insertBatch hcache hfits generation
    refine ⟨new, single, hbatch, ?_, hvalue, hsingle, ?_, hcount.trans hvalue.symm,
      insertSingly_eq_iff hcache hfits hbatch hsingle⟩
    · intro hnumbered
      have hafter := hnumbered.writes (Store.writes_insertBatch records generation cache.store).writes
      have hincrease := hafter.ids_increase
      rw [Store.standingRows, hbatch.cache_eq] at hincrease
      exact hincrease
    · have hcontents {some : List CacheRow} {after : Store}
          (hinserts : Inserts generation records rows some cache.store after) :
          some.map CacheRow.contents =
            ((records.filter isStorable).map HookRecord.stored).map fun record =>
              (record, generation) := by
        rw [← hinserts.record_eq, List.map_map]
        apply List.map_congr_left
        intro row hmem
        rw [CacheRow.contents, hinserts.generation_eq row hmem]
        rfl
      rw [hcontents hsingle, hcontents hbatch]
  · intro hmissing
    obtain ⟨hvalue, hstate⟩ := Store.insertBatch_of_missing hmissing hfits generation
    exact ⟨hvalue, by rw [insertBatch, hstate]⟩

/-- A record with a line that does not fit its column. -/
def longRecord : HookRecord :=
  { letterRecord 'l' rfl .static with line := some 2147483648 }

/-- A cache on a store that has lost its cache table. -/
def tableless : HookCache :=
  { emptyCache with store := { emptyCache.store with cache := none } }

theorem wellNumbered_emptyCache : emptyCache.store.WellNumbered where
  ids_increase := List.Pairwise.nil
  id_lt_rowIdFloor _ hmem := absurd hmem List.not_mem_nil
  rowIdFloor_le := Nat.le_refl _

/-- A batch of two records, one of which is not storable, is numbered differently. -/
theorem insertBatch_agrees_mixed :
    Store.fitsBatch [letterRecord 'a' rfl .static, longRecord] = true ∧
    emptyCache.store.cache = some [] ∧ emptyCache.store.WellNumbered ∧ tableless.store.cache = none ∧
      (∃ new single,
        Inserts none [letterRecord 'a' rfl .static, longRecord] [] new emptyCache.store
          (emptyCache.insertBatch [letterRecord 'a' rfl .static, longRecord] none).state.store ∧
        (new.Pairwise fun row other => row.id < other.id) ∧
        (emptyCache.insertBatch [letterRecord 'a' rfl .static, longRecord] none).value = .ok 1 ∧
        single.map CacheRow.contents = new.map CacheRow.contents ∧ single ≠ new) ∧
      (tableless.insertBatch [letterRecord 'a' rfl .static, longRecord] none).state = tableless := by
  have hfits : Store.fitsBatch [letterRecord 'a' rfl .static, longRecord] = true := by decide
  obtain ⟨hthere, -⟩ := insertBatch_agrees hfits emptyCache none
  obtain ⟨-, hmissing⟩ := insertBatch_agrees hfits tableless none
  obtain ⟨new, single, hinserts, hincrease, hvalue, -, hcontents, -, hnumbers⟩ := hthere [] rfl
  refine ⟨hfits, rfl, wellNumbered_emptyCache, rfl, ⟨new, single, hinserts, ?_, hvalue, hcontents, ?_⟩,
    (hmissing rfl).2⟩
  · exact hincrease wellNumbered_emptyCache
  · rw [ne_eq, hnumbers]
    decide

/-- One by one the storable record of a mixed batch gets another number than in the batch. -/
theorem insertBatch_mixed_renumbers :
    ¬ ∀ (cache : HookCache) (generation : Option Text) (records : List HookRecord),
      cache.store.cache.isSome →
        (cache.insertBatch records generation).state.store.cache =
          (cache.insertSingly generation records).2.store.cache := by
  intro hsame
  have hmixed := hsame emptyCache none [letterRecord 'a' rfl .static, longRecord] rfl
  revert hmixed
  decide

end HookCache

end HookAtlas
