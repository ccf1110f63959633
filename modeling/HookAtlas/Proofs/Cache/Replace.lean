/-
# What a replace leaves

On a store with all tables a replace succeeds, in one transaction or stepwise, and afterwards the store
holds the records that were replaced by.  The first chunk of them has become rows and the others wait in
the queue.  This is so where every chunk of the records can be made a batch (`FitsBatches`).  Where the first
one cannot, the replace raises and leaves the store as it was.

The generation of a replace is drawn anew by the host.  `IsFresh` says what is asked of it: no chunk that
is queued already belongs to it.
-/

import HookAtlas.Cache.Replace
import HookAtlas.Proofs.Cache.Holding
import Mathlib.Algebra.Order.Floor.Div

namespace HookAtlas

namespace Store

/-- No queued chunk belongs to a generation yet. -/
def IsFresh (generation : Text) (store : Store) : Prop :=
  ∀ table, store.queue = some table → ∀ chunk ∈ table.chunks, chunk.generation ≠ generation

variable {generation : Text} {store after : Store}

/-! ## Adding to what a store holds -/

/-- Rows of the valid generation add to what was written. -/
theorem Holds.insert {rows new : List CacheRow} {chunks : List QueueChunk}
    {written records : List HookRecord} {queued : List (List HookRecord)}
    (hholds : Holds generation store rows chunks written queued)
    (hinserts : Inserts (some generation) records rows new store after) :
    Holds generation after (rows ++ new) chunks (written ++ records) queued where
  holdsRows := hholds.holdsRows.insert hinserts (.inl rfl)
  holdsChunks := hholds.holdsChunks.of_eq hinserts.queue_eq hinserts.nextChunkId_eq
  valid := (getOption_of_eq hinserts.options_eq _ _).trans hholds.valid

/-- Chunks that are appended add to what is queued. -/
theorem Holds.enqueue {rows : List CacheRow} {chunks more : List QueueChunk}
    {written : List HookRecord} {queued pieces : List (List HookRecord)}
    (hholds : Holds generation store rows chunks written queued)
    (hcache : after.cache = store.cache) (hoptions : after.options = store.options)
    (hnumbers : after.nextRowId = store.nextRowId)
    (hchunks : HoldsChunks generation after (chunks ++ more) (queued ++ pieces)) :
    Holds generation after rows (chunks ++ more) written (queued ++ pieces) where
  holdsRows := hholds.holdsRows.of_eq hcache hnumbers
  holdsChunks := hchunks
  valid := (getOption_of_eq hoptions _ _).trans hholds.valid

/-! ## Superseding older scans -/

theorem find?_putOption (name : Text) (value : Option Text) (options : List (Text × Option Text)) :
    (putOption name value options).find? (fun option => option.1 = name) = some (name, value) := by
  induction options with
  | nil => rw [putOption, List.find?_cons_of_pos (by simp)]
  | cons option options ih =>
      obtain ⟨other, old⟩ := option
      rw [putOption]
      split
      · rw [List.find?_cons_of_pos (by simp)]
      · next hother =>
          rw [List.find?_cons_of_neg (by simpa using hother)]
          exact ih

/-- The statements that supersede older scans leave the rows that were observed at run time, and nothing of
the new scan was written or queued yet. -/
theorem sequence_supersedeStatements {rows : List CacheRow} (hcache : store.cache = some rows)
    (hschema : store.HasSchema) (hfresh : store.IsFresh generation) :
    ∃ after, sequence (supersedeStatements generation) store = (.ok (), after) ∧
      Holds generation after (rows.filter fun row => !isStaticRow row) [] [] [] := by
  obtain ⟨_, ⟨chunks, hqueue⟩, ⟨options, hoptions⟩⟩ := hschema
  have hchunks : (chunks.filter fun chunk => !decide (chunk.generation ≠ generation)) = [] := by
    rw [List.filter_eq_nil_iff]
    intro chunk hmem
    rw [decide_eq_true (hfresh _ hqueue chunk hmem)]
    exact Bool.false_ne_true
  have hrows : ((rows.filter fun row => !isStaticRow row).filter isStaticRow) = [] := by
    rw [List.filter_filter, List.filter_eq_nil_iff]
    intro row _
    rw [Bool.and_not_self]
    exact Bool.false_ne_true
  have hnone : ∀ row ∈ rows.filter (fun row => !isStaticRow row), isStaticRow row ≠ true :=
    List.filter_eq_nil_iff.mp hrows
  rw [supersedeStatements, sequence, deleteStatic, hcache]
  dsimp only
  rw [sequence, deleteOtherChunks]
  dsimp only
  rw [hqueue]
  dsimp only
  rw [hchunks, sequence, setOption]
  dsimp only
  rw [hoptions]
  dsimp only
  rw [sequence]
  refine ⟨_, rfl, ?_⟩
  exact {
    holdsRows := {
      cache_eq := rfl
      record_eq := by
        rw [hrows]
        rfl
      generation_eq := fun row hmem hstatic => absurd hstatic (hnone row hmem)
      id_lt_nextRowId := fun row hmem hstatic => absurd hstatic (hnone row hmem)
      ids_increase := by
        rw [hrows]
        exact .nil }
    holdsChunks := {
      queue_eq := rfl
      records_eq := rfl
      fits := fun _ hmem => absurd hmem List.not_mem_nil
      generation_eq := fun _ hmem => absurd hmem List.not_mem_nil
      id_lt_nextChunkId := fun _ hmem => absurd hmem List.not_mem_nil
      ids_increase := .nil }
    valid := by
      rw [getOption]
      dsimp only
      rw [find?_putOption] }

/-! ## Replacing the rows -/

theorem sequence_append (first second : List (Store → Answer Unit)) {store middle : Store}
    (hfirst : sequence first store = (.ok (), middle)) :
    sequence (first ++ second) store = sequence second middle := by
  induction first generalizing store with
  | nil =>
      rw [sequence, Prod.mk.injEq] at hfirst
      rw [List.nil_append, hfirst.2]
  | cons statement first ih =>
      rw [sequence] at hfirst
      rw [List.cons_append, sequence]
      split at hfirst
      · exact ih hfirst
      · cases hfirst

/-- A store that a transaction was rolled back to has the tables that it had. -/
theorem HasSchema.rollBackTo (hschema : store.HasSchema) (later : Store) :
    (store.rollBackTo later).HasSchema :=
  ⟨hschema.cache_eq, hschema.queue_eq, hschema.options_eq⟩

/-- A replace of the rows succeeds.  Behind the rows that were observed at run time stand those of the
storable records, and all records were written. -/
theorem replaceStatic_holds {rows : List CacheRow} (hcache : store.cache = some rows)
    (hschema : store.HasSchema) (hfresh : store.IsFresh generation) {records : List HookRecord}
    (hfits : fitsBatch records = true) :
    (replaceStatic records generation store).value = .ok () ∧
      ∃ new, new.map CacheRow.record = (records.filter isStorable).map HookRecord.stored ∧
        Holds generation (replaceStatic records generation store).state
          ((rows.filter fun row => !isStaticRow row) ++ new) [] records [] := by
  obtain ⟨middle, hsequence, hmiddle⟩ := sequence_supersedeStatements hcache hschema hfresh
  rw [replaceStatic, replaceAtOnce, transaction, sequence_append _ _ hsequence]
  by_cases hempty : records = []
  · rw [if_pos hempty, hempty]
    refine ⟨rfl, [], rfl, ?_⟩
    rw [List.append_nil]
    exact hmiddle
  rw [if_neg hempty, sequence]
  rcases insertAll_cases hmiddle.holdsRows.cache_eq hfits (some generation) with
    ⟨new, after, hinsert, hinserts⟩ | hinsert
  · rw [hinsert]
    exact ⟨rfl, new, hinserts.record_eq, hmiddle.insert hinserts⟩
  · -- The transaction is rolled back, and the statements are performed again one by one.
    rw [hinsert]
    dsimp only
    have hrolled :
        (store.rollBackTo { middle with nextRowId := middle.nextRowId + records.length }).cache =
          some rows := hcache
    obtain ⟨again, hagain, hholds⟩ :=
      sequence_supersedeStatements hrolled (hschema.rollBackTo _) hfresh
    obtain ⟨new, hinserts⟩ :=
      insertRows_inserts hholds.holdsRows.cache_eq records (some generation)
    rw [StoreError.isHandled, Bool.not_true, if_neg Bool.false_ne_true, replaceStepwise, hagain]
    exact ⟨rfl, new, hinserts.record_eq, hholds.insert hinserts⟩

end Store

/-! ## Replacing and queueing -/

/-- The pieces of a list make up the list. -/
theorem flatten_chunksOf {α : Type} {size : Nat} (hsize : 0 < size) (items : List α) :
    (chunksOf size items).flatten = items := by
  fun_induction chunksOf size items with
  | case1 items hstop =>
      rcases hstop with hzero | hempty
      · omega
      · rw [hempty, List.flatten_nil]
  | case2 items hgo ih => rw [List.flatten_cons, ih, List.take_append_drop]

theorem chunksOf_nil {α : Type} (size : Nat) : chunksOf size ([] : List α) = [] := by
  rw [chunksOf, if_pos (.inr rfl)]

theorem mem_of_mem_chunksOf {α : Type} {size : Nat} {items piece : List α}
    (hpiece : piece ∈ chunksOf size items) {item : α} (hmem : item ∈ piece) : item ∈ items := by
  fun_induction chunksOf size items with
  | case1 items hstop => cases hpiece
  | case2 items hgo ih =>
      rcases List.mem_cons.mp hpiece with rfl | hpiece
      · exact List.mem_of_mem_take hmem
      · exact List.mem_of_mem_drop (ih hpiece)

namespace Store

/-- Every chunk of some records can be made a batch. -/
def FitsBatches (size : Nat) (records : List HookRecord) : Prop :=
  ∀ piece ∈ chunksOf size records, fitsBatch piece = true

variable {size : Nat} {records : List HookRecord}

theorem FitsBatches.take (hsize : 0 < size) (hfits : FitsBatches size records) :
    fitsBatch (records.take size) = true := by
  by_cases hempty : records = []
  · rw [hempty, List.take_nil]
    rfl
  · refine hfits _ ?_
    rw [chunksOf, if_neg (by rintro (hzero | hnone); exacts [absurd hzero (by omega), hempty hnone])]
    exact List.mem_cons_self

theorem FitsBatches.drop (hfits : FitsBatches size records) : FitsBatches size (records.drop size) := by
  intro piece hmem
  by_cases hstop : size = 0 ∨ records = []
  · rcases hstop with rfl | rfl
    · rw [chunksOf, if_pos (.inl rfl)] at hmem
      cases hmem
    · rw [List.drop_nil, chunksOf_nil] at hmem
      cases hmem
  · refine hfits piece ?_
    rw [chunksOf, if_neg hstop]
    exact List.mem_cons_of_mem _ hmem

/-- Records whose chunks can be made batches can be written as payloads. -/
theorem FitsBatches.isWritable (hsize : 0 < size) (hfits : FitsBatches size records)
    {record : HookRecord} (hmem : record ∈ records) : record.isWritable = true := by
  rw [← flatten_chunksOf hsize records, List.mem_flatten] at hmem
  obtain ⟨piece, hpiece, hmem⟩ := hmem
  exact QueueChunk.isWritable_of_fitsBatch (hfits piece hpiece) hmem

/-- Where one batch can be made of all records, one can be made of each chunk, whatever its size. -/
theorem fitsBatches_of_fitsBatch (hfits : fitsBatch records = true) : FitsBatches size records :=
  fun _ hpiece => fitsBatch_of_subset hfits fun _ hmem => mem_of_mem_chunksOf hpiece hmem

/-- Lines that are short enough for a column of doubles fit, however they are cut into chunks. -/
theorem fitsBatches_of_lines
    (hlines : ∀ record ∈ records, ∀ line, record.line = some line → line < 9223372036854775296) :
    FitsBatches size records :=
  fun _ hpiece => fitsBatch_of_lines fun record hmem => hlines record (mem_of_mem_chunksOf hpiece hmem)

theorem fitsBatches_of_someLines
    (hlines : ∀ record ∈ records, ∃ line, record.line = some line ∧ line < 9223372036854775808) :
    FitsBatches size records :=
  fun _ hpiece => fitsBatch_of_someLines fun record hmem => hlines record (mem_of_mem_chunksOf hpiece hmem)

end Store

/-- The number of pieces of a list, the last of which may be shorter. -/
theorem length_chunksOf {α : Type} {size : Nat} (hsize : 0 < size) (items : List α) :
    (chunksOf size items).length = items.length ⌈/⌉ size := by
  fun_induction chunksOf size items with
  | case1 items hstop =>
      rcases hstop with hzero | hempty
      · omega
      · rw [hempty, List.length_nil, List.length_nil, zero_ceilDiv]
  | case2 items hgo ih =>
      have hpositive : 0 < items.length := List.length_pos_iff.mpr fun hempty => hgo (.inr hempty)
      rw [List.length_cons, ih, List.length_drop, Nat.ceilDiv_eq_add_pred_div,
        Nat.ceilDiv_eq_add_pred_div]
      rcases Nat.lt_or_ge items.length size with hshort | hlong
      · have hless : items.length + size - 1 = items.length - 1 + size := by omega
        rw [Nat.sub_eq_zero_of_le hshort.le, hless, Nat.add_div_right _ hsize,
          Nat.div_eq_of_lt (by omega), Nat.div_eq_of_lt (by omega)]
      · have hmore : items.length + size - 1 = items.length - size + size - 1 + size := by omega
        rw [hmore, Nat.add_div_right _ hsize]

namespace HookCache

/-- Asking for a tick leaves the store as it is. -/
theorem store_scheduleDrain (now delay : Float) (cache : HookCache) :
    (cache.scheduleDrain now delay).2.store = cache.store := rfl

/-- The scheduler after a replace: a tick is asked for where records were queued. -/
def schedulerAfterReplace (clock : Float) (records : List HookRecord) (cache : HookCache) :
    Scheduler Float DrainTick :=
  if records.drop cache.chunkSize = [] then cache.scheduler
  else (cache.scheduler.schedule clock .drain 0).2

/-- A replace on a store with all tables handles all records: the first chunk is written, the others are
queued. -/
theorem replaceStatic_holds {cache : HookCache} {generation : Text} {rows : List CacheRow}
    (hcache : cache.store.cache = some rows) (hschema : cache.store.HasSchema)
    (hfresh : cache.store.IsFresh generation) (clock : Float) {records : List HookRecord}
    (hfits : Store.FitsBatches cache.chunkSize records) :
    (cache.replaceStatic clock records generation).value = .ok records.length ∧
      ∃ store new chunks, new.map CacheRow.record =
          ((records.take cache.chunkSize).filter Store.isStorable).map HookRecord.stored ∧
        (cache.replaceStatic clock records generation).state =
          { cache with store, scheduler := cache.schedulerAfterReplace clock records } ∧
        Store.Holds generation store ((rows.filter fun row => !Store.isStaticRow row) ++ new) chunks
          (records.take cache.chunkSize)
          (chunksOf cache.chunkSize (records.drop cache.chunkSize)) := by
  obtain ⟨hvalue, new, hnew, hrows⟩ :=
    Store.replaceStatic_holds hcache hschema hfresh (hfits.take cache.chunkSize_pos)
  rw [replaceStatic, schedulerAfterReplace]
  dsimp only
  rw [hvalue]
  dsimp only
  by_cases hempty : records = []
  · rw [if_pos hempty]
    subst hempty
    rw [List.take_nil] at hnew hrows
    rw [List.drop_nil, List.take_nil, if_pos rfl, chunksOf_nil]
    exact ⟨rfl, _, new, [], hnew, rfl, hrows⟩
  rw [if_neg hempty]
  dsimp only
  rw [queueRemaining]
  by_cases hrest : records.drop cache.chunkSize = []
  · have hall : records.take cache.chunkSize = records :=
      List.take_of_length_le (List.drop_eq_nil_iff.mp hrest)
    rw [if_pos hrest, if_pos hrest, hrest, chunksOf_nil]
    refine ⟨?_, _, new, [], hnew, rfl, hrows⟩
    exact congrArg Except.ok (congrArg List.length hall)
  · obtain ⟨after, more, henqueue, hcache, hoptions, hnumbers, hchunks⟩ :=
      Store.enqueueChunks_holdsChunks hfits.drop hrows.holdsChunks
    rw [if_neg hrest, if_neg hrest, queueEntries]
    dsimp only
    rw [henqueue]
    refine ⟨?_, after, new, _, hnew, rfl, hrows.enqueue hcache hoptions hnumbers hchunks⟩
    dsimp only
    rw [← List.length_append, List.take_append_drop]
    rfl

/-- A replace on a store with all tables makes the store keep the records. -/
theorem replaceStatic_keeps {cache : HookCache} {generation : Text}
    (hschema : cache.store.HasSchema) (hfresh : cache.store.IsFresh generation) (clock : Float)
    {records : List HookRecord} (hfits : Store.FitsBatches cache.chunkSize records) :
    (cache.replaceStatic clock records generation).state.store.Keeps records generation := by
  obtain ⟨rows, hcache⟩ := hschema.cache_eq
  obtain ⟨-, store, new, chunks, -, hstate, hholds⟩ :=
    replaceStatic_holds hcache hschema hfresh clock hfits
  rw [hstate]
  refine ⟨_, chunks, _, _, hholds, ?_⟩
  rw [flatten_chunksOf cache.chunkSize_pos, List.take_append_drop]

end HookCache

end HookAtlas
