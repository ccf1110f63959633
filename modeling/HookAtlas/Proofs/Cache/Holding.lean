/-
# Where the records of a replace are

Between a replace and the next one the records of the scan are spread over two tables: a first part was
written as rows, the rest waits in chunks.  `Store.Holds` names the two parts, and says that rows and
chunks carry the generation of the scan and stand in the order of their numbers.  `Store.Keeps` says that
the two parts make up the records of the scan.

The parts are kept apart in the lemmas.  Inserting rows concerns `HoldsRows` only and appends to what was
written; taking and appending a chunk concern `HoldsChunks` only.  Records that were observed at run time
never count, so inserting such records changes neither part.

Every queued list of records is one that a batch can be made of.  Else the drain that takes it would raise, and
its records would be in neither part.
-/

import HookAtlas.Proofs.Hook.Payload
import HookAtlas.Proofs.Store.Insert

namespace HookAtlas

/-- The records that count: found in the source, with a name and with a line that fits its column. -/
def HookRecord.isStorableStatic (record : HookRecord) : Bool :=
  Store.isStorable record && record.detectionMethod = .static

namespace Store

/-- All tables are there, and the payload column has the name that statements use. -/
structure HasSchema (store : Store) : Prop where
  cache_eq : ∃ rows, store.cache = some rows
  queue_eq : ∃ chunks, store.queue = some ⟨chunks, true⟩
  options_eq : ∃ options, store.options = some options

/-- The static rows of a store are those of the written records that count.  They belong to a generation
and stand in the order of their numbers. -/
structure HoldsRows (generation : Text) (store : Store) (rows : List CacheRow)
    (written : List HookRecord) : Prop where
  cache_eq : store.cache = some rows
  record_eq : (rows.filter isStaticRow).map CacheRow.record =
    (written.filter HookRecord.isStorableStatic).map HookRecord.stored
  generation_eq : ∀ row ∈ rows, isStaticRow row = true → row.generation = some generation
  id_lt_nextRowId : ∀ row ∈ rows, isStaticRow row = true → row.id < store.nextRowId
  ids_increase : (rows.filter isStaticRow).Pairwise fun row other => row.id < other.id

/-- The chunks of a store belong to a generation, stand in the order of their numbers, and hold lists of
records that can be read and written as batches. -/
structure HoldsChunks (generation : Text) (store : Store) (chunks : List QueueChunk)
    (queued : List (List HookRecord)) : Prop where
  queue_eq : store.queue = some ⟨chunks, true⟩
  records_eq : chunks.map QueueChunk.records = queued.map Except.ok
  fits : ∀ piece ∈ queued, fitsBatch piece = true
  generation_eq : ∀ chunk ∈ chunks, chunk.generation = generation
  id_lt_nextChunkId : ∀ chunk ∈ chunks, chunk.id < store.nextChunkId
  ids_increase : chunks.Pairwise fun chunk other => chunk.id < other.id

/-- A store holds written records in its rows and queued ones in its chunks, and the generation of both
is the valid one. -/
structure Holds (generation : Text) (store : Store) (rows : List CacheRow)
    (chunks : List QueueChunk) (written : List HookRecord) (queued : List (List HookRecord)) :
    Prop where
  holdsRows : HoldsRows generation store rows written
  holdsChunks : HoldsChunks generation store chunks queued
  valid : store.getOption generationOption none = .ok (some generation)

/-- A store keeps the records of a scan: some were written, and the others are queued. -/
def Keeps (records : List HookRecord) (generation : Text) (store : Store) : Prop :=
  ∃ rows chunks written queued,
    Holds generation store rows chunks written queued ∧ records = written ++ queued.flatten

variable {generation : Text} {store after : Store}

/-! ## Inserting rows -/

/-- The static rows among new ones are those of the records that count. -/
theorem Inserts.static_record_eq {group : Option Text} {records : List HookRecord}
    {rows new : List CacheRow} (hinserts : Inserts group records rows new store after) :
    (new.filter isStaticRow).map CacheRow.record =
      (records.filter HookRecord.isStorableStatic).map HookRecord.stored := by
  let isStatic (record : HookRecord) : Bool := record.detectionMethod = .static
  have hfilter : (new.map CacheRow.record).filter isStatic = (new.filter isStaticRow).map CacheRow.record :=
    List.filter_map
  have hstored : ((records.filter isStorable).map HookRecord.stored).filter isStatic =
      ((records.filter isStorable).filter isStatic).map HookRecord.stored := List.filter_map
  rw [← hfilter, hinserts.record_eq, hstored, List.filter_filter]
  refine congrArg (List.map HookRecord.stored) (List.filter_congr fun record _ => ?_)
  rw [HookRecord.isStorableStatic, Bool.and_comm]

/-- New rows go behind the static rows that a store holds.  Their generation has to be the valid one,
unless none of them is static. -/
theorem HoldsRows.insert {group : Option Text} {written records : List HookRecord}
    {rows new : List CacheRow} (hrows : HoldsRows generation store rows written)
    (hinserts : Inserts group records rows new store after)
    (hgroup : group = some generation ∨ ∀ record ∈ records, record.detectionMethod ≠ .static) :
    HoldsRows generation after (rows ++ new) (written ++ records) where
  cache_eq := hinserts.cache_eq
  record_eq := by
    rw [List.filter_append, List.map_append, hrows.record_eq, hinserts.static_record_eq,
      List.filter_append, List.map_append]
  generation_eq := by
    intro row hmem hstatic
    rcases List.mem_append.mp hmem with hmem | hmem
    · exact hrows.generation_eq row hmem hstatic
    · rcases hgroup with hvalid | hruntime
      · rw [hinserts.generation_eq row hmem, hvalid]
      · obtain ⟨record, hrecord, hstored⟩ := hinserts.exists_record hmem
        rw [isStaticRow, ← hstored] at hstatic
        exact absurd (of_decide_eq_true hstatic) (hruntime record hrecord)
  id_lt_nextRowId := by
    intro row hmem hstatic
    rcases List.mem_append.mp hmem with hmem | hmem
    · exact Nat.lt_of_lt_of_le (hrows.id_lt_nextRowId row hmem hstatic) hinserts.nextRowId_le
    · exact hinserts.id_lt_nextRowId row hmem
  ids_increase := by
    rw [List.filter_append, List.pairwise_append]
    refine ⟨hrows.ids_increase, hinserts.ids_increase.filter _, ?_⟩
    intro row hrow other hother
    obtain ⟨hmem, hstatic⟩ := List.mem_filter.mp hrow
    exact Nat.lt_of_lt_of_le (hrows.id_lt_nextRowId row hmem hstatic)
      (hinserts.nextRowId_le_id other (List.mem_filter.mp hother).1)

/-- Rows of records that do not count leave what was written as it is. -/
theorem HoldsRows.insert_runtime {group : Option Text} {written observed : List HookRecord}
    {rows new : List CacheRow} (hrows : HoldsRows generation store rows written)
    (hinserts : Inserts group observed rows new store after)
    (hruntime : ∀ record ∈ observed, record.detectionMethod ≠ .static) :
    HoldsRows generation after (rows ++ new) written := by
  have hall := hrows.insert hinserts (.inr hruntime)
  have hnone : observed.filter HookRecord.isStorableStatic = [] := by
    rw [List.filter_eq_nil_iff]
    intro record hmem hcounts
    rw [HookRecord.isStorableStatic, Bool.and_eq_true] at hcounts
    exact hruntime record hmem (of_decide_eq_true hcounts.2)
  have hwritten : (written ++ observed).filter HookRecord.isStorableStatic =
      written.filter HookRecord.isStorableStatic := by
    rw [List.filter_append, hnone, List.append_nil]
  exact { hall with record_eq := hall.record_eq.trans (congrArg (List.map HookRecord.stored) hwritten) }

/-- Rows are not touched where neither their table nor their numbers are. -/
theorem HoldsRows.of_eq {rows : List CacheRow} {written : List HookRecord}
    (hrows : HoldsRows generation store rows written)
    (hcache : after.cache = store.cache) (hnumbers : after.nextRowId = store.nextRowId) :
    HoldsRows generation after rows written where
  cache_eq := hcache.trans hrows.cache_eq
  record_eq := hrows.record_eq
  generation_eq := hrows.generation_eq
  id_lt_nextRowId := by
    rw [hnumbers]
    exact hrows.id_lt_nextRowId
  ids_increase := hrows.ids_increase

/-- Chunks are not touched where neither their table nor their numbers are. -/
theorem HoldsChunks.of_eq {chunks : List QueueChunk} {queued : List (List HookRecord)}
    (hchunks : HoldsChunks generation store chunks queued) (hqueue : after.queue = store.queue)
    (hnumbers : after.nextChunkId = store.nextChunkId) :
    HoldsChunks generation after chunks queued where
  queue_eq := hqueue.trans hchunks.queue_eq
  records_eq := hchunks.records_eq
  fits := hchunks.fits
  generation_eq := hchunks.generation_eq
  id_lt_nextChunkId := by
    rw [hnumbers]
    exact hchunks.id_lt_nextChunkId
  ids_increase := hchunks.ids_increase

/-- Options are read off their table alone. -/
theorem getOption_of_eq (hoptions : after.options = store.options) (name : Text)
    (default : Option Text) : after.getOption name default = store.getOption name default := by
  rw [getOption, getOption, hoptions]

/-! ## Taking and appending chunks -/

/-- Taking the oldest chunk leaves the others. -/
theorem HoldsChunks.tail {chunk : QueueChunk} {chunks : List QueueChunk}
    {written : List HookRecord} {queued : List (List HookRecord)}
    (hchunks : HoldsChunks generation store (chunk :: chunks) (written :: queued))
    (hqueue : after.queue = some ⟨chunks, true⟩) (hnumbers : after.nextChunkId = store.nextChunkId) :
    HoldsChunks generation after chunks queued where
  queue_eq := hqueue
  records_eq := (List.cons.inj hchunks.records_eq).2
  fits := fun piece hmem => hchunks.fits piece (List.mem_cons_of_mem written hmem)
  generation_eq := fun other hmem => hchunks.generation_eq other (List.mem_cons_of_mem chunk hmem)
  id_lt_nextChunkId := by
    rw [hnumbers]
    exact fun other hmem => hchunks.id_lt_nextChunkId other (List.mem_cons_of_mem chunk hmem)
  ids_increase := hchunks.ids_increase.tail

/-- A new chunk goes behind the others and holds the records that it was made of. -/
theorem enqueueRecords_holdsChunks {chunks : List QueueChunk} {queued : List (List HookRecord)}
    (hchunks : HoldsChunks generation store chunks queued) {records : List HookRecord}
    (hfits : fitsBatch records = true) :
    ∃ after payload, enqueueRecords generation records store = (.ok (), after) ∧
      after.cache = store.cache ∧ after.options = store.options ∧
      after.nextRowId = store.nextRowId ∧
      HoldsChunks generation after (chunks ++ [⟨store.nextChunkId, generation, payload⟩])
        (queued ++ [records]) := by
  obtain ⟨payload, hpayload⟩ := QueueChunk.exists_payload?_of_fitsBatch hfits
  rw [enqueueRecords, hpayload]
  dsimp only
  rw [enqueue, hchunks.queue_eq]
  dsimp only
  rw [if_pos rfl]
  refine ⟨_, payload, rfl, rfl, rfl, rfl, ?_⟩
  exact {
    queue_eq := rfl
    records_eq := by
      rw [List.map_append, List.map_append, hchunks.records_eq, List.map_singleton,
        List.map_singleton, QueueChunk.records_of_payload? hpayload]
    fits := by
      intro piece hmem
      rcases List.mem_append.mp hmem with hmem | hmem
      · exact hchunks.fits piece hmem
      · rw [List.mem_singleton.mp hmem]
        exact hfits
    generation_eq := by
      intro chunk hmem
      rcases List.mem_append.mp hmem with hmem | hmem
      · exact hchunks.generation_eq chunk hmem
      · rw [List.mem_singleton.mp hmem]
    id_lt_nextChunkId := by
      intro chunk hmem
      rcases List.mem_append.mp hmem with hmem | hmem
      · exact Nat.lt_succ_of_lt (hchunks.id_lt_nextChunkId chunk hmem)
      · rw [List.mem_singleton.mp hmem]
        exact Nat.lt_succ_self _
    ids_increase := by
      rw [List.pairwise_append]
      refine ⟨hchunks.ids_increase, List.pairwise_singleton _ _, ?_⟩
      intro chunk hmem other hother
      rw [List.mem_singleton.mp hother]
      exact hchunks.id_lt_nextChunkId chunk hmem }

/-- Chunks of records are appended one after the other. -/
theorem enqueueChunks_holdsChunks {pieces : List (List HookRecord)}
    (hfits : ∀ piece ∈ pieces, fitsBatch piece = true) {store : Store}
    {chunks : List QueueChunk} {queued : List (List HookRecord)}
    (hchunks : HoldsChunks generation store chunks queued) :
    ∃ after more, enqueueChunks generation pieces store = (.ok (), after) ∧
      after.cache = store.cache ∧ after.options = store.options ∧
      after.nextRowId = store.nextRowId ∧
      HoldsChunks generation after (chunks ++ more) (queued ++ pieces) := by
  induction pieces generalizing store chunks queued with
  | nil =>
      refine ⟨store, [], rfl, rfl, rfl, rfl, ?_⟩
      rw [List.append_nil, List.append_nil]
      exact hchunks
  | cons piece pieces ih =>
      obtain ⟨hpiece, hothers⟩ := List.forall_mem_cons.mp hfits
      obtain ⟨middle, payload, henqueue, hcache, hoptions, hnumbers, hmiddle⟩ :=
        enqueueRecords_holdsChunks hchunks hpiece
      obtain ⟨after, more, hrest, hcache', hoptions', hnumbers', hafter⟩ := ih hothers hmiddle
      rw [List.append_assoc, List.append_assoc] at hafter
      refine ⟨after, _, ?_, hcache'.trans hcache, hoptions'.trans hoptions,
        hnumbers'.trans hnumbers, hafter⟩
      rw [enqueueChunks, henqueue]
      exact hrest

end Store

end HookAtlas
