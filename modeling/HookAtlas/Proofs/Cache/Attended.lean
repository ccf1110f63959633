/-
# Queued chunks are attended to

`Store.Drainable` says of a store that its chunks can be drained one after the other, whichever scans they
belong to.  `HookCache.Attended` adds that a tick is pending as long as there are chunks.  Every operation of
a cache keeps this, and each says what becomes of the chunks: a drain takes the oldest one, and a replace
leaves those of its own records only.

Each tick takes one chunk and asks for the next tick while chunks remain.  So running ticks ends, after as
many runs as there are chunks, or after one where there are none.

A tick that raises asks for no other, so `Drainable` includes that the records of every chunk can be made a
batch.  Where a replace has queued others, the chunks behind are left without a tick
(`replaceStatic_strands`).
-/

import HookAtlas.Proofs.Cache.Drain
import HookAtlas.Proofs.Cache.Payloads
import HookAtlas.Proofs.Scheduler.Slot

namespace HookAtlas

namespace Store

/-- A store with all tables whose chunks hold records that can be read and made a batch. -/
structure Drainable (store : Store) (chunks : List QueueChunk) : Prop where
  cache_eq : ∃ rows, store.cache = some rows
  queue_eq : store.queue = some ⟨chunks, true⟩
  options_eq : ∃ options, store.options = some options
  readable : ∀ chunk ∈ chunks, ∃ records, chunk.records = .ok records ∧ fitsBatch records = true

namespace Drainable

variable {store after : Store} {chunks : List QueueChunk}

theorem hasSchema (hdrainable : store.Drainable chunks) : store.HasSchema :=
  ⟨hdrainable.cache_eq, ⟨chunks, hdrainable.queue_eq⟩, hdrainable.options_eq⟩

theorem allChunks_eq (hdrainable : store.Drainable chunks) : store.allChunks = .ok chunks := by
  rw [allChunks, hdrainable.queue_eq]

theorem chunkCount_eq (hdrainable : store.Drainable chunks) :
    store.chunkCount = .ok chunks.length := by
  rw [chunkCount, hdrainable.queue_eq]

/-- A new generation is one that no chunk belongs to. -/
theorem isFresh {generation : Text} (hdrainable : store.Drainable chunks)
    (hnew : ∀ chunk ∈ chunks, chunk.generation ≠ generation) : store.IsFresh generation := by
  intro table htable
  rw [hdrainable.queue_eq, Option.some.injEq] at htable
  rw [← htable]
  exact hnew

/-- What holds the records of a scan can be drained. -/
theorem of_holds {generation : Text} {rows : List CacheRow} {written : List HookRecord}
    {queued : List (List HookRecord)} (hholds : Holds generation store rows chunks written queued) :
    store.Drainable chunks where
  cache_eq := ⟨rows, hholds.holdsRows.cache_eq⟩
  queue_eq := hholds.holdsChunks.queue_eq
  options_eq := by
    have hvalid := hholds.valid
    rw [getOption] at hvalid
    split at hvalid
    · cases hvalid
    · next options hoptions => exact ⟨options, hoptions⟩
  readable := by
    intro chunk hmem
    have hrecords : chunk.records ∈ queued.map Except.ok := by
      rw [← hholds.holdsChunks.records_eq]
      exact List.mem_map_of_mem hmem
    obtain ⟨records, hqueued, heq⟩ := List.mem_map.mp hrecords
    exact ⟨records, heq.symm, hholds.holdsChunks.fits records hqueued⟩

/-- Inserting rows does not concern the chunks. -/
theorem insert {group : Option Text} {records : List HookRecord} {rows new : List CacheRow}
    (hdrainable : store.Drainable chunks) (hinserts : Inserts group records rows new store after) :
    after.Drainable chunks where
  cache_eq := ⟨rows ++ new, hinserts.cache_eq⟩
  queue_eq := hinserts.queue_eq.trans hdrainable.queue_eq
  options_eq := by
    rw [hinserts.options_eq]
    exact hdrainable.options_eq
  readable := hdrainable.readable

theorem insertBatch (hdrainable : store.Drainable chunks) (records : List HookRecord)
    (group : Option Text) : (store.insertBatch records group).state.Drainable chunks := by
  obtain ⟨rows, hcache⟩ := hdrainable.cache_eq
  cases hfits : fitsBatch records with
  | false =>
      rw [insertBatch_of_overflow hfits]
      exact hdrainable
  | true =>
      obtain ⟨new, hinserts⟩ := insertBatch_inserts hcache hfits group
      exact hdrainable.insert hinserts

/-- Setting an option does not concern the chunks. -/
theorem setOption (hdrainable : store.Drainable chunks) (name : Text) (value : Option Text) :
    ((store.setOption name value).2).Drainable chunks := by
  obtain ⟨options, hoptions⟩ := hdrainable.options_eq
  rw [Store.setOption, hoptions]
  exact ⟨hdrainable.cache_eq, hdrainable.queue_eq, ⟨_, rfl⟩, hdrainable.readable⟩

/-- Closing the store and opening it again concerns its numbers only. -/
theorem reopen (hdrainable : store.Drainable chunks) :
    store.reopen.createMissingTables.Drainable chunks := by
  have hreopen : store.reopen.Drainable chunks := by
    rw [Store.reopen]
    split
    · exact ⟨hdrainable.cache_eq, hdrainable.queue_eq, hdrainable.options_eq, hdrainable.readable⟩
    · exact ⟨hdrainable.cache_eq, hdrainable.queue_eq, hdrainable.options_eq, hdrainable.readable⟩
  obtain ⟨⟨rows, hcache⟩, hqueue, ⟨options, hoptions⟩, hreadable⟩ := hreopen
  rw [createMissingTables, hcache, hqueue, hoptions]
  exact ⟨⟨rows, rfl⟩, rfl, ⟨options, rfl⟩, hreadable⟩

/-- Writing a chunk that was taken does not concern the others, whether it is discarded or not. -/
theorem writeChunk {chunk : QueueChunk} {records : List HookRecord}
    (hdrainable : store.Drainable chunks) (hrecords : chunk.records = .ok records)
    (hfits : fitsBatch records = true) :
    (HookCache.writeChunk chunk store).value = .taken ∧
      (HookCache.writeChunk chunk store).state.Drainable chunks := by
  obtain ⟨options, hoptions⟩ := hdrainable.options_eq
  have hread : ∃ current, store.getOption generationOption none = .ok current := by
    rw [getOption, hoptions]
    dsimp only
    split
    · exact ⟨_, rfl⟩
    · exact ⟨_, rfl⟩
  obtain ⟨current, hcurrent⟩ := hread
  rw [HookCache.writeChunk, hcurrent]
  dsimp only
  split
  · exact ⟨rfl, hdrainable⟩
  · have hafter := hdrainable.insertBatch records (some chunk.generation)
    obtain ⟨inserted, hvalue⟩ := exists_value_insertBatch hfits (some chunk.generation) store
    rw [hrecords]
    dsimp only
    rw [hvalue]
    exact ⟨rfl, hafter⟩

/-- A drain takes the oldest chunk, where there is one. -/
theorem popAndWrite (hdrainable : store.Drainable chunks) :
    (HookCache.popAndWrite store).value = (if chunks = [] then .nothingQueued else .taken) ∧
      (HookCache.popAndWrite store).state.Drainable chunks.tail := by
  cases chunks with
  | nil =>
      rw [HookCache.popAndWrite, popOldest_nil hdrainable.queue_eq]
      exact ⟨rfl, hdrainable⟩
  | cons chunk chunks =>
      obtain ⟨records, hrecords, hfits⟩ := hdrainable.readable chunk List.mem_cons_self
      obtain ⟨popped, hpop, hqueue, hcache, hoptions, -, -⟩ := popOldest_cons hdrainable.queue_eq
      have hpopped : popped.Drainable chunks := {
        cache_eq := by rw [hcache]; exact hdrainable.cache_eq
        queue_eq := hqueue
        options_eq := by rw [hoptions]; exact hdrainable.options_eq
        readable := fun other hmem => hdrainable.readable other (List.mem_cons_of_mem chunk hmem) }
      rw [HookCache.popAndWrite, hpop]
      exact hpopped.writeChunk hrecords hfits

end Drainable

end Store

namespace HookCache

variable {cache : HookCache} {chunks : List QueueChunk}

/-- The chunks of a cache can be drained, no drain is under way, and a tick is pending if there are
chunks. -/
structure Attended (cache : HookCache) (chunks : List QueueChunk) : Prop where
  drainable : cache.store.Drainable chunks
  isDraining_eq : cache.isDraining = false
  isPending_of_ne_nil : chunks ≠ [] → cache.scheduler.isPending = true

/-! ## One drain -/

/-- After a drain a tick is asked for where chunks remain. -/
theorem scheduleNext_of_drainable (cache : HookCache) (hdrainable : cache.store.Drainable chunks)
    (clock : Float) : cache.scheduleNext clock = ({ cache with
      scheduler := if chunks = [] then cache.scheduler
        else (cache.scheduler.schedule clock .drain cache.drainDelay).2 }, []) := by
  rw [scheduleNext, pendingChunks, hdrainable.chunkCount_eq]
  dsimp only
  cases chunks with
  | nil => rfl
  | cons chunk chunks => rfl

/-- A drain takes the oldest chunk and answers whether there was one. -/
theorem drainOne_of_drainable (hdrainable : cache.store.Drainable chunks)
    (hfree : cache.isDraining = false) (clock : Float) :
    (cache.drainOne clock).value = .ok (decide (chunks ≠ [])) ∧
      ∃ store, store.Drainable chunks.tail ∧ (cache.drainOne clock).state =
        { cache with
          store
          scheduler := if chunks.tail = [] then cache.scheduler
            else (cache.scheduler.schedule clock .drain cache.drainDelay).2 } := by
  obtain ⟨hvalue, hstate⟩ := hdrainable.popAndWrite
  have hnext := scheduleNext_of_drainable { cache with store := (popAndWrite cache.store).state }
    hstate clock
  rw [drainOne, if_neg (by rw [hfree]; exact Bool.false_ne_true)]
  dsimp only
  rw [hvalue, hnext]
  by_cases hempty : chunks = []
  · rw [if_pos hempty, decide_eq_false (not_not_intro hempty)]
    exact ⟨rfl, _, hstate, rfl⟩
  · rw [if_neg hempty, decide_eq_true hempty]
    exact ⟨rfl, _, hstate, rfl⟩

/-- The tick that a drain asks for is pending where chunks remain. -/
theorem attended_drainOne (hdrainable : cache.store.Drainable chunks)
    (hfree : cache.isDraining = false) (clock : Float) :
    (cache.drainOne clock).state.Attended chunks.tail := by
  obtain ⟨-, store, hstore, hstate⟩ := drainOne_of_drainable hdrainable hfree clock
  rw [hstate]
  refine ⟨hstore, hfree, fun hremain => ?_⟩
  dsimp only
  rw [if_neg hremain]
  exact Scheduler.isPending_schedule _ _ _ _

/-! ## The pending tick -/

/-- A tick that was taken from the slot is pending again exactly if chunks remain. -/
theorem attended_runTick (cache : HookCache) (hdrainable : cache.store.Drainable chunks)
    (hfree : cache.isDraining = false) (clock : Float) :
    (cache.runTick clock).state.Attended chunks.tail ∧
      (cache.scheduler.isPending = false →
        ((cache.runTick clock).state.scheduler.isPending = true ↔ chunks.tail ≠ [])) := by
  obtain ⟨-, store, -, hstate⟩ := drainOne_of_drainable hdrainable hfree clock
  have hattended := attended_drainOne hdrainable hfree clock
  rw [state_runTick]
  refine ⟨hattended, fun hempty => ⟨?_, hattended.isPending_of_ne_nil⟩⟩
  rw [hstate]
  dsimp only
  intro hpending hnone
  rw [if_pos hnone, hempty] at hpending
  cases hpending

/-- The host runs the pending tick, or its timer fires.  It takes the oldest chunk, and a tick is pending
afterwards exactly if chunks remain. -/
theorem attended_runNow (hattended : cache.Attended chunks)
    (hpending : cache.scheduler.isPending = true) (clock : Float) :
    (cache.runNow clock).state.Attended chunks.tail ∧
      ((cache.runNow clock).state.scheduler.isPending = true ↔ chunks.tail ≠ []) := by
  obtain ⟨task, scheduler, htake, hempty⟩ := Scheduler.takeNow?_of_isPending hpending
  obtain ⟨hafter, hiff⟩ := attended_runTick { cache with scheduler } hattended.drainable
    hattended.isDraining_eq clock
  rw [runNow, htake]
  exact ⟨hafter, hiff hempty⟩

theorem runNow_of_not_isPending (hempty : cache.scheduler.isPending = false) (clock : Float) :
    (cache.runNow clock).state = cache := by
  rw [runNow, Scheduler.takeNow?_of_not_isPending hempty]

/-- The host runs the pending tick if its time has come. -/
theorem exists_attended_runDue (hattended : cache.Attended chunks) (clock : Float) :
    ∃ remaining, remaining ⊆ chunks ∧ (cache.runDue clock).state.Attended remaining := by
  rw [runDue]
  split
  · exact ⟨chunks, List.Subset.refl chunks, hattended⟩
  · next scheduler _ =>
      exact ⟨chunks.tail, List.tail_subset chunks, (attended_runTick { cache with scheduler }
        hattended.drainable hattended.isDraining_eq clock).1⟩

/-- A drain of records that no batch can be made of takes their chunk and raises.  Nobody asks for a tick then,
whatever is queued behind it. -/
theorem drainOne_of_overflow {chunk : QueueChunk} {records : List HookRecord}
    (hfree : cache.isDraining = false) (hqueue : cache.store.queue = some ⟨chunk :: chunks, true⟩)
    (hvalid : cache.store.getOption generationOption none = .ok (some chunk.generation))
    (hrecords : chunk.records = .ok records) (hoverflow : Store.fitsBatch records = false)
    (clock : Float) :
    (cache.drainOne clock).value = .error (.store .lineOverflow) ∧
      (cache.drainOne clock).state.store.allChunks = .ok chunks ∧
      (cache.drainOne clock).state.scheduler = cache.scheduler := by
  obtain ⟨popped, hpop, hrest, -, hoptions, -, -⟩ := Store.popOldest_cons hqueue
  have hread : popped.getOption generationOption none = .ok (some chunk.generation) :=
    (Store.getOption_of_eq hoptions _ _).trans hvalid
  have hwritten : popAndWrite cache.store = ⟨.raised (.store .lineOverflow), popped, []⟩ := by
    rw [popAndWrite, hpop]
    dsimp only
    rw [writeChunk, hread]
    dsimp only
    rw [if_neg (not_not_intro rfl), hrecords]
    dsimp only
    rw [Store.insertBatch_of_overflow hoverflow]
  rw [drainOne, if_neg (by rw [hfree]; exact Bool.false_ne_true), hwritten]
  refine ⟨rfl, ?_, rfl⟩
  dsimp only
  rw [Store.allChunks, hrest]

/-! ## Other operations -/

theorem Attended.insertBatch (hattended : cache.Attended chunks) (records : List HookRecord)
    (group : Option Text) : (cache.insertBatch records group).state.Attended chunks :=
  ⟨hattended.drainable.insertBatch records group, hattended.isDraining_eq,
    hattended.isPending_of_ne_nil⟩

/-- A replace leaves the chunks of its own records, and a tick is pending if there are some. -/
theorem attended_replaceStatic {generation : Text} (hattended : cache.Attended chunks)
    (hnew : ∀ chunk ∈ chunks, chunk.generation ≠ generation) (clock : Float) {records : List HookRecord}
    (hfits : Store.FitsBatches cache.chunkSize records) :
    ∃ queued, (cache.replaceStatic clock records generation).state.Attended queued ∧
      (∀ chunk ∈ queued, chunk.generation = generation) ∧
      queued.length = (records.length - cache.chunkSize) ⌈/⌉ cache.chunkSize := by
  obtain ⟨rows, hcache⟩ := hattended.drainable.cache_eq
  obtain ⟨-, store, new, queued, -, hstate, hholds⟩ := replaceStatic_holds hcache
    hattended.drainable.hasSchema (hattended.drainable.isFresh hnew) clock hfits
  have hlength : queued.length =
      (chunksOf cache.chunkSize (records.drop cache.chunkSize)).length := by
    have hrecords := congrArg List.length hholds.holdsChunks.records_eq
    rwa [List.length_map, List.length_map] at hrecords
  rw [hstate]
  refine ⟨queued, ⟨.of_holds hholds, hattended.isDraining_eq, ?_⟩,
    hholds.holdsChunks.generation_eq, ?_⟩
  · intro hqueued
    have hrest : records.drop cache.chunkSize ≠ [] := by
      intro hrest
      rw [hrest, chunksOf_nil, List.length_nil, List.length_eq_zero_iff] at hlength
      exact hqueued hlength
    dsimp only
    rw [schedulerAfterReplace, if_neg hrest]
    exact Scheduler.isPending_schedule _ _ _ _
  · rw [hlength, length_chunksOf cache.chunkSize_pos, List.length_drop]

/-- A replace whose first chunk can be made a batch and whose other records can be written queues the other
chunks and asks for a tick, whether these can be made batches or not. -/
theorem replaceStatic_queues {generation : Text} (hschema : cache.store.HasSchema)
    (hfresh : cache.store.IsFresh generation) (clock : Float) {records : List HookRecord}
    (hfits : Store.fitsBatch (records.take cache.chunkSize) = true)
    (hwritable : ∀ record ∈ records.drop cache.chunkSize, record.isWritable = true)
    (hrest : records.drop cache.chunkSize ≠ []) :
    ∃ queued, (cache.replaceStatic clock records generation).state.store.queue = some ⟨queued, true⟩ ∧
      queued.map QueueChunk.records =
        (chunksOf cache.chunkSize (records.drop cache.chunkSize)).map .ok ∧
      (∀ chunk ∈ queued, chunk.generation = generation) ∧
      (cache.replaceStatic clock records generation).state.store.getOption generationOption none =
        .ok (some generation) ∧
      (cache.replaceStatic clock records generation).state.isDraining = cache.isDraining ∧
      (cache.replaceStatic clock records generation).state.scheduler.isPending = true := by
  obtain ⟨rows, hcache⟩ := hschema.cache_eq
  obtain ⟨hvalue, new, -, hholds⟩ := Store.replaceStatic_holds hcache hschema hfresh hfits
  have hrecords : records ≠ [] := by
    rintro rfl
    exact hrest List.drop_nil
  obtain ⟨answer, after, queued, henqueue, happends, houtcome⟩ :=
    Store.enqueueChunks_cases generation (chunksOf cache.chunkSize (records.drop cache.chunkSize))
      (cache.store.replaceStatic (records.take cache.chunkSize) generation).state
  have hbefore := hholds.holdsChunks.queue_eq
  rw [replaceStatic]
  dsimp only
  rw [hvalue]
  dsimp only
  rw [if_neg hrecords, queueRemaining, if_neg hrest, queueEntries]
  dsimp only
  rw [henqueue]
  rcases houtcome with ⟨rfl, hlength, -⟩ | ⟨rfl, piece, hpiece, record, hmem, hlong⟩ |
    ⟨error, -, -, -, hnone⟩
  · dsimp only [Except.map]
    refine ⟨queued, ?_, ?_, happends.generation_eq, ?_, rfl, Scheduler.isPending_schedule _ _ _ _⟩
    · rw [store_scheduleDrain, happends.queue_eq, hbefore]
      rfl
    · rw [happends.records_eq, hlength, List.take_length]
    · rw [store_scheduleDrain, Store.getOption_of_eq happends.options_eq]
      exact hholds.valid
  · rw [hwritable record (mem_of_mem_chunksOf hpiece hmem)] at hlong
    cases hlong
  · exact absurd hbefore (hnone _)

/-- Where no batch can be made of the second chunk, the next tick raises, and the chunks behind it are left
without one. -/
theorem replaceStatic_strands {generation : Text} (hschema : cache.store.HasSchema)
    (hfresh : cache.store.IsFresh generation) (hfree : cache.isDraining = false) (clock : Float)
    {records piece : List HookRecord} {pieces : List (List HookRecord)}
    (hfits : Store.fitsBatch (records.take cache.chunkSize) = true)
    (hwritable : ∀ record ∈ records.drop cache.chunkSize, record.isWritable = true)
    (hpieces : chunksOf cache.chunkSize (records.drop cache.chunkSize) = piece :: pieces)
    (hoverflow : Store.fitsBatch piece = false) (later : Float) :
    ∃ left, left.map QueueChunk.records = pieces.map .ok ∧
      let after := ((cache.replaceStatic clock records generation).state.runNow later).state
      after.store.allChunks = .ok left ∧ after.scheduler.isPending = false := by
  have hrest : records.drop cache.chunkSize ≠ [] := by
    intro hnone
    rw [hnone, chunksOf_nil] at hpieces
    cases hpieces
  obtain ⟨queued, hqueue, hrecords, hgeneration, hvalid, hdraining, hpending⟩ :=
    replaceStatic_queues hschema hfresh clock hfits hwritable hrest
  rw [hpieces, List.map_cons] at hrecords
  obtain ⟨chunk, left, rfl, hchunk, hleft⟩ := List.map_eq_cons_iff.mp hrecords
  obtain ⟨task, scheduler, htake, hempty⟩ := Scheduler.takeNow?_of_isPending hpending
  have hcurrent := hgeneration chunk List.mem_cons_self
  subst hcurrent
  let ticking : HookCache := { (cache.replaceStatic clock records chunk.generation).state with scheduler }
  have hfree' : ticking.isDraining = false := hdraining.trans hfree
  obtain ⟨-, hchunks, hscheduler⟩ :=
    drainOne_of_overflow hfree' hqueue hvalid hchunk hoverflow later
  rw [runNow, htake]
  dsimp only
  rw [state_runTick, hscheduler]
  exact ⟨left, hleft, hchunks, hempty⟩

/-! ## Running ticks until none is pending -/

/-- From a state with a pending tick the ticks end after as many runs as there are chunks, or after one where
there are none.  Each takes the oldest chunk. -/
theorem run_runNow (hattended : cache.Attended chunks)
    (hpending : cache.scheduler.isPending = true) (clocks : List Float)
    (hcount : clocks.length ≤ max 1 chunks.length) :
    (run (clocks.map .runNow) cache).Attended (chunks.drop clocks.length) ∧
      ((run (clocks.map .runNow) cache).scheduler.isPending = true ↔
        clocks.length < max 1 chunks.length) := by
  induction clocks generalizing cache chunks with
  | nil => exact ⟨hattended, iff_of_true hpending (by rw [List.length_nil]; omega)⟩
  | cons clock clocks ih =>
      obtain ⟨hafter, hiff⟩ := attended_runNow hattended hpending clock
      have htail : chunks.tail.length = chunks.length - 1 := List.length_tail
      rw [List.length_cons] at hcount ⊢
      rw [List.map_cons, run, List.foldl_cons, ← run, ← List.drop_tail]
      cases clocks with
      | nil =>
          refine ⟨hafter, hiff.trans ?_⟩
          rw [← List.length_pos_iff, htail, List.length_nil]
          omega
      | cons next clocks =>
          rw [List.length_cons] at hcount
          have hremain : chunks.tail ≠ [] := by
            rw [← List.length_pos_iff, htail]
            omega
          have hrest := ih hafter (hiff.mpr hremain) (by rw [htail, List.length_cons]; omega)
          refine ⟨hrest.1, hrest.2.trans ?_⟩
          rw [htail]
          omega

end HookCache

end HookAtlas
