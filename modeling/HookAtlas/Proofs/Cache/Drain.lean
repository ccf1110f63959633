/-
# Nothing is lost while the queue drains

After a replace the records are spread over rows and chunks.  Then ticks come, from the scheduler or by
hand; ticks are asked for and cancelled; records that were observed at run time are inserted; and the
write path is given up and built anew on the same store.  Whatever the order, the store goes on keeping
the records of the replace.

A drain is the only operation that moves records.  It takes the oldest chunk, whose records come next
after those that were written, and writes them; so the records are cut at another place, but stay the
same.
-/

import HookAtlas.Proofs.Cache.Replace

namespace HookAtlas

namespace Store

variable {store : Store} {chunk : QueueChunk} {chunks : List QueueChunk}

/-! ## Draining one chunk -/

theorem popOldest_nil (hqueue : store.queue = some ⟨[], true⟩) :
    popOldest store = (.ok none, store) := by
  rw [popOldest, hqueue]
  rfl

/-- The oldest chunk is taken off the queue, and nothing else changes. -/
theorem popOldest_cons (hqueue : store.queue = some ⟨chunk :: chunks, true⟩) :
    ∃ popped, popOldest store = (.ok (some chunk), popped) ∧
      popped.queue = some ⟨chunks, true⟩ ∧ popped.cache = store.cache ∧
      popped.options = store.options ∧ popped.nextRowId = store.nextRowId ∧
      popped.nextChunkId = store.nextChunkId := by
  rw [popOldest, hqueue]
  exact ⟨_, rfl, rfl, rfl, rfl, rfl, rfl⟩

/-! ## What can be read off the tables -/

/-- The rows and the chunks of a store account for the records of a scan. -/
structure AccountsFor (records : List HookRecord) (generation : Text) (store : Store)
    (rows : List CacheRow) (chunks : List QueueChunk) (queued : List (List HookRecord)) : Prop where
  allRows_eq : store.allRows = .ok rows
  allChunks_eq : store.allChunks = .ok chunks
  /-- The generation is the valid one. -/
  valid : store.getOption generationOption none = .ok (some generation)
  /-- Every chunk can be read. -/
  queued_eq : chunks.map QueueChunk.records = queued.map Except.ok
  /-- The static rows, followed by what is queued, are the records of the scan in their order, as far as
  they count.  None is lost or doubled. -/
  records_eq : (rows.filter isStaticRow).map CacheRow.record ++
      (queued.flatten.filter HookRecord.isStorableStatic).map HookRecord.stored =
    (records.filter HookRecord.isStorableStatic).map HookRecord.stored
  /-- What is queued is the end of the records of the scan. -/
  queued_suffix : queued.flatten <:+ records
  /-- No static row is stale, and no chunk is. -/
  row_generation_eq : ∀ row ∈ rows, isStaticRow row = true → row.generation = some generation
  chunk_generation_eq : ∀ chunk ∈ chunks, chunk.generation = generation
  /-- The order of rows and chunks is the one of their numbers. -/
  row_ids_increase : (rows.filter isStaticRow).Pairwise fun row other => row.id < other.id
  chunk_ids_increase : chunks.Pairwise fun chunk other => chunk.id < other.id

/-- The tables of a store that keeps the records of a scan account for them. -/
theorem Keeps.accountsFor {records : List HookRecord} {generation : Text}
    (hkeeps : store.Keeps records generation) :
    ∃ rows chunks queued, store.AccountsFor records generation rows chunks queued := by
  obtain ⟨rows, chunks, written, queued, hholds, hrecords⟩ := hkeeps
  obtain ⟨hrows, hchunks, hvalid⟩ := hholds
  refine ⟨rows, chunks, queued, ?_⟩
  exact {
    allRows_eq := by rw [allRows, hrows.cache_eq]
    allChunks_eq := by rw [allChunks, hchunks.queue_eq]
    valid := hvalid
    queued_eq := hchunks.records_eq
    records_eq := by rw [hrows.record_eq, hrecords, List.filter_append, List.map_append]
    queued_suffix := ⟨written, hrecords.symm⟩
    row_generation_eq := hrows.generation_eq
    chunk_generation_eq := hchunks.generation_eq
    row_ids_increase := hrows.ids_increase
    chunk_ids_increase := hchunks.ids_increase }

end Store

namespace HookCache

variable {records : List HookRecord} {generation : Text} {store : Store}

/-- A chunk of the valid generation is written as a batch. -/
theorem state_writeChunk {chunk : QueueChunk} {written : List HookRecord}
    (hvalid : store.getOption generationOption none = .ok (some chunk.generation))
    (hwritten : chunk.records = .ok written) :
    (writeChunk chunk store).state =
      (store.insertBatch written (some chunk.generation)).state := by
  rw [writeChunk, hvalid]
  dsimp only
  rw [if_neg (fun hother => hother rfl), hwritten]
  dsimp only
  split
  · rfl
  · rfl

/-- A drain finds nothing queued, or it takes the oldest chunk and appends rows of its records. -/
theorem popAndWrite_holds {rows : List CacheRow} {chunks : List QueueChunk}
    {written : List HookRecord} {queued : List (List HookRecord)}
    (hholds : Store.Holds generation store rows chunks written queued) :
    (popAndWrite store).state = store ∨
      ∃ piece pieces rest new, queued = piece :: pieces ∧
        new.map CacheRow.record = (piece.filter Store.isStorable).map HookRecord.stored ∧
        Store.Holds generation (popAndWrite store).state (rows ++ new) rest (written ++ piece)
          pieces := by
  have hqueue := hholds.holdsChunks.queue_eq
  have hqueued := hholds.holdsChunks.records_eq
  cases chunks with
  | nil =>
      rw [popAndWrite, Store.popOldest_nil hqueue]
      exact .inl rfl
  | cons chunk chunks =>
      cases queued with
      | nil => exact absurd hqueued (List.cons_ne_nil _ _)
      | cons piece queued =>
          have hpiece : chunk.records = .ok piece := (List.cons.inj hqueued).1
          have hgeneration : chunk.generation = generation :=
            hholds.holdsChunks.generation_eq chunk List.mem_cons_self
          obtain ⟨popped, hpop, hrest, hcache, hoptions, hrowNumbers, hchunkNumbers⟩ :=
            Store.popOldest_cons hqueue
          have hpopped : Store.Holds generation popped rows chunks written queued := {
            holdsRows := hholds.holdsRows.of_eq hcache hrowNumbers
            holdsChunks := hholds.holdsChunks.tail hrest hchunkNumbers
            valid := (Store.getOption_of_eq hoptions _ _).trans hholds.valid }
          have hvalid : popped.getOption generationOption none = .ok (some chunk.generation) := by
            rw [hgeneration]
            exact hpopped.valid
          obtain ⟨new, hinserts⟩ :=
            Store.insertBatch_inserts hpopped.holdsRows.cache_eq
              (hholds.holdsChunks.fits piece List.mem_cons_self) (some generation)
          rw [popAndWrite, hpop]
          dsimp only
          rw [state_writeChunk hvalid hpiece, hgeneration]
          exact .inr ⟨piece, queued, chunks, new, rfl, hinserts.record_eq, hpopped.insert hinserts⟩

/-- Taking the oldest chunk and writing it keeps the records. -/
theorem popAndWrite_keeps (hkeeps : store.Keeps records generation) :
    (popAndWrite store).state.Keeps records generation := by
  obtain ⟨rows, chunks, written, queued, hholds, hrecords⟩ := hkeeps
  rcases popAndWrite_holds hholds with hsame | ⟨piece, pieces, rest, new, hqueued, -, hafter⟩
  · rw [hsame]
    exact ⟨rows, chunks, written, queued, hholds, hrecords⟩
  · refine ⟨rows ++ new, rest, written ++ piece, pieces, hafter, ?_⟩
    rw [hrecords, hqueued, List.flatten_cons, List.append_assoc]

/-! ## The operations between two replaces -/

/-- Scheduling the next tick leaves the store as it is. -/
theorem store_scheduleNext (clock : Float) (cache : HookCache) :
    (cache.scheduleNext clock).1.store = cache.store := by
  rw [scheduleNext]
  dsimp only
  split
  · exact store_scheduleDrain clock cache.drainDelay cache
  · rfl

/-- A drain takes the oldest chunk and writes it; what comes after that leaves the store as it is. -/
theorem store_drainOne {cache : HookCache} (hfree : cache.isDraining = false) (clock : Float) :
    (cache.drainOne clock).state.store = (popAndWrite cache.store).state := by
  rw [drainOne, if_neg (by rw [hfree]; exact Bool.false_ne_true)]
  dsimp only
  split
  · exact store_scheduleNext clock _
  · exact store_scheduleNext clock _
  · exact store_scheduleNext clock _
  · rfl

/-- A drain keeps the records, whatever comes of it. -/
theorem drainOne_keeps {cache : HookCache} (clock : Float)
    (hkeeps : cache.store.Keeps records generation) :
    (cache.drainOne clock).state.store.Keeps records generation := by
  cases hfree : cache.isDraining with
  | true =>
      rw [drainOne, if_pos hfree]
      exact hkeeps
  | false =>
      rw [store_drainOne hfree]
      exact popAndWrite_keeps hkeeps

/-- The store after a tick is the one after its drain. -/
theorem state_runTick (clock : Float) (cache : HookCache) :
    (cache.runTick clock).state = (cache.drainOne clock).state := by
  rw [runTick]
  split
  · rfl
  · split
    · rfl
    · rfl

/-- A tick whose time has come keeps the records. -/
theorem runDue_keeps {cache : HookCache} (clock : Float)
    (hkeeps : cache.store.Keeps records generation) :
    (cache.runDue clock).state.store.Keeps records generation := by
  rw [runDue]
  split
  · exact hkeeps
  · next scheduler _ =>
      rw [state_runTick]
      exact drainOne_keeps clock hkeeps

/-- A tick that the host or a timer runs keeps the records. -/
theorem runNow_keeps {cache : HookCache} (clock : Float)
    (hkeeps : cache.store.Keeps records generation) :
    (cache.runNow clock).state.store.Keeps records generation := by
  rw [runNow]
  split
  · exact hkeeps
  · next scheduler _ =>
      rw [state_runTick]
      exact drainOne_keeps clock hkeeps

/-- Inserting records that were observed at run time keeps the records of the scan, also where it raises. -/
theorem insertBatch_keeps {cache : HookCache} {observed : List HookRecord} (group : Option Text)
    (hkeeps : cache.store.Keeps records generation)
    (hruntime : ∀ record ∈ observed, record.detectionMethod = .runtime) :
    (cache.insertBatch observed group).state.store.Keeps records generation := by
  cases hfits : Store.fitsBatch observed with
  | false =>
      rw [insertBatch, Store.insertBatch_of_overflow hfits]
      exact hkeeps
  | true =>
      obtain ⟨rows, chunks, written, queued, hholds, hrecords⟩ := hkeeps
      obtain ⟨new, hinserts⟩ :=
        Store.insertBatch_inserts hholds.holdsRows.cache_eq hfits group
      have hstatic : ∀ record ∈ observed, record.detectionMethod ≠ .static := by
        intro record hmem
        rw [hruntime record hmem]
        decide
      have hafter : Store.Holds generation (cache.insertBatch observed group).state.store (rows ++ new)
          chunks written queued := {
        holdsRows := hholds.holdsRows.insert_runtime hinserts hstatic
        holdsChunks := hholds.holdsChunks.of_eq hinserts.queue_eq hinserts.nextChunkId_eq
        valid := (Store.getOption_of_eq hinserts.options_eq _ _).trans hholds.valid }
      exact ⟨rows ++ new, chunks, written, queued, hafter, hrecords⟩

/-! ## Runs -/

/-- A record that was observed at run time. -/
abbrev ObservedRecord :=
  { record : HookRecord // record.detectionMethod = .runtime }

/-- What may happen to a cache between two replaces: a drain by hand, a tick that the host runs when its time
has come or at once, or that a timer runs, a tick that is asked for or dropped, an insert of records that were
observed at run time, and a restart of the write path on the same store.  A step that asks for the time names
it, so a clock may be advanced between any two of them. -/
inductive Step
  | drain (clock : Float)
  | runDue (clock : Float)
  | runNow (clock : Float)
  | schedule (clock delay : Float)
  | cancel
  | observe (observed : List ObservedRecord) (group : Option Text)
  | restart (scheduler : Scheduler Float DrainTick) (chunkSize : Int) (delay : Float)

def Step.perform (cache : HookCache) : Step → HookCache
  | .drain clock => (cache.drainOne clock).state
  | .runDue clock => (cache.runDue clock).state
  | .runNow clock => (cache.runNow clock).state
  | .schedule clock delay => (cache.scheduleDrain clock delay).2
  | .cancel => { cache with scheduler := cache.scheduler.cancel }
  | .observe observed group => (cache.insertBatch (observed.map Subtype.val) group).state
  | .restart scheduler chunkSize delay => onStore cache.store scheduler chunkSize delay

def run (steps : List Step) (cache : HookCache) : HookCache :=
  steps.foldl Step.perform cache

/-- Every step keeps the records. -/
theorem perform_keeps {cache : HookCache} (step : Step)
    (hkeeps : cache.store.Keeps records generation) :
    (step.perform cache).store.Keeps records generation := by
  cases step with
  | drain clock => exact drainOne_keeps clock hkeeps
  | runDue clock => exact runDue_keeps clock hkeeps
  | runNow clock => exact runNow_keeps clock hkeeps
  | schedule clock delay => exact hkeeps
  | cancel => exact hkeeps
  | observe observed group =>
      refine insertBatch_keeps group hkeeps fun record hmem => ?_
      obtain ⟨seen, _, rfl⟩ := List.mem_map.mp hmem
      exact seen.property
  | restart scheduler chunkSize delay => exact hkeeps

/-- A run keeps the records. -/
theorem run_keeps {cache : HookCache} (steps : List Step)
    (hkeeps : cache.store.Keeps records generation) :
    (run steps cache).store.Keeps records generation := by
  induction steps generalizing cache with
  | nil => exact hkeeps
  | cons step steps ih =>
      rw [run, List.foldl_cons]
      exact ih (perform_keeps step hkeeps)

/-- After a replace on a store with all tables by records that batches can be made of, and after any run that
follows it, the tables account for the records of the replace. -/
theorem run_replaceStatic {cache : HookCache} (hschema : cache.store.HasSchema)
    (hfresh : cache.store.IsFresh generation) (clock : Float) {records : List HookRecord}
    (hfits : Store.FitsBatches cache.chunkSize records) (steps : List Step) :
    ∃ rows chunks queued,
      (run steps (cache.replaceStatic clock records generation).state).store.AccountsFor records
        generation rows chunks queued := by
  have hreplaced := replaceStatic_keeps hschema hfresh clock hfits
  have hafter := run_keeps steps hreplaced
  exact hafter.accountsFor

/-- A cache on a store with empty tables, which writes and queues single records. -/
def emptyCache : HookCache :=
  onStore .empty (.manual none) 1 0

theorem hasSchema_emptyCache : emptyCache.store.HasSchema :=
  ⟨⟨[], rfl⟩, ⟨[], rfl⟩, ⟨[], rfl⟩⟩

theorem isFresh_emptyCache (generation : Text) : emptyCache.store.IsFresh generation := by
  intro table htable chunk hmem
  cases htable
  exact absurd hmem List.not_mem_nil

/-- A record of a hook of one letter. -/
def letterRecord (letter : Char) (hletter : (Text.ofChars [letter]).isScalar = true)
    (method : DetectionMethod) : HookRecord where
  hookName := ⟨Text.ofChars [letter], hletter⟩
  hookType := .unknown
  filePath := none
  line := none
  sourceType := .unknown
  sourceName := .empty
  detectionMethod := method
  firstSeen := .epoch
  lastSeen := .epoch

/-- Three records, of which two are queued; one of these is drained by a tick after a restart. -/
theorem run_replaceStatic_emptyCache :
    emptyCache.store.HasSchema ∧ emptyCache.store.IsFresh [] ∧
      Store.FitsBatches emptyCache.chunkSize
        [letterRecord 'a' rfl .static, letterRecord 'b' rfl .static, letterRecord 'c' rfl .static] ∧
      ∃ rows chunks queued,
        (run [.restart (.manual none) 2 0, .schedule 1 0, .runNow 2]
          (emptyCache.replaceStatic 0
            [letterRecord 'a' rfl .static, letterRecord 'b' rfl .static, letterRecord 'c' rfl .static]
            []).state).store.AccountsFor
          [letterRecord 'a' rfl .static, letterRecord 'b' rfl .static, letterRecord 'c' rfl .static]
          [] rows chunks queued := by
  have hfits : Store.FitsBatches emptyCache.chunkSize
      [letterRecord 'a' rfl .static, letterRecord 'b' rfl .static, letterRecord 'c' rfl .static] :=
    Store.fitsBatches_of_lines (by simp [letterRecord])
  exact ⟨hasSchema_emptyCache, isFresh_emptyCache [], hfits,
    run_replaceStatic hasSchema_emptyCache (isFresh_emptyCache []) 0 hfits _⟩

/-- The tables do not account for a record of a replace that was observed at run time, though it is
storable: its row is no static one. -/
theorem replaceStatic_emptyCache_observed :
    emptyCache.store.HasSchema ∧ emptyCache.store.IsFresh [] ∧
      ¬ ∃ rows chunks queued,
        let after := (run [] (emptyCache.replaceStatic 0 [letterRecord 'a' rfl .runtime] []).state).store
        after.allRows = .ok rows ∧ after.allChunks = .ok chunks ∧
          chunks.map QueueChunk.records = queued.map Except.ok ∧
          (rows.filter Store.isStaticRow).map CacheRow.record ++
              (List.flatten queued).filter Store.isStorable =
            [letterRecord 'a' rfl .runtime].filter Store.isStorable := by
  refine ⟨hasSchema_emptyCache, isFresh_emptyCache [], ?_⟩
  rintro ⟨rows, chunks, queued, hrows, hchunks, hqueued, hrecords⟩
  cases hrows
  cases hchunks
  cases List.map_eq_nil_iff.mp hqueued.symm
  revert hrecords
  decide

end HookCache

end HookAtlas
