/-
# What draining makes of a scan

After a replace by records that were all found in the source, the store keeps these records beside the rows
that were observed at run time.  Draining moves records from the queue to the rows and touches no other row.
So once the queue is empty the static rows are the storable records in their order, and the rows that were
observed at run time are the ones of before, whatever else the store held and however it was drained.  This is
said of records of which every chunk can be made a batch, as those of a scan can.
-/

import HookAtlas.Catalogue.Listing
import HookAtlas.Proofs.Cache.Attended

namespace HookAtlas

namespace Store

/-- A row that was observed at run time. -/
def isObservedRow (row : CacheRow) : Bool :=
  !isStaticRow row

/-- A store keeps the records of a scan beside the rows that were observed at run time. -/
def KeepsBeside (observed : List CacheRow) (records : List HookRecord) (generation : Text)
    (store : Store) : Prop :=
  ∃ rows chunks written queued,
    Holds generation store rows chunks written queued ∧ records = written ++ queued.flatten ∧
      rows.filter isObservedRow = observed

/-- The rows of a store are those of the records of a scan, in their order, and some that were observed at run
time. -/
structure HoldsAll (observed : List CacheRow) (records : List HookRecord) (store : Store)
    (rows : List CacheRow) : Prop where
  allRows_eq : store.allRows = .ok rows
  record_eq : (rows.filter isStaticRow).map CacheRow.record =
    (records.filter isStorable).map HookRecord.stored
  ids_increase : (rows.filter isStaticRow).Pairwise fun row other => row.id < other.id
  observed_eq : rows.filter isObservedRow = observed

variable {observed : List CacheRow} {records : List HookRecord} {generation : Text} {store : Store}

/-- Rows of records that were found in the source are static. -/
theorem filter_isObservedRow_eq_nil {new : List CacheRow} {piece : List HookRecord}
    (hnew : new.map CacheRow.record = (piece.filter isStorable).map HookRecord.stored)
    (hstatic : ∀ record ∈ piece, record.detectionMethod = .static) :
    new.filter isObservedRow = [] := by
  rw [List.filter_eq_nil_iff]
  intro row hmem hobserved
  have hrecord : row.record ∈ (piece.filter isStorable).map HookRecord.stored := by
    rw [← hnew]
    exact List.mem_map_of_mem hmem
  obtain ⟨record, hstorable, hstored⟩ := List.mem_map.mp hrecord
  have hmethod : row.record.detectionMethod = .static := by
    rw [← hstored]
    exact hstatic record (List.mem_filter.mp hstorable).1
  rw [isObservedRow, isStaticRow, decide_eq_true hmethod] at hobserved
  exact Bool.false_ne_true hobserved

theorem filter_isObservedRow_filter (rows : List CacheRow) :
    (rows.filter fun row => !isStaticRow row).filter isObservedRow = rows.filter isObservedRow := by
  rw [List.filter_filter]
  refine List.filter_congr fun row _ => ?_
  rw [isObservedRow, Bool.and_self]

namespace KeepsBeside

/-- A store that keeps records has all tables, and no chunk of another generation. -/
theorem hasSchema (hkeeps : store.KeepsBeside observed records generation) : store.HasSchema := by
  obtain ⟨rows, chunks, written, queued, hholds, -, -⟩ := hkeeps
  exact (Drainable.of_holds hholds).hasSchema

theorem isFresh (hkeeps : store.KeepsBeside observed records generation) {other : Text}
    (hother : generation ≠ other) : store.IsFresh other := by
  obtain ⟨rows, chunks, written, queued, hholds, -, -⟩ := hkeeps
  refine (Drainable.of_holds hholds).isFresh fun chunk hmem => ?_
  rw [hholds.holdsChunks.generation_eq chunk hmem]
  exact hother

/-- A store that keeps records and has nothing queued holds all of them in its rows. -/
theorem exists_holdsAll (hkeeps : store.KeepsBeside observed records generation)
    (hstatic : ∀ record ∈ records, record.detectionMethod = .static)
    (hempty : store.allChunks = .ok []) : ∃ rows, store.HoldsAll observed records rows := by
  obtain ⟨rows, chunks, written, queued, hholds, hrecords, hobserved⟩ := hkeeps
  have hnone : queued = [] := by
    have hqueued := hholds.holdsChunks.records_eq
    rw [allChunks, hholds.holdsChunks.queue_eq] at hempty
    cases hempty
    exact List.map_eq_nil_iff.mp hqueued.symm
  rw [hnone, List.flatten_nil, List.append_nil] at hrecords
  refine ⟨rows, ?_, ?_, hholds.holdsRows.ids_increase, hobserved⟩
  · rw [allRows, hholds.holdsRows.cache_eq]
  · rw [hholds.holdsRows.record_eq, ← hrecords]
    refine congrArg (List.map HookRecord.stored) (List.filter_congr fun record hmem => ?_)
    rw [HookRecord.isStorableStatic, decide_eq_true (hstatic record hmem), Bool.and_true]

/-- The static rows of a store that keeps records are rows of those records. -/
theorem exists_record (hkeeps : store.KeepsBeside observed records generation) {rows : List CacheRow}
    (hrows : store.allRows = .ok rows) {row : CacheRow} (hmem : row ∈ rows)
    (hstatic : isStaticRow row = true) : ∃ record ∈ records, record.stored = row.record := by
  obtain ⟨held, chunks, written, queued, hholds, hrecords, -⟩ := hkeeps
  rw [allRows, hholds.holdsRows.cache_eq] at hrows
  cases hrows
  have hrecord : row.record ∈ (rows.filter isStaticRow).map CacheRow.record :=
    List.mem_map_of_mem (List.mem_filter.mpr ⟨hmem, hstatic⟩)
  rw [hholds.holdsRows.record_eq] at hrecord
  obtain ⟨record, hwritten, hstored⟩ := List.mem_map.mp hrecord
  rw [hrecords]
  exact ⟨record, List.mem_append_left _ (List.mem_filter.mp hwritten).1, hstored⟩

/-- Taking the oldest chunk and writing it keeps the records and what is beside them. -/
theorem popAndWrite (hkeeps : store.KeepsBeside observed records generation)
    (hstatic : ∀ record ∈ records, record.detectionMethod = .static) :
    (HookCache.popAndWrite store).state.KeepsBeside observed records generation := by
  obtain ⟨rows, chunks, written, queued, hholds, hrecords, hobserved⟩ := hkeeps
  rcases HookCache.popAndWrite_holds hholds with hsame | ⟨piece, pieces, rest, new, hqueued, hnew, hafter⟩
  · rw [hsame]
    exact ⟨rows, chunks, written, queued, hholds, hrecords, hobserved⟩
  · have hpiece : ∀ record ∈ piece, record.detectionMethod = .static := by
      intro record hmem
      refine hstatic record ?_
      rw [hrecords, hqueued, List.flatten_cons]
      exact List.mem_append_right _ (List.mem_append_left _ hmem)
    refine ⟨rows ++ new, rest, written ++ piece, pieces, hafter, ?_, ?_⟩
    · rw [hrecords, hqueued, List.flatten_cons, List.append_assoc]
    · rw [List.filter_append, filter_isObservedRow_eq_nil hnew hpiece, List.append_nil, hobserved]

end KeepsBeside

/-! ## Setting another option -/

theorem find?_putOption_of_ne {name other : Text} (hother : name ≠ other) (value : Option Text)
    (options : List (Text × Option Text)) :
    (putOption name value options).find? (fun option => option.1 = other) =
      options.find? (fun option => option.1 = other) := by
  induction options with
  | nil => rw [putOption, List.find?_cons_of_neg (by simpa using hother)]
  | cons option options ih =>
      obtain ⟨key, old⟩ := option
      rw [putOption]
      split
      · next hkey =>
          rw [List.find?_cons_of_neg (by simpa using hother),
            List.find?_cons_of_neg (by simpa [hkey] using hother)]
      · rw [List.find?_cons, List.find?_cons, ih]

/-- Setting an option keeps the records, unless it is the valid generation that is set. -/
theorem KeepsBeside.setOption (hkeeps : store.KeepsBeside observed records generation) {name : Text}
    (hname : name ≠ generationOption) (value : Option Text) :
    ∃ after, Store.setOption name value store = (.ok (), after) ∧
      after.KeepsBeside observed records generation := by
  obtain ⟨rows, chunks, written, queued, hholds, hrecords, hobserved⟩ := hkeeps
  obtain ⟨options, hoptions⟩ := (Drainable.of_holds hholds).options_eq
  rw [Store.setOption, hoptions]
  refine ⟨_, rfl, rows, chunks, written, queued, ?_, hrecords, hobserved⟩
  exact {
    holdsRows := hholds.holdsRows.of_eq rfl rfl
    holdsChunks := hholds.holdsChunks.of_eq rfl rfl
    valid := by
      have hvalid := hholds.valid
      rw [getOption, hoptions] at hvalid
      rw [getOption]
      dsimp only
      rw [find?_putOption_of_ne hname]
      exact hvalid }

end Store

namespace HookCache

variable {observed : List CacheRow} {records : List HookRecord} {generation : Text}
  {cache : HookCache}

/-! ## Replacing -/

/-- A replace by records that were found in the source makes the store keep these, beside the rows that were
observed at run time. -/
theorem replaceStatic_keepsBeside {rows : List CacheRow} (hcache : cache.store.cache = some rows)
    (hschema : cache.store.HasSchema) (hfresh : cache.store.IsFresh generation)
    (hstatic : ∀ record ∈ records, record.detectionMethod = .static)
    (hfits : Store.FitsBatches cache.chunkSize records) (clock : Float) :
    (cache.replaceStatic clock records generation).value = .ok records.length ∧
      (cache.replaceStatic clock records generation).state.isDraining = cache.isDraining ∧
      (cache.replaceStatic clock records generation).state.store.KeepsBeside
        (rows.filter Store.isObservedRow) records generation := by
  obtain ⟨hvalue, store, new, chunks, hnew, hstate, hholds⟩ :=
    replaceStatic_holds hcache hschema hfresh clock hfits
  rw [hstate]
  refine ⟨hvalue, rfl, _, chunks, _, _, hholds, ?_, ?_⟩
  · rw [flatten_chunksOf cache.chunkSize_pos, List.take_append_drop]
  · rw [List.filter_append, Store.filter_isObservedRow_filter,
      Store.filter_isObservedRow_eq_nil hnew fun record hmem => hstatic record (List.mem_of_mem_take hmem),
      List.append_nil]

/-! ## Draining -/

/-- A step that inserts no records of its own: it drains, asks for a tick or drops it, or builds the write path
anew. -/
def Step.isQuiet : Step → Bool
  | .observe _ _ => false
  | _ => true

/-- The store after a quiet step is as before, or it is the one that a drain leaves. -/
theorem store_perform {step : Step} (hquiet : step.isQuiet = true) (cache : HookCache) :
    (step.perform cache).store = cache.store ∨
      (step.perform cache).store = (popAndWrite cache.store).state := by
  have hdrain : ∀ (cache : HookCache) clock, (cache.drainOne clock).state.store = cache.store ∨
      (cache.drainOne clock).state.store = (popAndWrite cache.store).state := by
    intro cache clock
    cases hfree : cache.isDraining with
    | true =>
        rw [drainOne, if_pos hfree]
        exact .inl rfl
    | false => exact .inr (store_drainOne hfree clock)
  cases step with
  | drain clock => exact hdrain cache clock
  | runDue clock =>
      rw [Step.perform, runDue]
      split
      · exact .inl rfl
      · next scheduler _ =>
          rw [state_runTick]
          exact hdrain { cache with scheduler } clock
  | runNow clock =>
      rw [Step.perform, runNow]
      split
      · exact .inl rfl
      · next scheduler _ =>
          rw [state_runTick]
          exact hdrain { cache with scheduler } clock
  | schedule clock delay => exact .inl rfl
  | cancel => exact .inl rfl
  | observe observed group => cases hquiet
  | restart scheduler chunkSize delay => exact .inl rfl

/-- What each of some steps keeps is kept by the run. -/
theorem run_of_perform (property : HookCache → Prop) {steps : List Step}
    (hperform : ∀ step ∈ steps, ∀ cache, property cache → property (step.perform cache))
    (hproperty : property cache) : property (run steps cache) := by
  induction steps generalizing cache with
  | nil => exact hproperty
  | cons step steps ih =>
      rw [run, List.foldl_cons]
      exact ih (fun other hmem => hperform other (List.mem_cons_of_mem _ hmem))
        (hperform step List.mem_cons_self cache hproperty)

/-- Quiet steps keep the records and what is beside them. -/
theorem run_keepsBeside {steps : List Step} (hquiet : ∀ step ∈ steps, step.isQuiet = true)
    (hstatic : ∀ record ∈ records, record.detectionMethod = .static)
    (hkeeps : cache.store.KeepsBeside observed records generation) :
    (run steps cache).store.KeepsBeside observed records generation := by
  refine run_of_perform (fun cache => cache.store.KeepsBeside observed records generation)
    (fun step hmem cache hkeeps => ?_) hkeeps
  rcases store_perform (hquiet step hmem) cache with hstore | hstore
  · rw [hstore]
    exact hkeeps
  · rw [hstore]
    exact hkeeps.popAndWrite hstatic

/-- A drain that could begin leaves the lock free. -/
theorem isDraining_drainOne (clock : Float) (cache : HookCache) :
    (cache.drainOne clock).state.isDraining = cache.isDraining := by
  have hnext : ∀ cache : HookCache, (cache.scheduleNext clock).1.isDraining = cache.isDraining := by
    intro cache
    rw [scheduleNext]
    dsimp only
    split
    · rfl
    · rfl
  rw [drainOne]
  split
  · rfl
  · dsimp only
    split
    · exact hnext _
    · exact hnext _
    · exact hnext _
    · rfl

theorem isDraining_runTick (clock : Float) (cache : HookCache) :
    (cache.runTick clock).state.isDraining = cache.isDraining := by
  rw [← isDraining_drainOne clock cache, runTick]
  split
  · rfl
  · split
    · rfl
    · rfl

/-- The lock is free after any step if it is before. -/
theorem isDraining_perform (step : Step) (hfree : cache.isDraining = false) :
    (step.perform cache).isDraining = false := by
  cases step with
  | drain clock => exact (isDraining_drainOne clock cache).trans hfree
  | runDue clock =>
      rw [Step.perform, runDue]
      split
      · exact hfree
      · exact (isDraining_runTick clock _).trans hfree
  | runNow clock =>
      rw [Step.perform, runNow]
      split
      · exact hfree
      · exact (isDraining_runTick clock _).trans hfree
  | schedule clock delay => exact hfree
  | cancel => exact hfree
  | observe observed group => exact hfree
  | restart scheduler chunkSize delay => rfl

theorem isDraining_run (hfree : cache.isDraining = false) (steps : List Step) :
    (run steps cache).isDraining = false :=
  run_of_perform (fun cache => cache.isDraining = false)
    (fun step _ _ hfree => isDraining_perform step hfree) hfree

/-- Draining as often as there are chunks leaves none. -/
theorem drainable_run_drain {chunks : List QueueChunk} (hdrainable : cache.store.Drainable chunks)
    (hfree : cache.isDraining = false) (clocks : List Float) :
    (run (clocks.map .drain) cache).store.Drainable (chunks.drop clocks.length) := by
  induction clocks generalizing cache chunks with
  | nil => exact hdrainable
  | cons clock clocks ih =>
      have hafter := attended_drainOne hdrainable hfree clock
      rw [List.map_cons, run, List.foldl_cons, List.length_cons, ← List.drop_tail]
      exact ih hafter.drainable hafter.isDraining_eq

end HookCache

end HookAtlas
