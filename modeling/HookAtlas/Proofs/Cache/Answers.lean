/-
# What the answers of the write path tell

A replace of some records answers zero exactly where a table is missing.  The transaction is rolled back then,
but its statements are performed once more one by one, and those before the first missing table stay
performed.  So the answer zero promises that the options, the observed rows and the pending tick are the ones
of before.  The static rows and the chunks of other scans may be gone.  Where all tables are there a replace
answers, unless no batch can be made of its first chunk or a later one cannot be written as a payload.

A drain decides that it took a chunk when it has taken it, and reads the valid generation only then.  Its
answer is the truth about the queue in all states but one: where the options are missing and a chunk is
queued, the chunk is taken and the answer is that none was.  A drain that raises has taken a chunk.
-/

import HookAtlas.Proofs.Cache.Failures
import HookAtlas.Proofs.Cache.Payloads

namespace HookAtlas

namespace Store

/-! ## Statements in sequence -/

/-- What comes behind a statement that fails is not performed. -/
theorem sequence_append_of_error {first : List (Store → Answer Unit)} {store after : Store}
    {error : StoreError} (hfirst : sequence first store = (.error error, after))
    (second : List (Store → Answer Unit)) :
    sequence (first ++ second) store = (.error error, after) := by
  induction first generalizing store with
  | nil => cases hfirst
  | cons statement first ih =>
      rw [sequence] at hfirst
      rw [List.cons_append, sequence]
      split at hfirst
      · exact ih hfirst
      · exact hfirst

/-- No statement renames the payload column. -/
theorem Writes.keepsColumn {before after : Store} (hwrites : Writes before after)
    (hqueue : ∃ chunks, before.queue = some ⟨chunks, true⟩) :
    ∃ chunks, after.queue = some ⟨chunks, true⟩ := by
  induction hwrites with
  | refl store => exact hqueue
  | trans _ _ hfirst hsecond => exact hsecond (hfirst hqueue)
  | insertAll records generation store =>
      unfold Store.insertAll
      grind
  | insertRow record generation store =>
      unfold Store.insertRow
      grind
  | deleteStatic store =>
      unfold Store.deleteStatic
      grind
  | enqueue generation payload store =>
      unfold Store.enqueue
      grind
  | deleteOtherChunks generation store =>
      unfold Store.deleteOtherChunks
      grind
  | popOldest store =>
      unfold Store.popOldest
      grind
  | setOption name value store =>
      unfold Store.setOption
      grind
  | rollBackTo _ _ => exact hqueue

/-! ## Replacing the rows where tables are missing -/

/-- What is left where the statements that supersede older scans stop at a missing table: without a cache table
everything, without a queue table all but the static rows, and else the rows and chunks that the scan does not
supersede. -/
structure StopsAtMissing (generation : Text) (before after : Store) : Prop where
  cache_eq : after.cache = before.cache.map fun rows => rows.filter isObservedRow
  queue_eq : after.queue =
    if before.cache.isSome then
      before.queue.map fun table =>
        { table with chunks := table.chunks.filter fun chunk => chunk.generation = generation }
    else before.queue
  options_eq : after.options = before.options

variable {generation : Text} {store : Store}

theorem sequence_supersedeStatements_of_missing (hmissing : store.hasAllTables = false) :
    ∃ after, sequence (supersedeStatements generation) store = (.error .missingTable, after) ∧
      StopsAtMissing generation store after := by
  rw [supersedeStatements, sequence, deleteStatic]
  cases hcache : store.cache with
  | none =>
      refine ⟨store, rfl, ?_⟩
      exact {
        cache_eq := by simp [hcache]
        queue_eq := by simp [hcache]
        options_eq := rfl }
  | some rows =>
      dsimp only
      rw [sequence, deleteOtherChunks]
      cases hqueue : store.queue with
      | none =>
          refine ⟨_, rfl, ?_⟩
          exact {
            cache_eq := by
              rw [hcache]
              rfl
            queue_eq := by simp [hqueue]
            options_eq := rfl }
      | some table =>
          -- The options are all that can be missing now, and they are written to last.
          have hoptions : store.options = none := by
            simpa [hasAllTables, hcache, hqueue] using hmissing
          dsimp only
          rw [sequence, setOption]
          dsimp only
          rw [hoptions]
          refine ⟨_, rfl, ?_⟩
          exact {
            cache_eq := by
              rw [hcache]
              rfl
            queue_eq := by simp [hcache, hqueue]
            options_eq := hoptions.symm }

theorem sequence_supersedeStatements_of_hasAllTables (hall : store.hasAllTables = true) :
    ∃ after, sequence (supersedeStatements generation) store = (.ok (), after) := by
  rw [hasAllTables, Bool.and_eq_true, Bool.and_eq_true] at hall
  obtain ⟨⟨hcache, hqueue⟩, hoptions⟩ := hall
  obtain ⟨rows, hcache⟩ := Option.isSome_iff_exists.mp hcache
  obtain ⟨table, hqueue⟩ := Option.isSome_iff_exists.mp hqueue
  obtain ⟨options, hoptions⟩ := Option.isSome_iff_exists.mp hoptions
  simp only [supersedeStatements, sequence, deleteStatic, deleteOtherChunks, setOption, hcache, hqueue,
    hoptions]
  exact ⟨_, rfl⟩

/-- Where a table is missing, the rows cannot be replaced, be it in a transaction or stepwise. -/
theorem replaceStatic_of_missing (hmissing : store.hasAllTables = false) (records : List HookRecord)
    (generation : Text) :
    (replaceStatic records generation store).value = .error .missingTable ∧
      StopsAtMissing generation store (replaceStatic records generation store).state := by
  obtain ⟨after, hsequence, -⟩ := sequence_supersedeStatements_of_missing hmissing
  have hrolled : (store.rollBackTo after).hasAllTables = false := hmissing
  obtain ⟨after', hagain, hstops⟩ := sequence_supersedeStatements_of_missing hrolled
  rw [replaceStatic, replaceAtOnce, transaction, sequence_append_of_error hsequence]
  dsimp only
  rw [StoreError.isHandled, Bool.not_true, if_neg Bool.false_ne_true, replaceStepwise, hagain]
  exact ⟨rfl, hstops.cache_eq, hstops.queue_eq, hstops.options_eq⟩

/-- Where all tables are there, the rows are replaced, unless no batch can be made of the records. -/
theorem value_replaceStatic_of_hasAllTables (hall : store.hasAllTables = true)
    (records : List HookRecord) : (replaceStatic records generation store).value =
      if fitsBatch records = true then .ok () else .error .lineOverflow := by
  obtain ⟨middle, hsequence⟩ := @sequence_supersedeStatements_of_hasAllTables generation store hall
  rw [replaceStatic, replaceAtOnce, transaction, sequence_append _ _ hsequence]
  by_cases hempty : records = []
  · rw [if_pos hempty, hempty]
    rfl
  rw [if_neg hempty, sequence]
  cases hfits : fitsBatch records with
  | false =>
      rw [insertAll_of_overflow hfits]
      rfl
  | true =>
      rcases hinsert : insertAll records (some generation) middle with ⟨error | ⟨⟩, after⟩
      · -- The retry finds the same tables.
        have hrolled : (store.rollBackTo after).hasAllTables = true := hall
        obtain ⟨again, hagain⟩ :=
          @sequence_supersedeStatements_of_hasAllTables generation _ hrolled
        dsimp only
        rw [isHandled_of_insertAll hfits hinsert, Bool.not_true, if_neg Bool.false_ne_true,
          replaceStepwise, hagain]
        rfl
      · rfl

/-! ## Inserting rows does not concern the queue -/

theorem queue_insertAll (records : List HookRecord) (generation : Option Text) (store : Store) :
    (store.insertAll records generation).2.queue = store.queue := by
  unfold insertAll
  grind

theorem queue_insertRow (record : HookRecord) (generation : Option Text) (store : Store) :
    (store.insertRow record generation).2.queue = store.queue := by
  unfold insertRow
  grind

theorem queue_foldl_add (generation : Option Text) (records : List HookRecord) (tally : InsertTally) :
    (records.foldl (InsertTally.add generation) tally).store.queue = tally.store.queue := by
  induction records generalizing tally with
  | nil => rfl
  | cons record records ih => rw [List.foldl_cons, ih, store_add, queue_insertRow]

theorem queue_insertBatch (records : List HookRecord) (generation : Option Text) (store : Store) :
    (store.insertBatch records generation).state.queue = store.queue := by
  have hall := queue_insertAll records generation store
  rw [insertBatch]
  split
  · rfl
  · split
    · next hinserted =>
        rw [hinserted] at hall
        exact hall
    · next error after hrefused =>
        rw [hrefused] at hall
        split
        · exact hall
        · exact (queue_foldl_add generation records ⟨after, 0, 0⟩).trans hall

/-! ## What became of the queue -/

/-- The oldest chunk was taken off the queue, and the others are there as before. -/
def TakesOldest (before after : Store) : Prop :=
  ∃ chunk chunks column,
    before.queue = some ⟨chunk :: chunks, column⟩ ∧ after.queue = some ⟨chunks, column⟩

/-- An answer says whether the oldest chunk was taken off the queue, which is else as it was. -/
def TellsWhetherTaken (taken : Bool) (before after : Store) : Prop :=
  (taken = true ↔ TakesOldest before after) ∧ (taken = false ↔ after.queue = before.queue)

variable {before after : Store} {taken : Bool}

/-- A queue with one chunk less is not the queue of before. -/
theorem TakesOldest.queue_ne (htakes : TakesOldest before after) : after.queue ≠ before.queue := by
  obtain ⟨chunk, chunks, column, hbefore, hafter⟩ := htakes
  intro hsame
  rw [hbefore, hafter, Option.some.injEq, QueueTable.mk.injEq] at hsame
  exact List.cons_ne_self chunk chunks hsame.1.symm

theorem tellsWhetherTaken_of_takesOldest (htakes : TakesOldest before after) :
    TellsWhetherTaken taken before after ↔ taken = true := by
  constructor
  · intro htells
    exact htells.1.mpr htakes
  · rintro rfl
    exact ⟨iff_of_true rfl htakes, iff_of_false Bool.noConfusion htakes.queue_ne⟩

theorem tellsWhetherTaken_of_queue_eq (hsame : after.queue = before.queue) :
    TellsWhetherTaken taken before after ↔ taken = false := by
  constructor
  · intro htells
    exact htells.2.mpr hsame
  · rintro rfl
    exact ⟨iff_of_false Bool.noConfusion fun htakes => htakes.queue_ne hsame, iff_of_true rfl hsame⟩

/-- There is a chunk that a drain can take. -/
def HasChunk (store : Store) : Prop :=
  ∃ chunk chunks, store.queue = some ⟨chunk :: chunks, true⟩

/-- A chunk is taken off the queue, or there is none that could be. -/
theorem popOldest_cases (store : Store) :
    (∃ chunk after, store.popOldest = (.ok (some chunk), after) ∧ store.HasChunk ∧
        TakesOldest store after ∧ after.options = store.options) ∨
      (¬store.HasChunk ∧
        (store.popOldest = (.ok none, store) ∨ ∃ error, store.popOldest = (.error error, store))) := by
  rw [popOldest]
  split
  · next hqueue =>
      refine .inr ⟨?_, .inr ⟨_, rfl⟩⟩
      rintro ⟨chunk, chunks, hchunk⟩
      simp [hqueue] at hchunk
  · next table hqueue =>
      split
      · next hcolumn =>
          refine .inr ⟨?_, .inr ⟨_, rfl⟩⟩
          rintro ⟨chunk, chunks, hchunk⟩
          rw [hqueue, Option.some.injEq] at hchunk
          simp [hchunk] at hcolumn
      · next hcolumn =>
          split
          · next hchunks =>
              refine .inr ⟨?_, .inl rfl⟩
              rintro ⟨chunk, chunks, hchunk⟩
              rw [hqueue, Option.some.injEq] at hchunk
              simp [hchunk] at hchunks
          · next chunk chunks hchunks =>
              have htable : store.queue = some ⟨chunk :: chunks, table.hasPayloadColumn⟩ := by
                rw [hqueue, ← hchunks]
              have hnamed : table.hasPayloadColumn = true := by simpa using hcolumn
              refine .inl ⟨chunk, _, rfl, ⟨chunk, chunks, ?_⟩, ⟨chunk, chunks, _, htable, rfl⟩, rfl⟩
              rw [htable, hnamed]

end Store

namespace HookCache

variable {cache : HookCache} {store : Store} {generation : Text} {records : List HookRecord}

/-! ## Replacing -/

theorem value_queueRemaining_ne_zero {written : List HookRecord} (hwritten : written ≠ [])
    (clock : Float) (remaining : List HookRecord) (generation : Text) (cache : HookCache) :
    (cache.queueRemaining clock written remaining generation).value ≠ .ok 0 := by
  have hpositive := List.length_pos_iff.mpr hwritten
  have hany {count : Nat} (hcount : written.length ≤ count) : (.ok count : Except StoreError Nat) ≠ .ok 0 := by
    rw [ne_eq, Except.ok.injEq]
    omega
  rw [queueRemaining]
  split
  · exact hany (Nat.le_refl _)
  · split
    · split
      · exact hany (Nat.le_refl _)
      · rintro ⟨⟩
    · exact hany (Nat.le_add_right _ _)

/-- Queueing the rest of some records answers where each of them can be written, and on a queue with the right
column only there. -/
theorem value_queueRemaining (clock : Float) (written remaining : List HookRecord) (generation : Text)
    (cache : HookCache) :
    ((∀ record ∈ remaining, record.isWritable = true) →
      ∃ handled, (cache.queueRemaining clock written remaining generation).value = .ok handled) ∧
    ∀ chunks, cache.store.queue = some ⟨chunks, true⟩ →
      ∀ handled, (cache.queueRemaining clock written remaining generation).value = .ok handled →
        ∀ record ∈ remaining, record.isWritable = true := by
  rw [queueRemaining]
  by_cases hempty : remaining = []
  · rw [if_pos hempty, hempty]
    exact ⟨fun _ => ⟨_, rfl⟩, fun _ _ _ _ _ hmem => absurd hmem List.not_mem_nil⟩
  obtain ⟨answer, after, new, henqueue, -, houtcome⟩ :=
    Store.enqueueChunks_cases generation (chunksOf cache.chunkSize remaining) cache.store
  rw [if_neg hempty, queueEntries, henqueue]
  rcases houtcome with ⟨rfl, -, hwritable⟩ | ⟨rfl, piece, hpiece, record, hmem, hlong⟩ |
    ⟨error, rfl, hhandled, rfl, hnone⟩
  · refine ⟨fun _ => ⟨_, rfl⟩, fun _ _ _ _ record hmem => ?_⟩
    rw [← flatten_chunksOf cache.chunkSize_pos remaining, List.mem_flatten] at hmem
    obtain ⟨piece, hpiece, hmem⟩ := hmem
    exact hwritable piece hpiece record hmem
  · refine ⟨fun hwritable => ?_, by rintro _ _ _ ⟨⟩⟩
    rw [hwritable record (mem_of_mem_chunksOf hpiece hmem)] at hlong
    cases hlong
  · dsimp only [Except.map]
    rw [hhandled]
    exact ⟨fun _ => ⟨_, rfl⟩, fun chunks hqueue => absurd hqueue (hnone chunks)⟩

/-- What a replace promises with the answer zero: the options and the pending tick are as before, and so are
the rows and chunks that the statements before the first missing table do not concern. -/
structure GivesUp (generation : Text) (before after : HookCache) : Prop where
  stops : before.store.StopsAtMissing generation after.store
  scheduler_eq : after.scheduler = before.scheduler

theorem replaceStatic_of_missing (hmissing : cache.store.hasAllTables = false) (clock : Float)
    (records : List HookRecord) (generation : Text) :
    (cache.replaceStatic clock records generation).value = .ok 0 ∧
      cache.GivesUp generation (cache.replaceStatic clock records generation).state := by
  obtain ⟨herror, hstops⟩ :=
    Store.replaceStatic_of_missing hmissing (records.take cache.chunkSize) generation
  rw [replaceStatic]
  dsimp only
  rw [herror]
  exact ⟨rfl, hstops, rfl⟩

theorem value_replaceStatic_ne_zero (hall : cache.store.hasAllTables = true) (hrecords : records ≠ [])
    (clock : Float) (generation : Text) :
    (cache.replaceStatic clock records generation).value ≠ .ok 0 := by
  have hfirst : records.take cache.chunkSize ≠ [] := by
    rw [Ne, List.take_eq_nil_iff, not_or]
    exact ⟨Nat.ne_of_gt cache.chunkSize_pos, hrecords⟩
  rw [replaceStatic]
  dsimp only
  rw [Store.value_replaceStatic_of_hasAllTables hall]
  split
  · next hvalue =>
      split at hvalue
      · cases hvalue
      · cases hvalue
        rintro ⟨⟩
  · rw [if_neg hrecords]
    exact value_queueRemaining_ne_zero hfirst clock _ generation _

/-- A replace of some records answers zero exactly where a table is missing, and what it leaves then. -/
theorem replaceStatic_gives_up (hrecords : records ≠ []) (clock : Float) (generation : Text)
    (cache : HookCache) :
    ((cache.replaceStatic clock records generation).value = .ok 0 ↔ cache.store.hasAllTables = false) ∧
      ((cache.replaceStatic clock records generation).value = .ok 0 →
        cache.GivesUp generation (cache.replaceStatic clock records generation).state) := by
  cases htables : cache.store.hasAllTables with
  | false =>
      obtain ⟨hzero, hgives⟩ := replaceStatic_of_missing htables clock records generation
      exact ⟨iff_of_true hzero rfl, fun _ => hgives⟩
  | true =>
      have hanother := value_replaceStatic_ne_zero htables hrecords clock generation
      exact ⟨iff_of_false hanother Bool.noConfusion, fun hzero => absurd hzero hanother⟩

/-- A replace answers where a batch can be made of its first chunk and the other records can be written, whatever
tables are missing. -/
theorem exists_value_replaceStatic (hfits : Store.fitsBatch (records.take cache.chunkSize) = true)
    (hwritable : ∀ record ∈ records.drop cache.chunkSize, record.isWritable = true) (clock : Float)
    (generation : Text) :
    ∃ handled, (cache.replaceStatic clock records generation).value = .ok handled := by
  cases htables : cache.store.hasAllTables with
  | false => exact ⟨0, (replaceStatic_of_missing htables clock records generation).1⟩
  | true =>
      rw [replaceStatic]
      dsimp only
      rw [Store.value_replaceStatic_of_hasAllTables htables, hfits, if_pos rfl]
      dsimp only
      split
      · exact ⟨0, rfl⟩
      · exact (value_queueRemaining clock _ _ generation _).1 hwritable

/-- It answers only there, or where a table is missing. -/
theorem value_replaceStatic_iff
    (hcolumn : ∀ table, cache.store.queue = some table → table.hasPayloadColumn = true) (clock : Float)
    (records : List HookRecord) (generation : Text) :
    (∃ handled, (cache.replaceStatic clock records generation).value = .ok handled) ↔
      cache.store.hasAllTables = false ∨ Store.fitsBatch (records.take cache.chunkSize) = true ∧
        ∀ record ∈ records.drop cache.chunkSize, record.isWritable = true := by
  constructor
  · rintro ⟨handled, hvalue⟩
    cases htables : cache.store.hasAllTables with
    | false => exact .inl rfl
    | true =>
        have hnamed : ∃ chunks, cache.store.queue = some ⟨chunks, true⟩ := by
          rw [Store.hasAllTables, Bool.and_eq_true, Bool.and_eq_true] at htables
          obtain ⟨⟨chunks, column⟩, hqueue⟩ := Option.isSome_iff_exists.mp htables.1.2
          have hthere : column = true := hcolumn _ hqueue
          exact ⟨chunks, hthere ▸ hqueue⟩
        obtain ⟨chunks, hqueue⟩ := (Store.writes_replaceStatic (records.take cache.chunkSize) generation
          cache.store).writes.keepsColumn hnamed
        rw [replaceStatic] at hvalue
        dsimp only at hvalue
        rw [Store.value_replaceStatic_of_hasAllTables htables] at hvalue
        cases hfits : Store.fitsBatch (records.take cache.chunkSize) with
        | false =>
            rw [hfits] at hvalue
            cases hvalue
        | true =>
            rw [hfits, if_pos rfl] at hvalue
            dsimp only at hvalue
            refine .inr ⟨rfl, ?_⟩
            split at hvalue
            · next hempty =>
                rw [hempty, List.drop_nil]
                exact fun _ hmem => absurd hmem List.not_mem_nil
            · exact (value_queueRemaining clock _ _ generation _).2 chunks hqueue handled hvalue
  · rintro (hmissing | ⟨hfits, hwritable⟩)
    · exact ⟨0, (replaceStatic_of_missing hmissing clock records generation).1⟩
    · exact exists_value_replaceStatic hfits hwritable clock generation

/-- A store without options, with a static row, a row that was observed at run time, and a queued chunk. -/
def optionless : HookCache :=
  onStore
    { cache := some [⟨1, letterRecord 'k' rfl .static, some (Text.mark 'g')⟩,
        ⟨2, letterRecord 'm' rfl .runtime, none⟩]
      queue := some ⟨[⟨1, Text.mark 'g',
        (Json.list [(letterRecord 'n' rfl .static).toJson]).print⟩], true⟩
      options := none
      nextRowId := 3
      nextChunkId := 2
      unwrittenSince := none }
    (.manual none) 1 15

theorem replaceStatic_gives_up_optionless :
    [letterRecord 'c' rfl .static] ≠ [] ∧
      ((optionless.replaceStatic 0 [letterRecord 'c' rfl .static] (Text.mark 'h')).value = .ok 0 ↔
        optionless.store.hasAllTables = false) ∧
      ((optionless.replaceStatic 0 [letterRecord 'c' rfl .static] (Text.mark 'h')).value = .ok 0 →
        optionless.GivesUp (Text.mark 'h')
          (optionless.replaceStatic 0 [letterRecord 'c' rfl .static] (Text.mark 'h')).state) :=
  ⟨List.cons_ne_nil _ _, replaceStatic_gives_up (List.cons_ne_nil _ _) 0 _ optionless⟩

/-- The answer zero does not promise that the tables are the ones of before. -/
theorem exists_replaceStatic_zero_of_changed :
    ∃ (cache : HookCache) (records : List HookRecord) (generation : Text),
      records ≠ [] ∧ cache.store.IsFresh generation ∧
        (cache.replaceStatic 0 records generation).value = .ok 0 ∧
        (cache.replaceStatic 0 records generation).state.store.cache ≠ cache.store.cache ∧
        (cache.replaceStatic 0 records generation).state.store.queue ≠ cache.store.queue := by
  have hmissing : optionless.store.hasAllTables = false := rfl
  obtain ⟨hzero, hstops, -⟩ :=
    replaceStatic_of_missing hmissing 0 [letterRecord 'c' rfl .static] (Text.mark 'h')
  refine ⟨optionless, [letterRecord 'c' rfl .static], Text.mark 'h', List.cons_ne_nil _ _, ?_, hzero, ?_, ?_⟩
  · rintro table htable chunk hmem
    cases htable
    rw [List.mem_singleton.mp hmem]
    decide
  · rw [hstops.cache_eq]
    decide
  · rw [hstops.queue_eq]
    intro hsame
    have hnumbers := congrArg (Option.map fun table => table.chunks.map QueueChunk.id) hsame
    revert hnumbers
    decide

/-! ## Draining -/

theorem queue_writeChunk (chunk : QueueChunk) (store : Store) :
    (writeChunk chunk store).state.queue = store.queue := by
  rw [writeChunk]
  split
  · rfl
  · split
    · rfl
    · split
      · rfl
      · next records _ =>
          have hbatch := Store.queue_insertBatch records (some chunk.generation) store
          dsimp only
          split
          · exact hbatch
          · exact hbatch

/-- A drain took the oldest chunk, or it left the queue as it is.  It knows which, unless there are no options
or it raised. -/
theorem popAndWrite_cases (hpayloads : store.HoldsPayloads) :
    (store.HasChunk ∧ store.TakesOldest (popAndWrite store).state ∧
        ((popAndWrite store).value = .failed ∧ store.options = none ∨
          store.options ≠ none ∧
            ((popAndWrite store).value = .taken ∨ ∃ error, (popAndWrite store).value = .raised error))) ∨
      (¬store.HasChunk ∧ (popAndWrite store).state = store ∧
        ((popAndWrite store).value = .failed ∨ (popAndWrite store).value = .nothingQueued)) := by
  rcases store.popOldest_cases with
    ⟨chunk, after, hpop, hchunk, htakes, -⟩ | ⟨hnone, hpop | ⟨error, hpop⟩⟩
  · obtain ⟨chunks, hqueue, -, hoptions⟩ := queue_of_popOldest hpop
    obtain ⟨records, hpayload⟩ := hpayloads _ hqueue chunk List.mem_cons_self
    have hrecords : chunk.records = .ok records :=
      QueueChunk.records_of_payload? hpayload chunk.id chunk.generation
    obtain ⟨first, rest, column, hbefore, hafter⟩ := htakes
    rw [popAndWrite, hpop]
    dsimp only
    refine .inl ⟨hchunk, ⟨first, rest, column, hbefore, ?_⟩, ?_⟩
    · rw [queue_writeChunk, hafter]
    · rw [← hoptions]
      rcases writeChunk_cases hrecords after with
        ⟨hvalue, hmissing⟩ | ⟨hvalue, hthere, -⟩ | ⟨hvalue, hvalid, -⟩
      · exact .inl ⟨hvalue, hmissing⟩
      · exact .inr ⟨hthere, .inl hvalue⟩
      · refine .inr ⟨fun hmissing => ?_, .inr ⟨_, hvalue⟩⟩
        rw [Store.getOption, hmissing] at hvalid
        cases hvalid
  · rw [popAndWrite, hpop]
    exact .inr ⟨hnone, rfl, .inr rfl⟩
  · rw [popAndWrite, hpop]
    exact .inr ⟨hnone, rfl, .inl rfl⟩

/-- A drain that could begin answers that it took a chunk exactly if taking and writing ended so. -/
theorem value_drainOne {drained : Bool} (hfree : cache.isDraining = false) (clock : Float)
    (hdrained : (cache.drainOne clock).value = .ok drained) :
    drained = true ↔ (popAndWrite cache.store).value = .taken := by
  rw [drainOne, if_neg (by rw [hfree]; exact Bool.false_ne_true)] at hdrained
  dsimp only at hdrained
  cases hvalue : (popAndWrite cache.store).value <;> simp_all

/-- A drain that raises has begun, and taking or writing raised. -/
theorem popAndWrite_of_raised {clock : Float} {error : DrainError}
    (hraised : (cache.drainOne clock).value = .error error) :
    cache.isDraining = false ∧ (popAndWrite cache.store).value = .raised error := by
  rw [drainOne] at hraised
  split at hraised
  · cases hraised
  · next hfree =>
      refine ⟨by simpa using hfree, ?_⟩
      dsimp only at hraised
      cases hvalue : (popAndWrite cache.store).value <;> simp_all

theorem takesOldest_drainOne_or_eq (hpayloads : cache.store.HoldsPayloads) (clock : Float) :
    cache.store.TakesOldest (cache.drainOne clock).state.store ∨
      (cache.drainOne clock).state.store.queue = cache.store.queue := by
  cases hfree : cache.isDraining with
  | true =>
      rw [drainOne, if_pos hfree]
      exact .inr rfl
  | false =>
      rw [store_drainOne hfree clock]
      rcases popAndWrite_cases hpayloads with ⟨-, htakes, -⟩ | ⟨-, hsame, -⟩
      · exact .inl htakes
      · exact .inr (congrArg Store.queue hsame)

/-- An answer tells whether a chunk was taken, except where one is queued and the options are missing. -/
theorem tellsWhetherTaken_drainOne_iff (hpayloads : cache.store.HoldsPayloads) {clock : Float}
    {drained : Bool} (hdrained : (cache.drainOne clock).value = .ok drained) :
    cache.store.TellsWhetherTaken drained (cache.drainOne clock).state.store ↔
      cache.isDraining = true ∨ cache.store.options ≠ none ∨ ¬cache.store.HasChunk := by
  cases hfree : cache.isDraining with
  | true =>
      rw [drainOne, if_pos hfree] at hdrained ⊢
      cases hdrained
      refine iff_of_true ?_ (.inl rfl)
      exact (Store.tellsWhetherTaken_of_queue_eq rfl).mpr rfl
  | false =>
      have htaken := value_drainOne hfree clock hdrained
      rw [store_drainOne hfree clock]
      rcases popAndWrite_cases hpayloads with
        ⟨hchunk, htakes, ⟨hfailed, hoptions⟩ | ⟨hoptions, hwritten | ⟨error, hraised⟩⟩⟩ |
          ⟨hnone, hsame, hvalue⟩
      · rw [Store.tellsWhetherTaken_of_takesOldest htakes, htaken, hfailed]
        simp [hoptions, hchunk]
      · rw [Store.tellsWhetherTaken_of_takesOldest htakes, htaken, hwritten]
        simp [hoptions]
      · -- A drain that raised answers nothing.
        rw [drainOne, if_neg (by rw [hfree]; exact Bool.false_ne_true)] at hdrained
        dsimp only at hdrained
        rw [hraised] at hdrained
        cases hdrained
      · rw [Store.tellsWhetherTaken_of_queue_eq (congrArg Store.queue hsame), ← Bool.not_eq_true,
          htaken]
        rcases hvalue with hvalue | hvalue
        · simp [hvalue, hnone]
        · simp [hvalue, hnone]

theorem takesOldest_of_raised (hpayloads : cache.store.HoldsPayloads) {clock : Float} {error : DrainError}
    (hraised : (cache.drainOne clock).value = .error error) :
    cache.store.TakesOldest (cache.drainOne clock).state.store := by
  obtain ⟨hfree, hraised⟩ := popAndWrite_of_raised hraised
  rw [store_drainOne hfree clock]
  rcases popAndWrite_cases hpayloads with ⟨-, htakes, -⟩ | ⟨-, -, hvalue⟩
  · exact htakes
  · rw [hraised] at hvalue
    rcases hvalue with hvalue | hvalue
    · cases hvalue
    · cases hvalue

/-- A drain takes the oldest chunk or leaves the queue as it is, and its answer says which, except where a
chunk is queued and the options are missing.  It answers unless no batch can be made of the records that it
writes; then it has taken their chunk. -/
theorem drainOne_tells_iff (hpayloads : cache.store.HoldsPayloads) (clock : Float) :
    (cache.store.TakesOldest (cache.drainOne clock).state.store ∨
      (cache.drainOne clock).state.store.queue = cache.store.queue) ∧
    (∀ drained, (cache.drainOne clock).value = .ok drained →
      (cache.store.TellsWhetherTaken drained (cache.drainOne clock).state.store ↔
        cache.isDraining = true ∨ cache.store.options ≠ none ∨ ¬cache.store.HasChunk)) ∧
    ((∃ drained, (cache.drainOne clock).value = .ok drained) ↔
      cache.isDraining = true ∨ ¬cache.store.DrainOverflows) ∧
    ∀ error, (cache.drainOne clock).value = .error error →
      cache.store.TakesOldest (cache.drainOne clock).state.store := by
  refine ⟨takesOldest_drainOne_or_eq hpayloads clock, ?_, value_drainOne_iff hpayloads clock, ?_⟩
  · intro drained hdrained
    exact tellsWhetherTaken_drainOne_iff hpayloads hdrained
  · intro error hraised
    exact takesOldest_of_raised hpayloads hraised

theorem holdsPayloads_optionless : optionless.store.HoldsPayloads := by
  intro table htable chunk hmem
  cases htable
  rw [List.mem_singleton.mp hmem]
  exact ⟨[letterRecord 'n' rfl .static], rfl⟩

theorem drainOne_tells_iff_optionless :
    optionless.store.HoldsPayloads ∧ ¬optionless.store.DrainOverflows ∧
      ∃ drained, (optionless.drainOne 0).value = .ok drained ∧
        (optionless.store.TakesOldest (optionless.drainOne 0).state.store ∨
          (optionless.drainOne 0).state.store.queue = optionless.store.queue) ∧
        (optionless.store.TellsWhetherTaken drained (optionless.drainOne 0).state.store ↔
          optionless.isDraining = true ∨ optionless.store.options ≠ none ∨
            ¬optionless.store.HasChunk) := by
  obtain ⟨hqueue, htells, hanswers, -⟩ := drainOne_tells_iff holdsPayloads_optionless 0
  have hfits : ¬optionless.store.DrainOverflows := by
    rintro ⟨chunk, chunks, records, -, hvalid, -⟩
    cases hvalid
  obtain ⟨drained, hdrained⟩ := hanswers.mpr (.inr hfits)
  exact ⟨holdsPayloads_optionless, hfits, drained, hdrained, hqueue, htells drained hdrained⟩

/-- Without options the only chunk is taken off the queue, and the answer is that none was. -/
theorem drainOne_optionless_conceals :
    optionless.store.HoldsPayloads ∧ (optionless.drainOne 0).value = .ok false ∧
      optionless.store.TakesOldest (optionless.drainOne 0).state.store ∧
      ¬optionless.store.TellsWhetherTaken false (optionless.drainOne 0).state.store := by
  have htakes : optionless.store.TakesOldest (optionless.drainOne 0).state.store :=
    ⟨_, _, _, rfl, rfl⟩
  refine ⟨holdsPayloads_optionless, rfl, htakes, ?_⟩
  rw [Store.tellsWhetherTaken_of_takesOldest htakes]
  exact Bool.noConfusion

end HookCache

end HookAtlas
