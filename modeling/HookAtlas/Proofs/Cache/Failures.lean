/-
# The write path when tables are missing

Whatever tables are missing, no failure of the store reaches the caller of the write path, and the rows that
were observed at run time stay.  Of the statements only the deletion of the static rows removes rows, so the
observed rows of before are the first observed rows of after, be it that a transaction went through, was rolled
back, or was retried row by row.

What reaches the caller is found before the store is asked: records that no batch can be made of, and a line
that no payload can hold.  Inserting raises exactly for the former.  A drain raises exactly where it writes such
records (`DrainOverflows`); it has taken their chunk by then.  A replace raises for nothing else either, and on
a store with all tables always for its first chunk.
-/

import HookAtlas.Proofs.Cache.Rescan
import HookAtlas.Proofs.Cache.Writes
import HookAtlas.Proofs.Hook.Payload

namespace HookAtlas

namespace Store

variable {store before middle after : Store}

/-! ## The observed rows -/

/-- Where there is a cache table, the observed rows of before are the first observed rows of after. -/
def KeepsObserved (before after : Store) : Prop :=
  ∀ rows, before.cache = some rows →
    ∃ rows', after.cache = some rows' ∧ rows.filter isObservedRow <+: rows'.filter isObservedRow

namespace KeepsObserved

theorem refl (store : Store) : store.KeepsObserved store := by
  intro rows hcache
  exact ⟨rows, hcache, List.prefix_rfl⟩

theorem trans (hfirst : before.KeepsObserved middle) (hsecond : middle.KeepsObserved after) :
    before.KeepsObserved after := by
  intro rows hcache
  obtain ⟨rows', hcache', hprefix⟩ := hfirst rows hcache
  obtain ⟨rows'', hcache'', hprefix'⟩ := hsecond rows' hcache'
  exact ⟨rows'', hcache'', hprefix.trans hprefix'⟩

/-- A statement that leaves the cache table as it is. -/
theorem of_eq (hcache : after.cache = before.cache) : before.KeepsObserved after := by
  intro rows hrows
  exact ⟨rows, hcache.trans hrows, List.prefix_rfl⟩

/-- A statement that adds rows behind the others. -/
theorem of_append (hcache : ∀ rows, before.cache = some rows → ∃ new, after.cache = some (rows ++ new)) :
    before.KeepsObserved after := by
  intro rows hrows
  obtain ⟨new, hnew⟩ := hcache rows hrows
  exact ⟨rows ++ new, hnew, by simp [List.filter_append]⟩

theorem insertAll (records : List HookRecord) (generation : Option Text) (store : Store) :
    store.KeepsObserved (store.insertAll records generation).2 := by
  apply of_append
  intro rows hcache
  cases hfits : fitsBatch records with
  | false =>
      rw [insertAll_of_overflow hfits]
      exact ⟨[], by simp [hcache]⟩
  | true =>
      rw [Store.insertAll, hfits, hcache, Bool.not_true, if_neg Bool.false_ne_true]
      dsimp only
      split
      · exact ⟨_, rfl⟩
      · exact ⟨[], by simp⟩

theorem insertRow (record : HookRecord) (generation : Option Text) (store : Store) :
    store.KeepsObserved (store.insertRow record generation).2 := by
  apply of_append
  intro rows hcache
  simp only [Store.insertRow, hcache]
  split
  · exact ⟨[], by simp [hcache]⟩
  · split
    · exact ⟨[], by simp⟩
    · exact ⟨_, rfl⟩

theorem deleteStatic (store : Store) : store.KeepsObserved store.deleteStatic.2 := by
  intro rows hcache
  refine ⟨rows.filter fun row => !isStaticRow row, by simp [Store.deleteStatic, hcache], ?_⟩
  rw [filter_isObservedRow_filter]

end KeepsObserved

/-- Every statement keeps the observed rows. -/
theorem Writes.keepsObserved (hwrites : Writes before after) : before.KeepsObserved after := by
  induction hwrites with
  | refl store => exact .refl store
  | trans _ _ hfirst hsecond => exact hfirst.trans hsecond
  | insertAll records generation store => exact .insertAll records generation store
  | insertRow record generation store => exact .insertRow record generation store
  | deleteStatic store => exact .deleteStatic store
  | enqueue generation payload store =>
      apply KeepsObserved.of_eq
      unfold Store.enqueue
      grind
  | deleteOtherChunks generation store =>
      apply KeepsObserved.of_eq
      unfold Store.deleteOtherChunks
      grind
  | popOldest store =>
      apply KeepsObserved.of_eq
      unfold Store.popOldest
      grind
  | setOption name value store =>
      apply KeepsObserved.of_eq
      unfold Store.setOption
      grind
  | rollBackTo _ _ => exact .of_eq rfl

/-! ## Answers -/

theorem inserted_foldl_add_le (generation : Option Text) (records : List HookRecord)
    (tally : InsertTally) :
    (records.foldl (InsertTally.add generation) tally).inserted ≤ tally.inserted + records.length := by
  induction records generalizing tally with
  | nil => exact Nat.le_refl _
  | cons record records ih =>
      have hadd : (tally.add generation record).inserted ≤ tally.inserted + 1 := by
        unfold InsertTally.add
        grind
      have hothers := ih (tally.add generation record)
      rw [List.foldl_cons, List.length_cons]
      omega

theorem le_of_value_insertBatch {records : List HookRecord} {generation : Option Text} {store : Store}
    {inserted : Nat} (hvalue : (store.insertBatch records generation).value = .ok inserted) :
    inserted ≤ records.length := by
  rw [insertBatch] at hvalue
  split at hvalue
  · cases hvalue
    exact Nat.zero_le _
  · split at hvalue
    · cases hvalue
      exact Nat.le_refl _
    · next error after _ =>
        split at hvalue
        · cases hvalue
        · cases hvalue
          have htally := inserted_foldl_add_le generation records ⟨after, 0, 0⟩
          simpa [insertRows] using htally

/-- A batch answers exactly where it can be made, and then at most with the number of its records. -/
theorem value_insertBatch_iff (records : List HookRecord) (generation : Option Text) (store : Store) :
    (∃ inserted ≤ records.length, (store.insertBatch records generation).value = .ok inserted) ↔
      fitsBatch records = true := by
  cases hfits : fitsBatch records with
  | false =>
      rw [insertBatch_of_overflow hfits]
      refine iff_of_false ?_ Bool.noConfusion
      rintro ⟨inserted, -, hvalue⟩
      cases hvalue
  | true =>
      obtain ⟨inserted, hvalue⟩ := exists_value_insertBatch hfits generation store
      exact iff_of_true ⟨inserted, le_of_value_insertBatch hvalue, hvalue⟩ rfl

/-- Every chunk was written by the queue: its payload is that of some records. -/
def HoldsPayloads (store : Store) : Prop :=
  ∀ table, store.queue = some table →
    ∀ chunk ∈ table.chunks, ∃ records, QueueChunk.payload? records = some chunk.payload

/-- The oldest chunk is of the valid scan and holds records that no batch can be made of. -/
def DrainOverflows (store : Store) : Prop :=
  ∃ chunk chunks records, store.queue = some ⟨chunk :: chunks, true⟩ ∧
    store.getOption generationOption none = .ok (some chunk.generation) ∧
    chunk.records = .ok records ∧ fitsBatch records = false

end Store

namespace HookCache

variable {cache : HookCache} {store : Store}

theorem le_of_value_replaceStatic {clock : Float} {records : List HookRecord} {generation : Text}
    {handled : Nat} (hvalue : (cache.replaceStatic clock records generation).value = .ok handled) :
    handled ≤ records.length := by
  have hparts : (records.take cache.chunkSize).length + (records.drop cache.chunkSize).length =
      records.length := by
    rw [← List.length_append, List.take_append_drop]
  unfold replaceStatic queueRemaining at hvalue
  grind

/-! ## Draining -/

theorem queue_of_popOldest {after : Store} {chunk : QueueChunk}
    (hpop : store.popOldest = (.ok (some chunk), after)) :
    ∃ chunks, store.queue = some ⟨chunk :: chunks, true⟩ ∧ after.queue = some ⟨chunks, true⟩ ∧
      after.options = store.options := by
  rw [Store.popOldest] at hpop
  split at hpop
  · cases hpop
  · next table hqueue =>
      obtain ⟨chunks, hasPayloadColumn⟩ := table
      split at hpop
      · cases hpop
      · next hcolumn =>
          have hnamed : hasPayloadColumn = true := by simpa using hcolumn
          subst hnamed
          split at hpop
          · cases hpop
          · next hchunks =>
              cases hpop
              dsimp only at hchunks
              subst hchunks
              exact ⟨_, hqueue, rfl, rfl⟩

/-- What was queued can be read.  Where the options are missing, writing it fails; where the chunk is of the
valid scan and no batch can be made of its records, writing it raises; and else it was taken. -/
theorem writeChunk_cases {chunk : QueueChunk} {records : List HookRecord}
    (hrecords : chunk.records = .ok records) (store : Store) :
    ((writeChunk chunk store).value = .failed ∧ store.options = none) ∨
      ((writeChunk chunk store).value = .taken ∧ store.options ≠ none ∧
        ¬(store.getOption generationOption none = .ok (some chunk.generation) ∧
          Store.fitsBatch records = false)) ∨
      (writeChunk chunk store).value = .raised (.store .lineOverflow) ∧
        store.getOption generationOption none = .ok (some chunk.generation) ∧
        Store.fitsBatch records = false := by
  rw [writeChunk]
  cases hread : store.getOption generationOption none with
  | error error =>
      refine .inl ⟨rfl, ?_⟩
      rw [Store.getOption] at hread
      split at hread
      · assumption
      · split at hread
        · cases hread
        · cases hread
  | ok current =>
      have hoptions : store.options ≠ none := by
        intro hnone
        rw [Store.getOption, hnone] at hread
        cases hread
      dsimp only
      split
      · next hother => exact .inr (.inl ⟨rfl, hoptions, fun hvalid => hother (Except.ok.inj hvalid.1)⟩)
      · next hvalid =>
          rw [hrecords, not_not.mp hvalid]
          dsimp only
          cases hfits : Store.fitsBatch records with
          | true =>
              obtain ⟨inserted, hvalue⟩ :=
                Store.exists_value_insertBatch hfits (some chunk.generation) store
              rw [hvalue]
              exact .inr (.inl ⟨rfl, hoptions, fun hoverflow => Bool.noConfusion hoverflow.2⟩)
          | false =>
              rw [Store.insertBatch_of_overflow hfits]
              exact .inr (.inr ⟨rfl, rfl, rfl⟩)

/-- A store that overflows has a chunk to take. -/
theorem popped_of_drainOverflows (hoverflows : store.DrainOverflows) :
    ∃ chunk after, store.popOldest = (.ok (some chunk), after) := by
  obtain ⟨chunk, chunks, records, hqueue, -⟩ := hoverflows
  obtain ⟨after, hpop, -⟩ := Store.popOldest_cons hqueue
  exact ⟨chunk, after, hpop⟩

theorem drainOverflows_iff_of_popped {chunk : QueueChunk} {after : Store} {records : List HookRecord}
    (hpop : store.popOldest = (.ok (some chunk), after)) (hrecords : chunk.records = .ok records) :
    store.DrainOverflows ↔
      after.getOption generationOption none = .ok (some chunk.generation) ∧
        Store.fitsBatch records = false := by
  obtain ⟨chunks, hqueue, -, hoptions⟩ := queue_of_popOldest hpop
  rw [Store.getOption_of_eq hoptions]
  constructor
  · rintro ⟨_, _, others, hfront, hvalid, hothers, hfits⟩
    rw [hqueue, Option.some.injEq, QueueTable.mk.injEq] at hfront
    obtain ⟨rfl, rfl⟩ := List.cons.inj hfront.1
    rw [hrecords] at hothers
    cases hothers
    exact ⟨hvalid, hfits⟩
  · rintro ⟨hvalid, hfits⟩
    exact ⟨chunk, chunks, records, hqueue, hvalid, hrecords, hfits⟩

/-- Taking and writing a chunk that was queued raises exactly where no batch can be made of its records. -/
theorem popAndWrite_raises_iff (hpayloads : store.HoldsPayloads) :
    (∃ error, (popAndWrite store).value = .raised error) ↔ store.DrainOverflows := by
  rw [popAndWrite]
  rcases hpop : store.popOldest with ⟨error | _ | chunk, after⟩
  · refine iff_of_false (by rintro ⟨_, ⟨⟩⟩) fun hoverflows => ?_
    obtain ⟨chunk, left, htaken⟩ := popped_of_drainOverflows hoverflows
    cases hpop.symm.trans htaken
  · refine iff_of_false (by rintro ⟨_, ⟨⟩⟩) fun hoverflows => ?_
    obtain ⟨chunk, left, htaken⟩ := popped_of_drainOverflows hoverflows
    cases hpop.symm.trans htaken
  · obtain ⟨chunks, hqueue, -⟩ := queue_of_popOldest hpop
    obtain ⟨records, hpayload⟩ := hpayloads _ hqueue chunk List.mem_cons_self
    have hrecords : chunk.records = .ok records :=
      QueueChunk.records_of_payload? hpayload chunk.id chunk.generation
    rw [drainOverflows_iff_of_popped hpop hrecords]
    dsimp only
    rcases writeChunk_cases hrecords after with
      ⟨hvalue, hmissing⟩ | ⟨hvalue, -, hno⟩ | ⟨hvalue, hoverflow⟩
    · rw [hvalue, Store.getOption, hmissing]
      exact iff_of_false (by rintro ⟨_, ⟨⟩⟩) (by rintro ⟨⟨⟩, -⟩)
    · rw [hvalue]
      exact iff_of_false (by rintro ⟨_, ⟨⟩⟩) hno
    · exact iff_of_true ⟨_, hvalue⟩ hoverflow

/-- A drain answers whether it took a chunk, whatever the store fails at, unless it comes to records that no
batch can be made of. -/
theorem value_drainOne_iff (hpayloads : cache.store.HoldsPayloads) (clock : Float) :
    (∃ drained, (cache.drainOne clock).value = .ok drained) ↔
      cache.isDraining = true ∨ ¬cache.store.DrainOverflows := by
  rw [← popAndWrite_raises_iff hpayloads, drainOne]
  cases cache.isDraining with
  | true => exact iff_of_true ⟨false, rfl⟩ (.inl rfl)
  | false =>
      rw [if_neg Bool.false_ne_true]
      dsimp only
      cases hvalue : (popAndWrite cache.store).value with
      | failed => simp
      | nothingQueued => simp
      | taken => simp
      | raised error => simp

/-- Chunks that cannot be counted are none. -/
theorem pendingChunks_eq (cache : HookCache) :
    cache.pendingChunks.1 = cache.store.queue.elim 0 fun table => table.chunks.length := by
  unfold pendingChunks Store.chunkCount
  cases cache.store.queue with
  | none => rfl
  | some table => rfl

end HookCache

end HookAtlas
