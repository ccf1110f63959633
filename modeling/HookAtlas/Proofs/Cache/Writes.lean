/-
# What the operations of the write path do to the store

Inserting, replacing and draining change the store by statements only, whatever fails on the way.  So do
replaces and drains whose actions interleave.
-/

import HookAtlas.Proofs.Cache.Drain
import HookAtlas.Proofs.Cache.Interleaving
import HookAtlas.Proofs.Store.Writes

namespace HookAtlas

namespace HookCache

open Store (WritesRecords)

/-! ## Inserting and replacing -/

theorem writes_insertBatch (records : List HookRecord) (generation : Option Text)
    (cache : HookCache) :
    WritesRecords cache.store (cache.insertBatch records generation).state.store :=
  Store.writes_insertBatch records generation cache.store

theorem writes_queueRemaining (clock : Float) (written remaining : List HookRecord)
    (generation : Text) (cache : HookCache) :
    WritesRecords cache.store (cache.queueRemaining clock written remaining generation).state.store := by
  have hchunks : WritesRecords cache.store (cache.queueEntries remaining generation).2.store :=
    Store.writes_enqueueChunks generation (chunksOf cache.chunkSize remaining) cache.store
  rw [queueRemaining]
  split
  · exact .refl cache.store
  · split
    · next hqueued =>
        rw [hqueued] at hchunks
        split
        · exact hchunks
        · exact hchunks
    · next hqueued =>
        rw [hqueued] at hchunks
        exact hchunks

theorem writes_replaceStatic (clock : Float) (records : List HookRecord) (generation : Text)
    (cache : HookCache) :
    WritesRecords cache.store (cache.replaceStatic clock records generation).state.store := by
  have hfirst := Store.writes_replaceStatic (records.take cache.chunkSize) generation cache.store
  rw [replaceStatic]
  dsimp only
  split
  · exact hfirst
  · split
    · exact hfirst
    · have hqueued := writes_queueRemaining clock (records.take cache.chunkSize)
        (records.drop cache.chunkSize) generation { cache with
          store := (cache.store.replaceStatic (records.take cache.chunkSize) generation).state }
      exact hfirst.trans hqueued

/-! ## Draining -/

theorem writes_writeChunk (chunk : QueueChunk) (store : Store) :
    WritesRecords store (writeChunk chunk store).state := by
  rw [writeChunk]
  split
  · exact .refl store
  · split
    · exact .refl store
    · split
      · exact .refl store
      · next records _ =>
          have hbatch := Store.writes_insertBatch records (some chunk.generation) store
          dsimp only
          split
          · exact hbatch
          · exact hbatch

theorem writes_popAndWrite (store : Store) : WritesRecords store (popAndWrite store).state := by
  have hpop := WritesRecords.popOldest store
  rw [popAndWrite]
  split
  · next hpopped =>
      rw [hpopped] at hpop
      exact hpop
  · next hpopped =>
      rw [hpopped] at hpop
      exact hpop
  · next chunk after hpopped =>
      rw [hpopped] at hpop
      exact hpop.trans (writes_writeChunk chunk after)

theorem writes_drainOne (clock : Float) (cache : HookCache) :
    WritesRecords cache.store (cache.drainOne clock).state.store := by
  cases hfree : cache.isDraining with
  | true =>
      rw [drainOne, if_pos hfree]
      exact .refl cache.store
  | false =>
      rw [store_drainOne hfree]
      exact writes_popAndWrite cache.store

theorem writes_runDue (clock : Float) (cache : HookCache) :
    WritesRecords cache.store (cache.runDue clock).state.store := by
  rw [runDue]
  split
  · exact .refl cache.store
  · next scheduler _ =>
      rw [state_runTick]
      exact writes_drainOne clock { cache with scheduler }

theorem writes_runNow (clock : Float) (cache : HookCache) :
    WritesRecords cache.store (cache.runNow clock).state.store := by
  rw [runNow]
  split
  · exact .refl cache.store
  · next scheduler _ =>
      rw [state_runTick]
      exact writes_drainOne clock { cache with scheduler }

end HookCache

/-! ## Calls that interleave -/

/-- Every action of a call is one statement of the write path, or one transaction, or it only reads. -/
theorem WriteCall.writes_step (call : WriteCall) (isLocked : Bool) (store : Store) :
    Store.WritesRecords store (call.step isLocked store).2 := by
  cases call with
  | transaction generation first rest =>
      have hwrites := Store.writes_replaceAtOnce first generation store
      rw [step]
      split
      · next hanswer =>
          rw [hanswer] at hwrites
          exact hwrites
      · next hanswer =>
          rw [hanswer] at hwrites
          split
          · exact hwrites
          · exact hwrites
  | deleteRows generation first rest =>
      have hwrites := Store.WritesRecords.deleteStatic store
      rw [step]
      split
      · next hanswer =>
          rw [hanswer] at hwrites
          exact hwrites
      · next hanswer =>
          rw [hanswer] at hwrites
          exact hwrites
  | deleteChunks generation first rest =>
      have hwrites := Store.WritesRecords.deleteOtherChunks generation store
      rw [step]
      split
      · next hanswer =>
          rw [hanswer] at hwrites
          exact hwrites
      · next hanswer =>
          rw [hanswer] at hwrites
          exact hwrites
  | setGeneration generation first rest =>
      have hwrites := Store.WritesRecords.setGeneration generation store
      rw [step]
      split
      · next hanswer =>
          rw [hanswer] at hwrites
          exact hwrites
      · next hanswer =>
          rw [hanswer] at hwrites
          exact hwrites
  | insertRow generation record records rest => exact .insertRow record (some generation) store
  | enqueue generation chunk chunks =>
      have hwrites := Store.writes_enqueueRecords generation chunk store
      rw [step]
      split
      · next hanswer =>
          rw [hanswer] at hwrites
          exact hwrites
      · next hanswer =>
          rw [hanswer] at hwrites
          exact hwrites
  | pop =>
      have hwrites := Store.WritesRecords.popOldest store
      rw [step]
      split
      · exact .refl store
      · split
        · next hanswer =>
            rw [hanswer] at hwrites
            exact hwrites
        · next hanswer =>
            rw [hanswer] at hwrites
            exact hwrites
  | check chunk =>
      rw [step]
      split
      · exact .refl store
      · split
        · exact .refl store
        · split
          · exact .refl store
          · exact .refl store
  | write generation records => exact Store.writes_insertBatch records (some generation) store
  | finished => exact .refl store

namespace SharedStore

theorem writes_step (shared : SharedStore) (place : Nat) :
    Store.WritesRecords shared.store (shared.step place).store := by
  rw [step]
  split
  · exact .refl shared.store
  · next call _ => exact call.writes_step _ shared.store

/-- Whatever the order of their actions, calls change the store by statements of the write path. -/
theorem writes_run (order : List Nat) (shared : SharedStore) :
    Store.WritesRecords shared.store (shared.run order).store := by
  induction order generalizing shared with
  | nil => exact .refl shared.store
  | cons place order ih => exact (shared.writes_step place).trans (ih (shared.step place))

end SharedStore

end HookAtlas
