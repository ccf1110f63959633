/-
# The write path of the catalogue

A cache is a store together with what writes to it: the chunk size, the scheduler of the ticks that
drain the queue, and the lock that lets only one drain be between taking a chunk and writing it.

What an operation answers is reported together with the cache after it and the notices it gave.  A failure
of the store is handled and becomes part of the answer; any other error reaches the caller.
-/

import HookAtlas.Notice
import HookAtlas.Scheduler.Basic
import HookAtlas.Store.Basic

namespace HookAtlas

inductive DrainTick
  | drain
deriving DecidableEq, Repr

/-- A store and what writes to it.  So many records as the chunk size are written or queued together, at least
one; the delay is that between two ticks in seconds. -/
structure HookCache where
  store : Store
  scheduler : Scheduler Float DrainTick
  chunkSize : Nat
  drainDelay : Float
  isDraining : Bool
  chunkSize_pos : 0 < chunkSize

/-- The answer of an operation, the state after it, and the notices it gave. -/
structure Reported (σ α : Type) where
  value : α
  state : σ
  notices : List Notice

namespace HookCache

/-- A cache on a store, with an empty slot of its scheduler.  A chunk size below one counts as
one. -/
def onStore (store : Store) (scheduler : Scheduler Float DrainTick) (chunkSize : Int)
    (drainDelay : Float) : HookCache where
  store := store
  scheduler := scheduler
  chunkSize := max 1 chunkSize.toNat
  drainDelay := drainDelay
  isDraining := false
  chunkSize_pos := Nat.lt_of_lt_of_le Nat.zero_lt_one (Nat.le_max_left _ _)

/-- Make sure that a tick is scheduled; a pending one is left as it is. -/
def scheduleDrain (now delay : Float) (cache : HookCache) : Bool × HookCache :=
  let (accepted, scheduler) := cache.scheduler.schedule now DrainTick.drain delay
  (accepted, { cache with scheduler })

/-- The number of queued chunks; none where they cannot be counted. -/
def pendingChunks (cache : HookCache) : Nat × List Notice :=
  match cache.store.chunkCount with
  | .ok n => (n, [])
  | .error _ => (0, [.countFailed])

/-- The number of rows of a batch of which each failure is reported. -/
def maxReportedFailures : Nat :=
  3

end HookCache

namespace Store

/-- How the rows of a batch fared: how many were inserted and how many failed. -/
structure InsertTally where
  store : Store
  inserted : Nat
  failed : Nat

def InsertTally.add (generation : Option Text) (tally : InsertTally) (record : HookRecord) :
    InsertTally :=
  match insertRow record generation tally.store with
  | (.ok (), store) => ⟨store, tally.inserted + 1, tally.failed⟩
  | (.error _, store) => ⟨store, tally.inserted, tally.failed + 1⟩

/-- The notices about the rows that failed: one for each of the first few, and one for the batch. -/
def InsertTally.notices (tally : InsertTally) : List Notice :=
  if tally.failed = 0 then []
  else List.replicate (min tally.failed HookCache.maxReportedFailures) .insertFailed ++
    [.insertsIncomplete]

/-- Insert records row by row, attempting each. -/
def insertRows (records : List HookRecord) (generation : Option Text) (store : Store) :
    Reported Store Nat :=
  let tally := records.foldl (InsertTally.add generation) ⟨store, 0, 0⟩
  ⟨tally.inserted, tally.store, tally.notices⟩

/-- Insert records at once, and row by row where the store fails.  Answers how many were inserted. -/
def insertBatch (records : List HookRecord) (generation : Option Text) (store : Store) :
    Reported Store (Except StoreError Nat) :=
  if records = [] then ⟨.ok 0, store, []⟩
  else
    match insertAll records generation store with
    | (.ok (), store) => ⟨.ok records.length, store, []⟩
    | (.error error, store) =>
      if !error.isHandled then ⟨.error error, store, []⟩
      else
        let result := insertRows records generation store
        ⟨.ok result.value, result.state, result.notices⟩

end Store

namespace HookCache

def insertBatch (records : List HookRecord) (generation : Option Text) (cache : HookCache) :
    Reported HookCache (Except StoreError Nat) :=
  let result := cache.store.insertBatch records generation
  ⟨result.value, { cache with store := result.state }, result.notices⟩

end HookCache

end HookAtlas
