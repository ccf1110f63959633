/-
# Replacing the static records

A scan replaces all static records by its own.  The first chunk is written at once, in a transaction
with the removal of the old rows, of the chunks of older scans, and with the new generation.  Where
the transaction fails the same statements are performed one by one and the rows one by one.  The
remaining records are queued, and a tick is scheduled at once.

No failure of the store reaches the caller; a replace that the store refuses answers zero.  A first chunk
that cannot be made a batch, and a later one that cannot be written as a payload, raise.
-/

import HookAtlas.Cache.Queue

namespace HookAtlas

namespace Store

/-- The statements that remove what older scans left and make a generation the valid one. -/
def supersedeStatements (generation : Text) : List (Store → Answer Unit) :=
  [deleteStatic, deleteOtherChunks generation, setOption generationOption (some generation)]

/-- Replace the static rows in one transaction. -/
def replaceAtOnce (records : List HookRecord) (generation : Text) (store : Store) : Answer Unit :=
  transaction
    (supersedeStatements generation ++
      (if records = [] then [] else [insertAll records (some generation)]))
    store

/-- Replace the static rows statement by statement and row by row. -/
def replaceStepwise (records : List HookRecord) (generation : Text) (store : Store) :
    Reported Store (Except StoreError Unit) :=
  match sequence (supersedeStatements generation) store with
  | (.error error, store) => ⟨.error error, store, []⟩
  | (.ok (), store) =>
    let result := insertRows records (some generation) store
    ⟨.ok (), result.state, result.notices⟩

/-- Replace the static rows, in one transaction or, where that fails, stepwise. -/
def replaceStatic (records : List HookRecord) (generation : Text) (store : Store) :
    Reported Store (Except StoreError Unit) :=
  match replaceAtOnce records generation store with
  | (.ok (), store) => ⟨.ok (), store, []⟩
  | (.error error, store) =>
    if !error.isHandled then ⟨.error error, store, []⟩
    else
      let result := replaceStepwise records generation store
      match result.value with
      | .ok () => ⟨.ok (), result.state, .replaceRetried :: result.notices⟩
      | .error error =>
        ⟨.error error, result.state, .replaceRetried :: (result.notices ++ [.replaceFailed])⟩

end Store

namespace HookCache

/-- Queue the records beyond the first chunk and schedule a tick.  Answers the number of records
handled. -/
def queueRemaining (clock : Float) (written remaining : List HookRecord) (generation : Text)
    (cache : HookCache) : Reported HookCache (Except StoreError Nat) :=
  if remaining = [] then ⟨.ok written.length, cache, []⟩
  else
    match cache.queueEntries remaining generation with
    | (.error error, cache) =>
      if error.isHandled then ⟨.ok written.length, cache, [.queueFailed]⟩
      else ⟨.error error, cache, []⟩
    | (.ok _, cache) =>
      ⟨.ok (written.length + remaining.length), (cache.scheduleDrain clock 0).2, []⟩

/-- Replace all static records.  Answers the number of records written or queued. -/
def replaceStatic (clock : Float) (records : List HookRecord) (generation : Text)
    (cache : HookCache) : Reported HookCache (Except StoreError Nat) :=
  let first := records.take cache.chunkSize
  let result := cache.store.replaceStatic first generation
  let cache := { cache with store := result.state }
  match result.value with
  | .error error => ⟨if error.isHandled then .ok 0 else .error error, cache, result.notices⟩
  | .ok () =>
    if records = [] then ⟨.ok 0, cache, result.notices⟩
    else
      let rest := queueRemaining clock first (records.drop cache.chunkSize) generation cache
      ⟨rest.value, rest.state, result.notices ++ rest.notices⟩

end HookCache

end HookAtlas
