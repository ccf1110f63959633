/-
# Calls that go on at the same time

Replaces come from requests and drains from a timer, so several calls may be under way on one store.  Each
performs its committed actions in its own order, and the actions of the calls interleave in any way.  A
`WriteCall` is what is left of a call; one step performs its next action, which is one statement, one
transaction or one batch.  Between two steps a call remembers what it has read: a drain that has found its
generation valid goes on to write, whatever happens in between.

The lock lets one drain at a time be between taking a chunk and writing it.  A drain that finds the lock taken
ends at once.

A call that goes on alone performs what the write path performs in one go (`finishes_replace`,
`finishes_drain`).
-/

import HookAtlas.Proofs.Cache.Drain

namespace HookAtlas

/-- What is left to do of a replace or of a drain, named by its next action. -/
inductive WriteCall
  | transaction (generation : Text) (first : List HookRecord) (rest : List (List HookRecord))
  | deleteRows (generation : Text) (first : List HookRecord) (rest : List (List HookRecord))
  | deleteChunks (generation : Text) (first : List HookRecord) (rest : List (List HookRecord))
  | setGeneration (generation : Text) (first : List HookRecord) (rest : List (List HookRecord))
  | insertRow (generation : Text) (record : HookRecord) (records : List HookRecord)
    (rest : List (List HookRecord))
  | enqueue (generation : Text) (chunk : List HookRecord) (chunks : List (List HookRecord))
  | pop
  | check (chunk : QueueChunk)
  | write (generation : Text) (records : List HookRecord)
  | finished

namespace WriteCall

/-- A replace of all static records, before its first action. -/
def replace (chunkSize : Nat) (records : List HookRecord) (generation : Text) : WriteCall :=
  .transaction generation (records.take chunkSize) (chunksOf chunkSize (records.drop chunkSize))

/-- A drain of one chunk, before its first action. -/
def drain : WriteCall :=
  .pop

/-- Queue what is left of a replace. -/
def queueing (generation : Text) : List (List HookRecord) → WriteCall
  | [] => .finished
  | chunk :: chunks => .enqueue generation chunk chunks

/-- Insert rows one by one and then queue what is left of a replace. -/
def inserting (generation : Text) (rest : List (List HookRecord)) : List HookRecord → WriteCall
  | [] => queueing generation rest
  | record :: records => .insertRow generation record records rest

/-- Whether a call is a drain that holds the lock. -/
def holdsLock : WriteCall → Bool
  | .check _ | .write _ _ => true
  | _ => false

/-- Perform the next action of a call, given whether another drain holds the lock. -/
def step (isLocked : Bool) (store : Store) : WriteCall → WriteCall × Store
  | .transaction generation first rest =>
    match store.replaceAtOnce first generation with
    | (.ok (), store) => (queueing generation rest, store)
    | (.error error, store) =>
      if error.isHandled then (.deleteRows generation first rest, store) else (.finished, store)
  | .deleteRows generation first rest =>
    match store.deleteStatic with
    | (.ok (), store) => (.deleteChunks generation first rest, store)
    | (.error _, store) => (.finished, store)
  | .deleteChunks generation first rest =>
    match store.deleteOtherChunks generation with
    | (.ok (), store) => (.setGeneration generation first rest, store)
    | (.error _, store) => (.finished, store)
  | .setGeneration generation first rest =>
    match store.setOption generationOption (some generation) with
    | (.ok (), store) => (inserting generation rest first, store)
    | (.error _, store) => (.finished, store)
  | .insertRow generation record records rest =>
    (inserting generation rest records, (store.insertRow record (some generation)).2)
  | .enqueue generation chunk chunks =>
    match store.enqueueRecords generation chunk with
    | (.ok (), store) => (queueing generation chunks, store)
    | (.error _, store) => (.finished, store)
  | .pop =>
    if isLocked then (.finished, store)
    else
      match store.popOldest with
      | (.ok (some chunk), store) => (.check chunk, store)
      | (_, store) => (.finished, store)
  | .check chunk =>
    match store.getOption generationOption none with
    | .error _ => (.finished, store)
    | .ok current =>
      if current ≠ some chunk.generation then (.finished, store)
      else
        match chunk.records with
        | .error _ => (.finished, store)
        | .ok records => (.write chunk.generation records, store)
  | .write generation records => (.finished, (store.insertBatch records (some generation)).state)
  | .finished => (.finished, store)

end WriteCall

/-- A store and what is left of each of the calls that are under way on it. -/
structure SharedStore where
  store : Store
  calls : List WriteCall

namespace SharedStore

/-- The calls besides the one at a place. -/
def others (shared : SharedStore) (place : Nat) : List WriteCall :=
  shared.calls.eraseIdx place

/-- The call at a place performs its next action. -/
def step (shared : SharedStore) (place : Nat) : SharedStore :=
  match shared.calls[place]? with
  | none => shared
  | some call =>
    let (call, store) := call.step ((shared.others place).any WriteCall.holdsLock) shared.store
    ⟨store, shared.calls.set place call⟩

/-- Calls perform their actions in the order in which their places are named. -/
def run (order : List Nat) (shared : SharedStore) : SharedStore :=
  order.foldl step shared

end SharedStore

namespace WriteCall

variable {store after : Store} {call : WriteCall}

/-! ## A call that goes on alone -/

/-- A call that goes on alone comes to its end and leaves a store. -/
def Finishes (call : WriteCall) (store after : Store) : Prop :=
  ∃ steps, SharedStore.run (List.replicate steps 0) ⟨store, [call]⟩ = ⟨after, [.finished]⟩

theorem Finishes.refl (store : Store) : Finishes .finished store store :=
  ⟨0, rfl⟩

theorem Finishes.of_step {next : WriteCall} {middle : Store} (hstep : call.step false store = (next, middle))
    (hfinishes : next.Finishes middle after) : call.Finishes store after := by
  obtain ⟨steps, hrun⟩ := hfinishes
  refine ⟨steps + 1, ?_⟩
  have hfirst : SharedStore.step ⟨store, [call]⟩ 0 = ⟨middle, [next]⟩ := by
    have hunlocked : SharedStore.step ⟨store, [call]⟩ 0 =
        ⟨(call.step false store).2, [(call.step false store).1]⟩ := rfl
    rw [hunlocked, hstep]
  rw [List.replicate_succ, SharedStore.run, List.foldl_cons, hfirst]
  exact hrun

theorem finishes_queueing (generation : Text) (chunks : List (List HookRecord)) (store : Store) :
    (queueing generation chunks).Finishes store (store.enqueueChunks generation chunks).2 := by
  induction chunks generalizing store with
  | nil => exact .refl store
  | cons chunk chunks ih =>
      rw [queueing, Store.enqueueChunks]
      rcases henqueue : store.enqueueRecords generation chunk with ⟨_ | ⟨⟩, middle⟩
      · exact .of_step (by rw [step, henqueue]) (.refl middle)
      · exact .of_step (by rw [step, henqueue]) (ih middle)

theorem finishes_inserting (generation : Text) (rest : List (List HookRecord))
    (records : List HookRecord) (tally : Store.InsertTally) :
    (inserting generation rest records).Finishes tally.store
      ((records.foldl (Store.InsertTally.add (some generation)) tally).store.enqueueChunks
        generation rest).2 := by
  induction records generalizing tally with
  | nil => exact finishes_queueing generation rest tally.store
  | cons record records ih =>
      rw [inserting, List.foldl_cons]
      refine .of_step rfl ?_
      rw [← Store.store_add]
      exact ih _

/-- A replace whose transaction has failed performs the statements and the rows of the stepwise one. -/
theorem finishes_deleteRows (generation : Text) (first : List HookRecord)
    (rest : List (List HookRecord)) (store : Store) :
    (WriteCall.deleteRows generation first rest).Finishes store
      (match Store.replaceStepwise first generation store with
        | ⟨.ok (), store, _⟩ => (store.enqueueChunks generation rest).2
        | ⟨.error _, store, _⟩ => store) := by
  rw [Store.replaceStepwise, Store.supersedeStatements, Store.sequence]
  rcases hrows : store.deleteStatic with ⟨_ | ⟨⟩, bare⟩
  · exact .of_step (by rw [step, hrows]) (.refl bare)
  refine .of_step (by rw [step, hrows]) ?_
  dsimp only
  rw [Store.sequence]
  rcases hchunks : bare.deleteOtherChunks generation with ⟨_ | ⟨⟩, cleared⟩
  · exact .of_step (by rw [step, hchunks]) (.refl cleared)
  refine .of_step (by rw [step, hchunks]) ?_
  dsimp only
  rw [Store.sequence]
  rcases hoption : cleared.setOption generationOption (some generation) with ⟨_ | ⟨⟩, ready⟩
  · exact .of_step (by rw [step, hoption]) (.refl ready)
  refine .of_step (by rw [step, hoption]) ?_
  exact finishes_inserting generation rest first ⟨ready, 0, 0⟩

/-- The store that a replace leaves. -/
theorem store_replaceStatic (cache : HookCache) (clock : Float) (records : List HookRecord)
    (generation : Text) :
    (cache.replaceStatic clock records generation).state.store =
      match cache.store.replaceStatic (records.take cache.chunkSize) generation with
      | ⟨.ok (), store, _⟩ =>
        (store.enqueueChunks generation (chunksOf cache.chunkSize (records.drop cache.chunkSize))).2
      | ⟨.error _, store, _⟩ => store := by
  rw [HookCache.replaceStatic]
  rcases cache.store.replaceStatic (records.take cache.chunkSize) generation with
    ⟨_ | ⟨⟩, store, notices⟩
  · rfl
  dsimp only
  by_cases hempty : records = []
  · rw [if_pos hempty, hempty, List.drop_nil, chunksOf_nil]
    rfl
  rw [if_neg hempty, HookCache.queueRemaining]
  by_cases hrest : records.drop cache.chunkSize = []
  · rw [if_pos hrest, hrest, chunksOf_nil]
    rfl
  rw [if_neg hrest, HookCache.queueEntries]
  dsimp only
  rcases store.enqueueChunks generation (chunksOf cache.chunkSize (records.drop cache.chunkSize)) with
    ⟨error | ⟨⟩, queued⟩
  · dsimp only [Except.map]
    cases error.isHandled with
    | true => rfl
    | false => rfl
  · rfl

/-- A replace that goes on alone is the one of the write path. -/
theorem finishes_replace (cache : HookCache) (clock : Float) (records : List HookRecord)
    (generation : Text) :
    (WriteCall.replace cache.chunkSize records generation).Finishes cache.store
      (cache.replaceStatic clock records generation).state.store := by
  rw [store_replaceStatic, Store.replaceStatic, WriteCall.replace]
  rcases htransaction : cache.store.replaceAtOnce (records.take cache.chunkSize) generation with
    ⟨error | ⟨⟩, store⟩
  · refine .of_step (by rw [step, htransaction]) ?_
    have hstepwise := finishes_deleteRows generation (records.take cache.chunkSize)
      (chunksOf cache.chunkSize (records.drop cache.chunkSize)) store
    dsimp only
    cases hhandled : error.isHandled with
    | false => exact .refl store
    | true =>
        rcases hresult : Store.replaceStepwise (records.take cache.chunkSize) generation store with
          ⟨_ | ⟨⟩, after, notices⟩
        · rw [hresult] at hstepwise
          exact hstepwise
        · rw [hresult] at hstepwise
          exact hstepwise
  · refine .of_step (by rw [step, htransaction]) ?_
    exact finishes_queueing _ _ _

/-- A drain that goes on alone takes the oldest chunk and writes it. -/
theorem finishes_pop (store : Store) : WriteCall.pop.Finishes store (HookCache.popAndWrite store).state := by
  rw [HookCache.popAndWrite]
  rcases hpop : store.popOldest with ⟨_ | _ | chunk, popped⟩
  · exact .of_step (by rw [step, hpop]; rfl) (.refl popped)
  · exact .of_step (by rw [step, hpop]; rfl) (.refl popped)
  have htake : WriteCall.pop.step false store = (.check chunk, popped) := by
    rw [step, hpop]
    rfl
  refine .of_step htake ?_
  dsimp only
  rw [HookCache.writeChunk]
  rcases hread : popped.getOption generationOption none with _ | current
  · exact .of_step (by rw [step, hread]) (.refl popped)
  dsimp only
  by_cases hvalid : current ≠ some chunk.generation
  · rw [if_pos hvalid]
    exact .of_step (by rw [step, hread]; dsimp only; rw [if_pos hvalid]) (.refl popped)
  rw [if_neg hvalid]
  rcases hrecords : chunk.records with _ | records
  · exact .of_step (by rw [step, hread]; dsimp only; rw [if_neg hvalid, hrecords]) (.refl popped)
  have hcheck : (WriteCall.check chunk).step false popped = (.write chunk.generation records, popped) := by
    rw [step, hread]
    dsimp only
    rw [if_neg hvalid, hrecords]
  refine .of_step hcheck (.of_step rfl ?_)
  dsimp only
  cases (popped.insertBatch records (some chunk.generation)).value with
  | error error => exact .refl _
  | ok inserted => exact .refl _

/-- A drain that goes on alone is the one of the write path. -/
theorem finishes_drain {cache : HookCache} (hfree : cache.isDraining = false) (clock : Float) :
    WriteCall.drain.Finishes cache.store (cache.drainOne clock).state.store := by
  rw [HookCache.store_drainOne hfree, drain]
  exact finishes_pop cache.store

end WriteCall

end HookAtlas
