/-
# Queueing records and draining them

Records that are not written at once wait in the queue, in chunks and in order.  A tick takes the
oldest chunk off the queue and writes its records, unless the chunk belongs to a scan that a newer
one has superseded; then it is discarded.  While chunks remain, every tick schedules the next one.  A tick
that raises has taken its chunk already and schedules none.
-/

import HookAtlas.Cache.Basic
import HookAtlas.Json.Parser
import HookAtlas.Json.Printer

namespace HookAtlas

/-- The option that names the scan whose records are the valid ones. -/
def generationOption : Text :=
  "static_generation"

/-- Cut a list into pieces of a given length, the last of which may be shorter. -/
def chunksOf {α : Type} (size : Nat) (items : List α) : List (List α) :=
  if size = 0 ∨ items = [] then []
  else items.take size :: chunksOf size (items.drop size)
termination_by items.length
decreasing_by
  rename_i h
  have : items ≠ [] := fun empty => h (Or.inr empty)
  have := List.length_pos_iff.mpr this
  have : size ≠ 0 := fun empty => h (Or.inl empty)
  simp only [List.length_drop]
  omega

/-- A payload that is no JSON list, or one with a record that breaks rules. -/
inductive MalformedPayload
  | unreadable
  | invalid (issues : List Issue)

/-- Why a drain raises after it has taken a chunk: the chunk cannot be read, or its records cannot be made a
batch. -/
inductive DrainError
  | malformed (error : MalformedPayload)
  | store (error : StoreError)

namespace QueueChunk

def payload? (records : List HookRecord) : Option Text :=
  (Json.list (records.map HookRecord.toJson)).print?

/-- Read records one after the other, up to the first that is invalid.  A payload names both moments
of each record, so the clock is not asked. -/
def readRecords : List Json → Except MalformedPayload (List HookRecord)
  | [] => .ok []
  | item :: items =>
    match HookRecord.ofJson .epoch item with
    | .error issues => .error (.invalid issues)
    | .ok record => (readRecords items).map (record :: ·)

def records (chunk : QueueChunk) : Except MalformedPayload (List HookRecord) :=
  match Json.parse? chunk.payload with
  | some (.list items) => readRecords items
  | _ => .error .unreadable

def hookNames (chunk : QueueChunk) : List Text :=
  match Json.parse? chunk.payload with
  | some (.list items) => items.filterMap fun item => (item.field? "hook_name").bind Json.text?
  | _ => []

end QueueChunk

namespace Store

/-- Write records as a chunk and append it to the queue. -/
def enqueueRecords (generation : Text) (records : List HookRecord) (store : Store) : Answer Unit :=
  match QueueChunk.payload? records with
  | none => (.error .longNumber, store)
  | some payload => enqueue generation payload store

/-- Append chunks of records to the queue, up to the first that fails. -/
def enqueueChunks (generation : Text) : List (List HookRecord) → Store → Answer Unit
  | [], store => (.ok (), store)
  | chunk :: chunks, store =>
    match enqueueRecords generation chunk store with
    | (.ok (), store) => enqueueChunks generation chunks store
    | (.error error, store) => (.error error, store)

end Store

namespace HookCache

/-- Append records to the queue in chunks.  Answers the number of chunks. -/
def queueEntries (records : List HookRecord) (generation : Text) (cache : HookCache) :
    Except StoreError Nat × HookCache :=
  let chunks := chunksOf cache.chunkSize records
  let (answer, store) := cache.store.enqueueChunks generation chunks
  (answer.map fun _ => chunks.length, { cache with store })

/-- What became of taking a chunk.  One that was taken was written or discarded. -/
inductive DrainOutcome
  | failed
  | nothingQueued
  | taken
  | raised (error : DrainError)

/-- Write the records of a chunk that was taken off the queue, if its scan is still the valid one. -/
def writeChunk (chunk : QueueChunk) (store : Store) : Reported Store DrainOutcome :=
  match store.getOption generationOption none with
  | .error _ => ⟨.failed, store, []⟩
  | .ok current =>
    if current ≠ some chunk.generation then ⟨.taken, store, []⟩
    else
      match chunk.records with
      | .error error => ⟨.raised (.malformed error), store, []⟩
      | .ok records =>
        let result := store.insertBatch records (some chunk.generation)
        match result.value with
        | .ok _ => ⟨.taken, result.state, result.notices⟩
        | .error error => ⟨.raised (.store error), result.state, result.notices⟩

def popAndWrite (store : Store) : Reported Store DrainOutcome :=
  match store.popOldest with
  | (.error _, store) => ⟨.failed, store, []⟩
  | (.ok none, store) => ⟨.nothingQueued, store, []⟩
  | (.ok (some chunk), store) => writeChunk chunk store

def scheduleNext (clock : Float) (cache : HookCache) : HookCache × List Notice :=
  let (count, notices) := cache.pendingChunks
  if count > 0 then ((cache.scheduleDrain clock cache.drainDelay).2, notices) else (cache, notices)

/-- Drain one chunk: take the oldest one off the queue, write it, and schedule the next tick while
chunks remain.  Answers whether a chunk was taken.  While another drain is under way nothing
happens. -/
def drainOne (clock : Float) (cache : HookCache) :
    Reported HookCache (Except DrainError Bool) :=
  if cache.isDraining then ⟨.ok false, cache, []⟩
  else
    let result := popAndWrite cache.store
    let cache := { cache with store := result.state }
    let finish (drained : Bool) (notices : List Notice) :
        Reported HookCache (Except DrainError Bool) :=
      let (cache, more) := cache.scheduleNext clock
      ⟨.ok drained, cache, notices ++ more⟩
    match result.value with
    | .failed => finish false (result.notices ++ [.drainFailed])
    | .nothingQueued => finish false result.notices
    | .taken => finish true result.notices
    | .raised error => ⟨.error error, cache, result.notices⟩

/-- Run a tick that was taken from the slot.  An error reaches the host that ran the tick; that of a
tick that a timer ran is reported. -/
def runTick (clock : Float) (cache : HookCache) :
    Reported HookCache (Except DrainError Bool) :=
  let result := cache.drainOne clock
  match result.value with
  | .ok _ => ⟨.ok true, result.state, result.notices⟩
  | .error error =>
    if result.state.scheduler.passesErrors then ⟨.error error, result.state, result.notices⟩
    else ⟨.ok true, result.state, result.notices ++ [.taskRaised]⟩

/-- Run the pending tick if its time has come.  Answers whether it ran. -/
def runDue (clock : Float) (cache : HookCache) :
    Reported HookCache (Except DrainError Bool) :=
  match cache.scheduler.takeDue? clock with
  | none => ⟨.ok false, cache, []⟩
  | some (_, scheduler) => runTick clock { cache with scheduler }

/-- Run the pending tick now, as the host or as its timer does.  Answers whether there was one. -/
def runNow (clock : Float) (cache : HookCache) :
    Reported HookCache (Except DrainError Bool) :=
  match cache.scheduler.takeNow? with
  | none => ⟨.ok false, cache, []⟩
  | some (_, scheduler) => runTick clock { cache with scheduler }

end HookCache

end HookAtlas
