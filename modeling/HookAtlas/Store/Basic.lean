/-
# The store

Three tables and two number sequences.  The cache table holds one row per observed occurrence, the
queue table the chunks of records that wait to be written, and the option table named values.  Rows
and chunks are kept in the order of their numbers.  A sequence never goes back while the store is
open, so a number is given out once, whatever becomes of the row.  A store that is closed forgets the
numbers that failed statements have used up, unless something was written since it was opened.

Any table may be missing; a statement on a missing table fails.  Each statement here is one committed
action and answers with the store after it, also where it fails.

Several records are handed to the store as one batch, which is a table of columns.  Its line column has 64
bits and a sign, and where a record has no line the column is put together as doubles first.  A batch with a
line beyond that cannot be made; this is no failure of the store, and whoever handles those does not
handle it.
-/

import HookAtlas.Hook.Record

namespace HookAtlas

/-- Why a statement cannot be performed.  The last two are found before the store is asked: a line that no
batch can carry, and a number with more digits than a payload is written with. -/
inductive StoreError
  | missingTable
  | missingColumn
  | rejectedValue
  | lineOverflow
  | longNumber
deriving DecidableEq, Repr

/-- Whether the write path handles an error.  It counts on failures of the store only. -/
def StoreError.isHandled : StoreError → Bool
  | .missingTable | .missingColumn | .rejectedValue => true
  | .lineOverflow | .longNumber => false

/-- A row of the cache table, with the generation of the scan that wrote it. -/
structure CacheRow where
  id : Nat
  record : HookRecord
  generation : Option Text
deriving DecidableEq, Repr

/-- A chunk of records that waits to be written, with the records as JSON. -/
structure QueueChunk where
  id : Nat
  generation : Text
  payload : Text
deriving DecidableEq, Repr

/-- The queue table.  Its payload column may have another name than the one that statements use. -/
structure QueueTable where
  chunks : List QueueChunk
  hasPayloadColumn : Bool
deriving DecidableEq, Repr

/-- The tables and the sequences, with the next numbers of a row and of a chunk as they were when the store
was opened; none as soon as something is written. -/
structure Store where
  cache : Option (List CacheRow)
  queue : Option QueueTable
  options : Option (List (Text × Option Text))
  nextRowId : Nat
  nextChunkId : Nat
  unwrittenSince : Option (Nat × Nat)
deriving DecidableEq, Repr

namespace Store

abbrev Answer (α : Type) := Except StoreError α × Store

def empty : Store :=
  ⟨some [], some ⟨[], true⟩, some [], 1, 1, none⟩

/-- A new store before its tables are made. -/
def blank : Store :=
  ⟨none, none, none, 1, 1, none⟩

def hasAllTables (store : Store) : Bool :=
  store.cache.isSome && store.queue.isSome && store.options.isSome

def createMissingTables (store : Store) : Store :=
  { store with
    cache := store.cache.orElse fun _ => some []
    queue := store.queue.orElse fun _ => some ⟨[], true⟩
    options := store.options.orElse fun _ => some []
    unwrittenSince := if store.hasAllTables then store.unwrittenSince else none }

def reopen (store : Store) : Store :=
  match store.unwrittenSince with
  | none => { store with unwrittenSince := some (store.nextRowId, store.nextChunkId) }
  | some (nextRowId, nextChunkId) => { store with nextRowId, nextChunkId }

/-- The tables of an earlier store with the sequences of a later one: what a transaction that is
rolled back leaves. -/
def rollBackTo (earlier later : Store) : Store :=
  { earlier with nextRowId := later.nextRowId, nextChunkId := later.nextChunkId }

/-! ## What a row may hold -/

/-- The greatest line number that the line column holds. -/
def maxLine : Nat :=
  2147483647

def lineFits (record : HookRecord) : Bool :=
  record.line.all fun line => line ≤ maxLine

/-- Whether a record can be stored: its name is not empty and its line fits. -/
def isStorable (record : HookRecord) : Bool :=
  record.hookName.text ≠ [] && lineFits record

/-- The line from which on a batch of some records cannot be made.  Where a record has no line the others
are rounded to doubles, which from 512 below the 64th bit on are rounded up to it. -/
def batchLimit (records : List HookRecord) : Nat :=
  if records.all fun record => record.line.isSome then 9223372036854775808 else 9223372036854775296

/-- Whether a batch of some records can be made. -/
def fitsBatch (records : List HookRecord) : Bool :=
  records.all fun record => record.line.all fun line => line < batchLimit records

/-! ## The cache table -/

/-- The rows for some records, numbered from a given number. -/
def rowsFrom (generation : Option Text) : Nat → List HookRecord → List CacheRow
  | _, [] => []
  | id, record :: records => ⟨id, record.stored, generation⟩ :: rowsFrom generation (id + 1) records

/-- Insert records by one statement: all, or none where one of them cannot be stored.  The numbers
are used up in both cases, but not where the batch cannot be made. -/
def insertAll (records : List HookRecord) (generation : Option Text) (store : Store) :
    Answer Unit :=
  if !fitsBatch records then (.error .lineOverflow, store)
  else
    match store.cache with
    | none => (.error .missingTable, store)
    | some rows =>
      let after := { store with nextRowId := store.nextRowId + records.length }
      if records.all isStorable then
        (.ok (),
          { after with
            cache := some (rows ++ rowsFrom generation store.nextRowId records)
            unwrittenSince := none })
      else (.error .rejectedValue, after)

/-- Insert one record without a batch.  A line that does not fit is noticed before a number is taken, an
empty name after it. -/
def insertRow (record : HookRecord) (generation : Option Text) (store : Store) : Answer Unit :=
  match store.cache with
  | none => (.error .missingTable, store)
  | some rows =>
    if !lineFits record then (.error .rejectedValue, store)
    else
      let after := { store with nextRowId := store.nextRowId + 1 }
      if record.hookName.text = [] then (.error .rejectedValue, after)
      else
        (.ok (),
          { after with
            cache := some (rows ++ [⟨store.nextRowId, record.stored, generation⟩])
            unwrittenSince := none })

def isStaticRow (row : CacheRow) : Bool :=
  row.record.detectionMethod = .static

def deleteStatic (store : Store) : Answer Unit :=
  match store.cache with
  | none => (.error .missingTable, store)
  | some rows =>
    (.ok (),
      { store with
        cache := some (rows.filter fun row => !isStaticRow row)
        unwrittenSince := if rows.any isStaticRow then none else store.unwrittenSince })

def allRows (store : Store) : Except StoreError (List CacheRow) :=
  match store.cache with
  | none => .error .missingTable
  | some rows => .ok rows

/-! ## The queue table -/

def enqueue (generation payload : Text) (store : Store) : Answer Unit :=
  match store.queue with
  | none => (.error .missingTable, store)
  | some table =>
    if table.hasPayloadColumn then
      let chunk : QueueChunk := ⟨store.nextChunkId, generation, payload⟩
      (.ok (),
        { store with
          queue := some { table with chunks := table.chunks ++ [chunk] }
          nextChunkId := store.nextChunkId + 1
          unwrittenSince := none })
    else (.error .missingColumn, store)

def deleteOtherChunks (generation : Text) (store : Store) : Answer Unit :=
  match store.queue with
  | none => (.error .missingTable, store)
  | some table =>
    let isOther (chunk : QueueChunk) : Bool := chunk.generation ≠ generation
    (.ok (),
      { store with
        queue := some { table with chunks := table.chunks.filter fun chunk => !isOther chunk }
        unwrittenSince := if table.chunks.any isOther then none else store.unwrittenSince })

def popOldest (store : Store) : Answer (Option QueueChunk) :=
  match store.queue with
  | none => (.error .missingTable, store)
  | some table =>
    if !table.hasPayloadColumn then (.error .missingColumn, store)
    else
      match table.chunks with
      | [] => (.ok none, store)
      | chunk :: chunks =>
        (.ok (some chunk),
          { store with queue := some { table with chunks }, unwrittenSince := none })

def chunkCount (store : Store) : Except StoreError Nat :=
  match store.queue with
  | none => .error .missingTable
  | some table => .ok table.chunks.length

def allChunks (store : Store) : Except StoreError (List QueueChunk) :=
  match store.queue with
  | none => .error .missingTable
  | some table => .ok table.chunks

/-! ## The option table -/

/-- Put a value under a name into a list of options. -/
def putOption (name : Text) (value : Option Text) :
    List (Text × Option Text) → List (Text × Option Text)
  | [] => [(name, value)]
  | (other, old) :: options =>
    if other = name then (name, value) :: options
    else (other, old) :: putOption name value options

def setOption (name : Text) (value : Option Text) (store : Store) : Answer Unit :=
  match store.options with
  | none => (.error .missingTable, store)
  | some options =>
    (.ok (),
      { store with options := some (putOption name value options), unwrittenSince := none })

/-- The value of an option, which may be null; the default where the option does not exist. -/
def getOption (name : Text) (default : Option Text) (store : Store) :
    Except StoreError (Option Text) :=
  match store.options with
  | none => .error .missingTable
  | some options =>
    match options.find? fun option => option.1 = name with
    | some option => .ok option.2
    | none => .ok default

/-! ## Transactions -/

/-- Perform statements one after the other, up to the first that fails. -/
def sequence : List (Store → Answer Unit) → Store → Answer Unit
  | [], store => (.ok (), store)
  | statement :: statements, store =>
    match statement store with
    | (.ok (), store) => sequence statements store
    | (.error error, store) => (.error error, store)

/-- Perform statements as one action: where one fails, none has an effect on the tables. -/
def transaction (statements : List (Store → Answer Unit)) (store : Store) : Answer Unit :=
  match sequence statements store with
  | (.ok (), after) => (.ok (), after)
  | (.error error, after) => (.error error, store.rollBackTo after)

end Store

end HookAtlas
