/-
# How a store changes

The program changes a store by seven statements and by rolling a transaction back, and in no other way.
`Store.Writes before after` says that some statements lead from one store to another.  Every operation of
the program leads along it, so whatever each statement keeps every operation keeps, and later modules
prove their invariants by one induction over statements.

The write path of the records sets one option only, the valid generation.  `Store.WritesRecords` leaves the
others out, so what is shown along it may also be about another option.

`Store.IsReachable` adds what happens to a store between two runs of the program: it is closed and opened
again, tables that are missing are made, and somebody else may drop a table.
-/

import HookAtlas.Cache.Replace
import HookAtlas.Store.Fault

namespace HookAtlas

namespace Store

/-- Some statements of the program lead from one store to another.  A transaction that is rolled back
gives back the tables of before, but not the numbers. -/
inductive Writes : Store → Store → Prop
  | refl (store : Store) : Writes store store
  | trans {before middle after : Store} :
      Writes before middle → Writes middle after → Writes before after
  | insertAll (records : List HookRecord) (generation : Option Text) (store : Store) :
      Writes store (store.insertAll records generation).2
  | insertRow (record : HookRecord) (generation : Option Text) (store : Store) :
      Writes store (store.insertRow record generation).2
  | deleteStatic (store : Store) : Writes store store.deleteStatic.2
  | enqueue (generation payload : Text) (store : Store) :
      Writes store (store.enqueue generation payload).2
  | deleteOtherChunks (generation : Text) (store : Store) :
      Writes store (store.deleteOtherChunks generation).2
  | popOldest (store : Store) : Writes store store.popOldest.2
  | setOption (name : Text) (value : Option Text) (store : Store) :
      Writes store (store.setOption name value).2
  | rollBackTo {earlier later : Store} :
      Writes earlier later → Writes earlier (earlier.rollBackTo later)

/-- Some statements of the write path lead from one store to another.  The only option that is set is the
valid generation. -/
inductive WritesRecords : Store → Store → Prop
  | refl (store : Store) : WritesRecords store store
  | trans {before middle after : Store} :
      WritesRecords before middle → WritesRecords middle after → WritesRecords before after
  | insertAll (records : List HookRecord) (generation : Option Text) (store : Store) :
      WritesRecords store (store.insertAll records generation).2
  | insertRow (record : HookRecord) (generation : Option Text) (store : Store) :
      WritesRecords store (store.insertRow record generation).2
  | deleteStatic (store : Store) : WritesRecords store store.deleteStatic.2
  | enqueue (generation payload : Text) (store : Store) :
      WritesRecords store (store.enqueue generation payload).2
  | deleteOtherChunks (generation : Text) (store : Store) :
      WritesRecords store (store.deleteOtherChunks generation).2
  | popOldest (store : Store) : WritesRecords store store.popOldest.2
  | setGeneration (generation : Text) (store : Store) :
      WritesRecords store (store.setOption generationOption (some generation)).2
  | rollBackTo {earlier later : Store} :
      WritesRecords earlier later → WritesRecords earlier (earlier.rollBackTo later)

/-- A store that the program can come to have, from a new one. -/
inductive IsReachable : Store → Prop
  | blank : IsReachable blank
  | writes {before after : Store} : IsReachable before → Writes before after → IsReachable after
  | reopen {store : Store} : IsReachable store → IsReachable store.reopen
  | createMissingTables {store : Store} :
      IsReachable store → IsReachable store.createMissingTables
  | applyFault {store : Store} (fault : StoreFault) :
      IsReachable store → IsReachable (store.applyFault fault).2

variable {store before after : Store}

/-- The statements of the write path are statements of the program. -/
theorem WritesRecords.writes (hwrites : WritesRecords before after) : Writes before after := by
  induction hwrites with
  | refl store => exact .refl store
  | trans _ _ hfirst hsecond => exact hfirst.trans hsecond
  | insertAll records generation store => exact .insertAll records generation store
  | insertRow record generation store => exact .insertRow record generation store
  | deleteStatic store => exact .deleteStatic store
  | enqueue generation payload store => exact .enqueue generation payload store
  | deleteOtherChunks generation store => exact .deleteOtherChunks generation store
  | popOldest store => exact .popOldest store
  | setGeneration generation store => exact .setOption generationOption (some generation) store
  | rollBackTo _ hlater => exact hlater.rollBackTo

/-! ## Statements in a row -/

/-- Statements that are performed up to the first that fails. -/
theorem writes_sequence {statements : List (Store → Answer Unit)}
    (hstatements : ∀ statement ∈ statements, ∀ store, WritesRecords store (statement store).2)
    (store : Store) : WritesRecords store (sequence statements store).2 := by
  induction statements generalizing store with
  | nil => exact .refl store
  | cons statement statements ih =>
      have hfirst : WritesRecords store (statement store).2 := hstatements statement List.mem_cons_self store
      have hothers := fun other hmem => hstatements other (List.mem_cons_of_mem statement hmem)
      rw [sequence]
      split
      · next after hperformed =>
          rw [hperformed] at hfirst
          exact hfirst.trans (ih hothers after)
      · next hperformed =>
          rw [hperformed] at hfirst
          exact hfirst

/-- A transaction writes all of its statements or none. -/
theorem writes_transaction {statements : List (Store → Answer Unit)}
    (hstatements : ∀ statement ∈ statements, ∀ store, WritesRecords store (statement store).2)
    (store : Store) : WritesRecords store (transaction statements store).2 := by
  have hsequence := writes_sequence hstatements store
  rw [transaction]
  split
  · next hperformed =>
      rw [hperformed] at hsequence
      exact hsequence
  · next hperformed =>
      rw [hperformed] at hsequence
      exact hsequence.rollBackTo

/-! ## Batches of records -/

theorem writes_foldl_add (generation : Option Text) (records : List HookRecord)
    (tally : InsertTally) :
    WritesRecords tally.store (records.foldl (InsertTally.add generation) tally).store := by
  induction records generalizing tally with
  | nil => exact .refl tally.store
  | cons record records ih =>
      have hrow := WritesRecords.insertRow record generation tally.store
      have hadd : WritesRecords tally.store (tally.add generation record).store := by
        rw [InsertTally.add]
        split
        · next hinsert =>
            rw [hinsert] at hrow
            exact hrow
        · next hinsert =>
            rw [hinsert] at hrow
            exact hrow
      exact hadd.trans (ih (tally.add generation record))

theorem writes_insertRows (records : List HookRecord) (generation : Option Text) (store : Store) :
    WritesRecords store (store.insertRows records generation).state :=
  writes_foldl_add generation records ⟨store, 0, 0⟩

theorem writes_insertBatch (records : List HookRecord) (generation : Option Text) (store : Store) :
    WritesRecords store (store.insertBatch records generation).state := by
  have hall := WritesRecords.insertAll records generation store
  rw [insertBatch]
  split
  · exact .refl store
  · split
    · next hinsert =>
        rw [hinsert] at hall
        exact hall
    · next error after hinsert =>
        rw [hinsert] at hall
        split
        · exact hall
        · exact hall.trans (writes_insertRows records generation after)

theorem writes_enqueueRecords (generation : Text) (records : List HookRecord) (store : Store) :
    WritesRecords store (store.enqueueRecords generation records).2 := by
  rw [enqueueRecords]
  split
  · exact .refl store
  · exact .enqueue generation _ store

theorem writes_enqueueChunks (generation : Text) (chunks : List (List HookRecord)) (store : Store) :
    WritesRecords store (store.enqueueChunks generation chunks).2 := by
  induction chunks generalizing store with
  | nil => exact .refl store
  | cons chunk chunks ih =>
      have hchunk := writes_enqueueRecords generation chunk store
      rw [enqueueChunks]
      split
      · next after henqueue =>
          rw [henqueue] at hchunk
          exact hchunk.trans (ih after)
      · next henqueue =>
          rw [henqueue] at hchunk
          exact hchunk

/-! ## Replacing the static rows -/

theorem writes_of_mem_supersedeStatements (generation : Text) :
    ∀ statement ∈ supersedeStatements generation, ∀ store, WritesRecords store (statement store).2 := by
  intro statement hmem store
  simp only [supersedeStatements, List.mem_cons, List.not_mem_nil, or_false] at hmem
  rcases hmem with rfl | rfl | rfl
  · exact .deleteStatic store
  · exact .deleteOtherChunks generation store
  · exact .setGeneration generation store

theorem writes_replaceAtOnce (records : List HookRecord) (generation : Text) (store : Store) :
    WritesRecords store (store.replaceAtOnce records generation).2 := by
  apply writes_transaction
  intro statement hmem store
  rcases List.mem_append.mp hmem with hmem | hmem
  · exact writes_of_mem_supersedeStatements generation statement hmem store
  · split at hmem
    · exact absurd hmem List.not_mem_nil
    · rw [List.mem_singleton.mp hmem]
      exact .insertAll records (some generation) store

theorem writes_replaceStepwise (records : List HookRecord) (generation : Text) (store : Store) :
    WritesRecords store (store.replaceStepwise records generation).state := by
  have hsupersede := writes_sequence (writes_of_mem_supersedeStatements generation) store
  rw [replaceStepwise]
  split
  · next hsequence =>
      rw [hsequence] at hsupersede
      exact hsupersede
  · next after hsequence =>
      rw [hsequence] at hsupersede
      exact hsupersede.trans (writes_insertRows records (some generation) after)

theorem writes_replaceStatic (records : List HookRecord) (generation : Text) (store : Store) :
    WritesRecords store (store.replaceStatic records generation).state := by
  have hattempt := writes_replaceAtOnce records generation store
  rw [replaceStatic]
  split
  · next hreplace =>
      rw [hreplace] at hattempt
      exact hattempt
  · next error after hreplace =>
      rw [hreplace] at hattempt
      have hretried := hattempt.trans (writes_replaceStepwise records generation after)
      split
      · exact hattempt
      · dsimp only
        split
        · exact hretried
        · exact hretried

end Store

end HookAtlas
