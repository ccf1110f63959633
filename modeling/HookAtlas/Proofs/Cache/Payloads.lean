/-
# Records come back from the queue

Whatever data a record was read from, where it is written as a JSON text it is read back from that text with
every field, so a chunk that was taken off the queue is never lost to its payload.  The reader asks no clock,
because a payload names both moments of each record.

The host refuses to write and to read a whole number of more than `Number.maxDigits` digits.  The line is the
only number of a record, so exactly the records with a longer one are not written; none of them comes from data
that holds no such number itself.  Queueing stops at the first chunk with such a record.
-/

import HookAtlas.Proofs.Cache.Replace
import HookAtlas.Proofs.Validation.WholeNumber

namespace HookAtlas

namespace HookRecord

end HookRecord

/-! ## Appending chunks -/

namespace Store

/-- New chunks stand behind the others, and each is read back as the list of records that it was made of, from
the first list on. -/
structure Appends (generation : Text) (pieces : List (List HookRecord)) (new : List QueueChunk)
    (before after : Store) : Prop where
  queue_eq : after.queue =
    before.queue.map fun table => { table with chunks := table.chunks ++ new }
  options_eq : after.options = before.options
  generation_eq : ∀ chunk ∈ new, chunk.generation = generation
  records_eq : new.map QueueChunk.records = (pieces.take new.length).map .ok

variable {generation : Text} {pieces : List (List HookRecord)} {new : List QueueChunk}
  {store before middle after : Store}

theorem Appends.nil (generation : Text) (pieces : List (List HookRecord)) (store : Store) :
    Appends generation pieces [] store store where
  queue_eq := by simp
  options_eq := rfl
  generation_eq := fun _ hmem => absurd hmem List.not_mem_nil
  records_eq := rfl

/-- One more chunk in front of those that follow. -/
theorem Appends.cons {piece : List HookRecord} {payload : Text} {table : QueueTable} {id : Nat}
    (hpayload : QueueChunk.payload? piece = some payload) (hbefore : before.queue = some table)
    (hmiddle : middle.queue =
      some { table with chunks := table.chunks ++ [⟨id, generation, payload⟩] })
    (hoptions : middle.options = before.options)
    (hrest : Appends generation pieces new middle after) :
    Appends generation (piece :: pieces) (⟨id, generation, payload⟩ :: new) before after where
  queue_eq := by
    rw [hrest.queue_eq, hmiddle, hbefore, Option.map_some, Option.map_some, List.append_assoc,
      List.singleton_append]
  options_eq := hrest.options_eq.trans hoptions
  generation_eq := List.forall_mem_cons.mpr ⟨rfl, hrest.generation_eq⟩
  records_eq := by
    rw [List.map_cons, List.length_cons, List.take_succ_cons, List.map_cons,
      QueueChunk.records_of_payload? hpayload, hrest.records_eq]

/-- A chunk that was appended can be read. -/
theorem Appends.exists_records (happends : Appends generation pieces new before after)
    {chunk : QueueChunk} (hmem : chunk ∈ new) : ∃ records, chunk.records = .ok records := by
  have hread : chunk.records ∈ (pieces.take new.length).map .ok := by
    rw [← happends.records_eq]
    exact List.mem_map_of_mem hmem
  obtain ⟨piece, -, hpiece⟩ := List.mem_map.mp hread
  exact ⟨piece, hpiece.symm⟩

/-- A queue table with the right column takes a chunk; else the store fails. -/
theorem enqueue_cases (generation payload : Text) (store : Store) :
    (∃ chunks after, store.queue = some ⟨chunks, true⟩ ∧
      store.enqueue generation payload = (.ok (), after) ∧
      after.queue = some ⟨chunks ++ [⟨store.nextChunkId, generation, payload⟩], true⟩ ∧
      after.options = store.options) ∨
      ∃ error, store.enqueue generation payload = (.error error, store) ∧ error.isHandled = true ∧
        ∀ chunks, store.queue ≠ some ⟨chunks, true⟩ := by
  rw [enqueue]
  cases store.queue with
  | none => exact .inr ⟨.missingTable, rfl, rfl, fun _ => (Option.some_ne_none _).symm⟩
  | some table =>
      obtain ⟨chunks, hasPayloadColumn⟩ := table
      cases hasPayloadColumn with
      | true => exact .inl ⟨chunks, _, rfl, rfl, rfl, rfl⟩
      | false => exact .inr ⟨.missingColumn, rfl, rfl, by rintro _ ⟨⟩⟩

/-- Chunks are appended up to the first with a record that is not written.  Where the store has no place for
them, none is. -/
theorem enqueueChunks_cases (generation : Text) (pieces : List (List HookRecord)) (store : Store) :
    ∃ answer after new, store.enqueueChunks generation pieces = (answer, after) ∧
      Appends generation pieces new store after ∧
      ((answer = .ok () ∧ new.length = pieces.length ∧
          ∀ piece ∈ pieces, ∀ record ∈ piece, record.isWritable = true) ∨
        (answer = .error .longNumber ∧ ∃ piece ∈ pieces, ∃ record ∈ piece, record.isWritable = false) ∨
        ∃ error, answer = .error error ∧ error.isHandled = true ∧ after = store ∧
          ∀ chunks, store.queue ≠ some ⟨chunks, true⟩) := by
  induction pieces generalizing store with
  | nil =>
      exact ⟨.ok (), store, [], rfl, .nil generation [] store,
        .inl ⟨rfl, rfl, fun _ hmem => absurd hmem List.not_mem_nil⟩⟩
  | cons piece pieces ih =>
      rw [enqueueChunks, enqueueRecords]
      cases hpayload : QueueChunk.payload? piece with
      | none =>
          refine ⟨.error .longNumber, store, [], rfl, .nil generation _ store, .inr (.inl ⟨rfl, ?_⟩)⟩
          exact ⟨piece, List.mem_cons_self, QueueChunk.payload?_eq_none_iff.mp hpayload⟩
      | some payload =>
          dsimp only
          rcases enqueue_cases generation payload store with
            ⟨chunks, middle, hqueue, henqueue, hmiddle, hoptions⟩ | ⟨error, henqueue, hhandled, hnone⟩
          · obtain ⟨answer, after, new, hrest, happends, houtcome⟩ := ih middle
            refine ⟨answer, after, ⟨store.nextChunkId, generation, payload⟩ :: new, ?_,
              happends.cons hpayload hqueue hmiddle hoptions, ?_⟩
            · rw [henqueue]
              exact hrest
            · rcases houtcome with ⟨hok, hlength, hwritable⟩ | ⟨hlong, other, hmem, hrecord⟩ |
                ⟨error, -, -, -, hnone⟩
              · exact .inl ⟨hok, congrArg Nat.succ hlength, List.forall_mem_cons.mpr
                  ⟨(QueueChunk.payload?_eq_some_iff.mp hpayload).1, hwritable⟩⟩
              · exact .inr (.inl ⟨hlong, other, List.mem_cons_of_mem piece hmem, hrecord⟩)
              · exact absurd hmiddle (hnone _)
          · refine ⟨.error error, store, [], ?_, .nil generation _ store,
              .inr (.inr ⟨error, rfl, hhandled, rfl, hnone⟩)⟩
            rw [henqueue]

end Store

namespace HookCache

end HookCache

end HookAtlas
