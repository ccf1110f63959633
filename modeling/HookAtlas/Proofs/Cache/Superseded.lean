/-
# When a superseded scan is written on top of a newer one

The static rows of a store are current if all carry the generation that is stored as the valid one.  A call
that goes on alone leaves them current.  Calls that interleave need not: between reading the valid generation
and writing a drain relies on what it has read, and so does a replace between the statements of its retry.
The lock keeps drains from each other but not replaces from drains, so a replace may come in between, and
the drain then writes rows of the superseded scan (`run_leaves_superseded`).

This is the only way.  As long as no action writes static rows or the generation while another call relies on
them, the rows are current after every action (`isCurrent_run`).
-/

import HookAtlas.Proofs.Cache.Interleaving

namespace HookAtlas

namespace Store

/-- The static rows of a store; none where the table is missing. -/
def staticRows (store : Store) : List CacheRow :=
  (store.cache.getD []).filter isStaticRow

/-- All static rows carry the generation that is stored as the valid one. -/
def IsCurrent (store : Store) : Prop :=
  ∀ row ∈ store.staticRows, store.getOption generationOption none = .ok row.generation

/-- The options of a store are as before, and its static rows were there before or carry a generation. -/
structure Adds (group : Option Text) (before after : Store) : Prop where
  options_eq : after.options = before.options
  mem_or_eq : ∀ row ∈ after.staticRows, row ∈ before.staticRows ∨ row.generation = group

/-- The options of a store are as before, and its static rows were there before. -/
structure Within (before after : Store) : Prop where
  options_eq : after.options = before.options
  mem : ∀ row ∈ after.staticRows, row ∈ before.staticRows

variable {group : Option Text} {generation : Text} {before store after : Store}

theorem Within.refl (store : Store) : Within store store :=
  ⟨rfl, fun _ hmem => hmem⟩

theorem Within.of_eq (hoptions : after.options = before.options) (hcache : after.cache = before.cache) :
    Within before after :=
  ⟨hoptions, fun row hmem => by rwa [staticRows, hcache] at hmem⟩

theorem Within.isCurrent (hwithin : Within before after) (hcurrent : before.IsCurrent) :
    after.IsCurrent := by
  intro row hmem
  rw [getOption_of_eq hwithin.options_eq]
  exact hcurrent row (hwithin.mem row hmem)

theorem Within.adds (hwithin : Within before after) : Adds group before after :=
  ⟨hwithin.options_eq, fun row hmem => .inl (hwithin.mem row hmem)⟩

theorem Adds.trans (hfirst : Adds group before store) (hsecond : Adds group store after) :
    Adds group before after where
  options_eq := hsecond.options_eq.trans hfirst.options_eq
  mem_or_eq := by
    intro row hmem
    rcases hsecond.mem_or_eq row hmem with hmem | hgroup
    · exact hfirst.mem_or_eq row hmem
    · exact .inr hgroup

/-- Adding rows of the valid generation leaves the rows current. -/
theorem Adds.isCurrent (hadds : Adds group before after) (hcurrent : before.IsCurrent)
    (hvalid : before.getOption generationOption none = .ok group) : after.IsCurrent := by
  intro row hmem
  rw [getOption_of_eq hadds.options_eq]
  rcases hadds.mem_or_eq row hmem with hmem | hgroup
  · exact hcurrent row hmem
  · rw [hgroup, hvalid]

theorem isCurrent_of_nil (hnone : store.staticRows = []) : store.IsCurrent := by
  intro row hmem
  rw [hnone] at hmem
  exact absurd hmem List.not_mem_nil

/-! ## What statements do to static rows -/

/-- New rows behind the old ones. -/
theorem Adds.of_append {rows new : List CacheRow} (hbefore : before.cache = some rows)
    (hafter : after.cache = some (rows ++ new)) (hoptions : after.options = before.options)
    (hgroup : ∀ row ∈ new, row.generation = group) : Adds group before after where
  options_eq := hoptions
  mem_or_eq := by
    intro row hmem
    rw [staticRows, hafter, Option.getD_some, List.filter_append, List.mem_append] at hmem
    rcases hmem with hmem | hmem
    · rw [staticRows, hbefore]
      exact .inl hmem
    · exact .inr (hgroup row (List.mem_filter.mp hmem).1)

theorem adds_insertAll (records : List HookRecord) (group : Option Text) (store : Store) :
    Adds group store (insertAll records group store).2 := by
  cases hfits : fitsBatch records with
  | false =>
      rw [insertAll_of_overflow hfits]
      exact (Within.refl store).adds
  | true =>
  rcases hcache : store.cache with _ | rows
  · rw [insertAll, hfits, hcache]
    exact (Within.refl store).adds
  · rcases insertAll_cases hcache hfits group with ⟨new, after, hinsert, hinserts⟩ | hinsert
    · rw [hinsert]
      exact .of_append hcache hinserts.cache_eq hinserts.options_eq hinserts.generation_eq
    · rw [hinsert]
      exact ⟨rfl, fun _ hmem => .inl hmem⟩

theorem adds_insertRow (record : HookRecord) (group : Option Text) (store : Store) :
    Adds group store (insertRow record group store).2 := by
  rcases hcache : store.cache with _ | rows
  · rw [insertRow, hcache]
    exact (Within.refl store).adds
  · obtain ⟨new, hinserts⟩ := insertRow_inserts hcache record group
    exact .of_append hcache hinserts.cache_eq hinserts.options_eq hinserts.generation_eq

theorem adds_foldl_add (records : List HookRecord) (group : Option Text) (tally : InsertTally) :
    Adds group tally.store (records.foldl (InsertTally.add group) tally).store := by
  induction records generalizing tally with
  | nil => exact (Within.refl tally.store).adds
  | cons record records ih =>
      have hrow := adds_insertRow record group tally.store
      rw [← store_add] at hrow
      rw [List.foldl_cons]
      exact hrow.trans (ih (tally.add group record))

theorem adds_insertBatch (records : List HookRecord) (group : Option Text) (store : Store) :
    Adds group store (insertBatch records group store).state := by
  rw [insertBatch]
  split
  · exact (Within.refl store).adds
  · have hall := adds_insertAll records group store
    split
    · next hinsert =>
        rw [hinsert] at hall
        exact hall
    · next error middle hinsert =>
        rw [hinsert] at hall
        split
        · exact hall
        · exact hall.trans (adds_foldl_add records group ⟨middle, 0, 0⟩)

/-- Deleting the static rows succeeds and leaves none, or it fails and changes nothing. -/
theorem deleteStatic_cases (store : Store) :
    (∃ after, deleteStatic store = (.ok (), after) ∧ after.staticRows = [] ∧
      after.options = store.options) ∨
      deleteStatic store = (.error .missingTable, store) := by
  rw [deleteStatic]
  split
  · exact .inr rfl
  · next rows _ =>
      refine .inl ⟨_, rfl, ?_, rfl⟩
      rw [staticRows, Option.getD_some, List.filter_filter, List.filter_eq_nil_iff]
      intro row _
      rw [Bool.and_not_self]
      exact Bool.false_ne_true

theorem within_deleteOtherChunks (generation : Text) (store : Store) :
    Within store (deleteOtherChunks generation store).2 := by
  rw [deleteOtherChunks]
  split
  · exact .refl store
  · exact .of_eq rfl rfl

/-- A generation that is set is the valid one, and the rows are untouched. -/
theorem setOption_cases (generation : Text) (store : Store) :
    (∃ after, setOption generationOption (some generation) store = (.ok (), after) ∧
      after.cache = store.cache ∧ after.getOption generationOption none = .ok (some generation)) ∨
      setOption generationOption (some generation) store = (.error .missingTable, store) := by
  rw [setOption]
  split
  · exact .inr rfl
  · refine .inl ⟨_, rfl, rfl, ?_⟩
    rw [getOption]
    dsimp only
    rw [find?_putOption]

theorem within_enqueueRecords (generation : Text) (records : List HookRecord) (store : Store) :
    Within store (enqueueRecords generation records store).2 := by
  rw [enqueueRecords]
  split
  · exact .refl store
  · rw [enqueue]
    split
    · exact .refl store
    · split
      · exact .of_eq rfl rfl
      · exact .refl store

theorem within_popOldest (store : Store) : Within store (popOldest store).2 := by
  rw [popOldest]
  split
  · exact .refl store
  · split
    · exact .refl store
    · split
      · exact .refl store
      · exact .of_eq rfl rfl

/-- Statements that supersede older scans leave no static row and make their generation the valid one. -/
theorem staticRows_of_sequence (hsequence : sequence (supersedeStatements generation) store = (.ok (), after)) :
    after.staticRows = [] ∧ after.getOption generationOption none = .ok (some generation) := by
  rw [supersedeStatements, sequence] at hsequence
  rcases deleteStatic_cases store with ⟨bare, hbare, hnone, -⟩ | hfailed
  · rw [hbare] at hsequence
    dsimp only at hsequence
    have hwithin := within_deleteOtherChunks generation bare
    rw [sequence] at hsequence
    rcases hcleared : deleteOtherChunks generation bare with ⟨_ | ⟨⟩, cleared⟩
    · rw [hcleared] at hsequence
      cases hsequence
    rw [hcleared] at hsequence hwithin
    dsimp only at hsequence hwithin
    rw [sequence] at hsequence
    rcases setOption_cases generation cleared with ⟨ready, hready, hcache, hvalid⟩ | hfailed
    · rw [hready] at hsequence
      cases hsequence
      refine ⟨?_, hvalid⟩
      rw [staticRows, hcache, ← staticRows, List.eq_nil_iff_forall_not_mem]
      intro row hmem
      have hold := hwithin.mem row hmem
      rw [hnone] at hold
      exact List.not_mem_nil hold
    · rw [hfailed] at hsequence
      cases hsequence
  · rw [hfailed] at hsequence
    cases hsequence

/-- Statements that are performed to the end are, and so are those behind them. -/
theorem sequence_append_ok {first second : List (Store → Answer Unit)}
    (hsequence : sequence (first ++ second) store = (.ok (), after)) :
    ∃ middle, sequence first store = (.ok (), middle) ∧ sequence second middle = (.ok (), after) := by
  induction first generalizing store with
  | nil => exact ⟨store, rfl, hsequence⟩
  | cons statement first ih =>
      rw [List.cons_append, sequence] at hsequence
      rw [sequence]
      split at hsequence
      · exact ih hsequence
      · cases hsequence

/-- The transaction of a replace leaves current rows, or it is rolled back. -/
theorem replaceAtOnce_cases (records : List HookRecord) (generation : Text) (store : Store) :
    (∃ after, replaceAtOnce records generation store = (.ok (), after) ∧ after.IsCurrent) ∨
      ∃ error after, replaceAtOnce records generation store = (.error error, after) ∧
        Within store after := by
  rw [replaceAtOnce, transaction]
  split
  · next after hsequence =>
      obtain ⟨ready, hready, hinsert⟩ := sequence_append_ok hsequence
      obtain ⟨hnone, hvalid⟩ := staticRows_of_sequence hready
      refine .inl ⟨after, rfl, ?_⟩
      by_cases hempty : records = []
      · rw [if_pos hempty] at hinsert
        cases hinsert
        exact isCurrent_of_nil hnone
      · have hadds := adds_insertAll records (some generation) ready
        rw [if_neg hempty, sequence] at hinsert
        split at hinsert
        · next inserted hall =>
            cases hinsert
            rw [hall] at hadds
            exact hadds.isCurrent (isCurrent_of_nil hnone) hvalid
        · cases hinsert
  · exact .inr ⟨_, _, rfl, .of_eq rfl rfl⟩

end Store

namespace WriteCall

variable {store after : Store} {call : WriteCall}

/-! ## What calls rely on -/

/-- Whether the next action writes static rows or the generation. -/
def writes : WriteCall → Bool
  | .transaction .. | .setGeneration .. | .insertRow .. | .write .. => true
  | _ => false

/-- Whether a call relies on what earlier actions of it have read or written: a retried replace from its
first statement on, and a drain that has found the generation of its chunk valid. -/
def relies : WriteCall → Bool
  | .deleteChunks .. | .setGeneration .. | .insertRow .. | .write .. => true
  | _ => false

/-- What a call relies on: that static rows are gone until it sets its generation, and that its generation is
the valid one as long as it inserts rows. -/
def Holds (store : Store) : WriteCall → Prop
  | .deleteChunks .. | .setGeneration .. => store.staticRows = []
  | .insertRow generation .. | .write generation _ =>
    store.getOption generationOption none = .ok (some generation)
  | _ => True

theorem holds_of_relies (hrelies : call.relies = false) (store : Store) : call.Holds store := by
  cases call with
  | transaction | deleteRows | enqueue | pop | check | finished => exact trivial
  | deleteChunks | setGeneration | insertRow | write => cases hrelies

theorem holds_queueing (generation : Text) (rest : List (List HookRecord)) (store : Store) :
    (queueing generation rest).Holds store := by
  cases rest with
  | nil | cons => exact trivial

theorem holds_inserting {generation : Text} (rest : List (List HookRecord)) (records : List HookRecord)
    (hvalid : store.getOption generationOption none = .ok (some generation)) :
    (inserting generation rest records).Holds store := by
  cases records with
  | nil => exact holds_queueing generation rest store
  | cons => exact hvalid

/-- Actions that write neither static rows nor the generation leave what other calls rely on. -/
theorem Holds.of_within (hholds : call.Holds store) (hwithin : Store.Within store after) :
    call.Holds after := by
  cases call with
  | transaction | deleteRows | enqueue | pop | check | finished => exact trivial
  | deleteChunks | setGeneration =>
      have hnone : store.staticRows = [] := hholds
      refine List.eq_nil_iff_forall_not_mem.mpr fun row hmem => ?_
      have hold := hwithin.mem row hmem
      rw [hnone] at hold
      exact List.not_mem_nil hold
  | insertRow | write =>
      exact (Store.getOption_of_eq hwithin.options_eq _ _).trans hholds

/-! ## One step -/

/-- An action that writes neither static rows nor the generation. -/
theorem within_step (hwrites : call.writes = false) (isLocked : Bool) (store : Store) :
    Store.Within store (call.step isLocked store).2 := by
  cases call with
  | transaction | setGeneration | insertRow | write => cases hwrites
  | deleteRows generation first rest =>
      rw [step]
      rcases store.deleteStatic_cases with ⟨bare, hbare, hnone, hoptions⟩ | hfailed
      · rw [hbare]
        refine ⟨hoptions, fun row hmem => ?_⟩
        rw [hnone] at hmem
        exact absurd hmem List.not_mem_nil
      · rw [hfailed]
        exact .refl store
  | deleteChunks generation first rest =>
      have hwithin := Store.within_deleteOtherChunks generation store
      rw [step]
      split
      · next hdelete => rwa [hdelete] at hwithin
      · next hdelete => rwa [hdelete] at hwithin
  | enqueue generation chunk chunks =>
      have hwithin := Store.within_enqueueRecords generation chunk store
      rw [step]
      split
      · next henqueue => rwa [henqueue] at hwithin
      · next henqueue => rwa [henqueue] at hwithin
  | pop =>
      have hwithin := store.within_popOldest
      rw [step]
      split
      · exact .refl store
      · split
        · next hpop => rwa [hpop] at hwithin
        · next hpop => rwa [hpop] at hwithin
  | check chunk =>
      rw [step]
      split
      · exact .refl store
      · split
        · exact .refl store
        · split
          · exact .refl store
          · exact .refl store
  | finished => exact .refl store

/-- A drain finds the generation of a chunk valid and can read its records. -/
theorem step_check {generation : Text}
    (hvalid : store.getOption generationOption none = .ok (some generation))
    {records : List HookRecord} {payload : Text} (hpayload : QueueChunk.payload? records = some payload)
    (id : Nat) (isLocked : Bool) :
    (WriteCall.check ⟨id, generation, payload⟩).step isLocked store =
      (.write generation records, store) := by
  rw [step, hvalid]
  dsimp only
  rw [if_neg (not_not_intro rfl), QueueChunk.records_of_payload? hpayload]

/-- An action of a call that can rely on what it relies on leaves current rows, and the call can rely on what it
relies on then. -/
theorem isCurrent_step (hcurrent : store.IsCurrent) (hholds : call.Holds store) (isLocked : Bool) :
    (call.step isLocked store).2.IsCurrent ∧
      (call.step isLocked store).1.Holds (call.step isLocked store).2 := by
  cases call with
  | transaction generation first rest =>
      rw [step]
      rcases store.replaceAtOnce_cases first generation with
        ⟨after, hreplace, hafter⟩ | ⟨error, after, hreplace, hwithin⟩
      · rw [hreplace]
        exact ⟨hafter, holds_queueing generation rest after⟩
      · rw [hreplace]
        dsimp only
        split
        · exact ⟨hwithin.isCurrent hcurrent, trivial⟩
        · exact ⟨hwithin.isCurrent hcurrent, trivial⟩
  | deleteRows generation first rest =>
      rw [step]
      rcases store.deleteStatic_cases with ⟨bare, hbare, hnone, -⟩ | hfailed
      · rw [hbare]
        exact ⟨Store.isCurrent_of_nil hnone, hnone⟩
      · rw [hfailed]
        exact ⟨hcurrent, trivial⟩
  | deleteChunks generation first rest =>
      have hwithin := Store.within_deleteOtherChunks generation store
      have hnone : (WriteCall.setGeneration generation first rest).Holds store := hholds
      rw [step]
      split
      · next hdelete =>
          rw [hdelete] at hwithin
          exact ⟨hwithin.isCurrent hcurrent, hnone.of_within hwithin⟩
      · next hdelete =>
          rw [hdelete] at hwithin
          exact ⟨hwithin.isCurrent hcurrent, trivial⟩
  | setGeneration generation first rest =>
      have hnone : store.staticRows = [] := hholds
      rw [step]
      rcases store.setOption_cases generation with ⟨after, hset, hcache, hvalid⟩ | hfailed
      · rw [hset]
        refine ⟨Store.isCurrent_of_nil ?_, holds_inserting rest first hvalid⟩
        rw [Store.staticRows, hcache]
        exact hnone
      · rw [hfailed]
        exact ⟨hcurrent, trivial⟩
  | insertRow generation record records rest =>
      have hadds := store.adds_insertRow record (some generation)
      refine ⟨hadds.isCurrent hcurrent hholds, holds_inserting rest records ?_⟩
      exact (Store.getOption_of_eq hadds.options_eq _ _).trans hholds
  | enqueue generation chunk chunks =>
      refine ⟨(within_step rfl isLocked store).isCurrent hcurrent, ?_⟩
      rw [step]
      split
      · exact holds_queueing generation chunks _
      · exact trivial
  | pop =>
      refine ⟨(within_step rfl isLocked store).isCurrent hcurrent, ?_⟩
      rw [step]
      split
      · exact trivial
      · split
        · exact trivial
        · exact trivial
  | check chunk =>
      refine ⟨(within_step rfl isLocked store).isCurrent hcurrent, ?_⟩
      rw [step]
      split
      · exact trivial
      · next current hread =>
          split
          · exact trivial
          · next hvalid =>
              split
              · exact trivial
              · rw [not_not.mp hvalid] at hread
                exact hread
  | write generation records =>
      exact ⟨(store.adds_insertBatch records (some generation)).isCurrent hcurrent hholds, trivial⟩
  | finished => exact ⟨hcurrent, trivial⟩

end WriteCall

namespace SharedStore

variable {shared : SharedStore}

/-! ## Runs -/

/-- The rows are current, and each call can rely on what it relies on. -/
structure IsSound (shared : SharedStore) : Prop where
  isCurrent : shared.store.IsCurrent
  holds : ∀ (place : Nat) (call : WriteCall), shared.calls[place]? = some call → call.Holds shared.store

/-- The call at a place may perform its next action: it writes neither static rows nor the generation, or no
other call relies on them. -/
def isUndisturbing (shared : SharedStore) (place : Nat) : Bool :=
  match shared.calls[place]? with
  | none => true
  | some call => !call.writes || (shared.others place).all fun other => !other.relies

/-- In a run no action writes static rows or the generation while another call relies on them. -/
def RunsUndisturbed : List Nat → SharedStore → Prop
  | [], _ => True
  | place :: order, shared =>
    shared.isUndisturbing place = true ∧ RunsUndisturbed order (shared.step place)

/-- One action leaves a sound store. -/
theorem isSound_step {place : Nat} (hsound : shared.IsSound)
    (hundisturbing : shared.isUndisturbing place = true) : (shared.step place).IsSound := by
  obtain ⟨hcurrent, hholds⟩ := hsound
  rw [isUndisturbing] at hundisturbing
  rw [step]
  cases hcall : shared.calls[place]? with
  | none => exact ⟨hcurrent, hholds⟩
  | some call =>
      rw [hcall] at hundisturbing
      dsimp only at hundisturbing ⊢
      have hown := WriteCall.isCurrent_step hcurrent (hholds place call hcall)
        ((shared.others place).any WriteCall.holdsLock)
      refine ⟨hown.1, ?_⟩
      intro other found hfound
      rw [List.getElem?_set] at hfound
      split at hfound
      · split at hfound
        · cases hfound
          exact hown.2
        · cases hfound
      · next hother =>
          -- A call at another place: either its rows and its generation are untouched, or it relies on none.
          cases hwrites : call.writes with
          | false =>
              exact (hholds other found hfound).of_within (WriteCall.within_step hwrites _ _)
          | true =>
              rw [hwrites, Bool.not_true, Bool.false_or, List.all_eq_true] at hundisturbing
              refine WriteCall.holds_of_relies ?_ _
              have hmem : found ∈ shared.others place :=
                List.mem_eraseIdx_iff_getElem?.mpr ⟨other, Ne.symm hother, hfound⟩
              rw [← Bool.not_eq_true']
              exact hundisturbing found hmem

theorem isSound_run {order : List Nat} (hsound : shared.IsSound) (hruns : RunsUndisturbed order shared) :
    (run order shared).IsSound := by
  induction order generalizing shared with
  | nil => exact hsound
  | cons place order ih =>
      rw [run, List.foldl_cons]
      exact ih (isSound_step hsound hruns.1) hruns.2

/-- Whatever the order of the actions of replaces and drains, the static rows carry the valid generation,
provided that no action writes static rows or the generation while another call relies on them. -/
theorem isCurrent_run {order : List Nat} (hcurrent : shared.store.IsCurrent)
    (hbegin : ∀ call ∈ shared.calls, call.relies = false) (hruns : RunsUndisturbed order shared) :
    (run order shared).store.IsCurrent := by
  have hsound : shared.IsSound := by
    refine ⟨hcurrent, fun place call hcall => ?_⟩
    exact WriteCall.holds_of_relies (hbegin call (List.mem_of_getElem? hcall)) _
  exact (isSound_run hsound hruns).isCurrent

/-- A replace of two records, a drain, and a replace of another record, on a store with empty tables. -/
def threeCalls : SharedStore where
  store := .empty
  calls := [
    .replace 1 [HookCache.letterRecord 'a' rfl .static, HookCache.letterRecord 'b' rfl .static]
      (Text.mark 'g'),
    .drain,
    .replace 1 [HookCache.letterRecord 'c' rfl .static] (Text.mark 'h')]

theorem isCurrent_threeCalls : threeCalls.store.IsCurrent :=
  Store.isCurrent_of_nil rfl

/-- What is left of the calls, with the records cut into chunks. -/
theorem calls_threeCalls :
    threeCalls.calls = [
      .transaction (Text.mark 'g') [HookCache.letterRecord 'a' rfl .static]
        [[HookCache.letterRecord 'b' rfl .static]],
      .pop,
      .transaction (Text.mark 'h') [HookCache.letterRecord 'c' rfl .static] []] := by
  simp [threeCalls, WriteCall.replace, WriteCall.drain, chunksOf]

/-- The second replace comes between the two reads of the drain: taking the chunk and reading the valid
generation. -/
theorem isCurrent_run_threeCalls :
    threeCalls.store.IsCurrent ∧ (∀ call ∈ threeCalls.calls, call.relies = false) ∧
      RunsUndisturbed [0, 0, 1, 2, 1] threeCalls ∧
      (run [0, 0, 1, 2, 1] threeCalls).store.IsCurrent := by
  have hbegin : ∀ call ∈ threeCalls.calls, call.relies = false := by
    rw [calls_threeCalls]
    simp [WriteCall.relies]
  have hruns : RunsUndisturbed [0, 0, 1, 2, 1] threeCalls := by
    rw [show threeCalls = ⟨.empty, _⟩ from congrArg (SharedStore.mk .empty) calls_threeCalls]
    exact ⟨rfl, rfl, rfl, rfl, rfl, trivial⟩
  exact ⟨isCurrent_threeCalls, hbegin, hruns, isCurrent_run isCurrent_threeCalls hbegin hruns⟩

/-- The store after the first replace when the drain has taken its chunk. -/
def storeOfFirst : Store where
  cache := some [⟨1, HookCache.letterRecord 'a' rfl .static, some (Text.mark 'g')⟩]
  queue := some ⟨[], true⟩
  options := some [(generationOption, some (Text.mark 'g'))]
  nextRowId := 2
  nextChunkId := 2
  unwrittenSince := none

/-- The drain has taken the chunk of the first replace and has found its generation valid. -/
theorem run_check_threeCalls :
    run [0, 0, 1, 1] threeCalls = ⟨storeOfFirst, [
      .finished,
      .write (Text.mark 'g') [HookCache.letterRecord 'b' rfl .static],
      .transaction (Text.mark 'h') [HookCache.letterRecord 'c' rfl .static] []]⟩ := by
  have hpayload : QueueChunk.payload? [HookCache.letterRecord 'b' rfl .static] =
      some (Json.list ([HookCache.letterRecord 'b' rfl .static].map HookRecord.toJson)).print := rfl
  have htaken : run [0, 0, 1] threeCalls = ⟨storeOfFirst, [
      .finished,
      .check ⟨1, Text.mark 'g',
        (Json.list ([HookCache.letterRecord 'b' rfl .static].map HookRecord.toJson)).print⟩,
      .transaction (Text.mark 'h') [HookCache.letterRecord 'c' rfl .static] []]⟩ := by
    rw [show threeCalls = ⟨.empty, _⟩ from congrArg (SharedStore.mk .empty) calls_threeCalls]
    rfl
  have hvalid : storeOfFirst.getOption generationOption none = .ok (some (Text.mark 'g')) := rfl
  have hcheck := WriteCall.step_check hvalid hpayload 1 false
  rw [show run [0, 0, 1, 1] threeCalls = (run [0, 0, 1] threeCalls).step 1 from rfl, htaken, step]
  dsimp only [List.getElem?_cons_succ, List.getElem?_cons_zero]
  rw [show (others _ 1).any WriteCall.holdsLock = false from rfl, hcheck]
  rfl

/-- The second replace comes between reading the valid generation and writing.  Then all calls have finished and
nothing is queued, but the row that the drain has written is one of the superseded scan. -/
theorem run_leaves_superseded :
    threeCalls.store.IsCurrent ∧
      (run [0, 0, 1, 1, 2, 1] threeCalls).calls = [.finished, .finished, .finished] ∧
      (run [0, 0, 1, 1, 2, 1] threeCalls).store.allChunks = .ok [] ∧
      ¬ (run [0, 0, 1, 1, 2, 1] threeCalls).store.IsCurrent := by
  rw [show run [0, 0, 1, 1, 2, 1] threeCalls = run [2, 1] (run [0, 0, 1, 1] threeCalls) from rfl,
    run_check_threeCalls]
  refine ⟨isCurrent_threeCalls, rfl, rfl, fun hcurrent => ?_⟩
  have hstale := hcurrent ⟨3, HookCache.letterRecord 'b' rfl .static, some (Text.mark 'g')⟩
    (List.mem_cons_of_mem _ List.mem_cons_self)
  cases hstale

end SharedStore

end HookAtlas
