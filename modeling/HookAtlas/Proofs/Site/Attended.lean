/-
# Queued chunks are attended to as long as a site is up

From its start on, whatever is done to a site, a tick is pending as long as there are chunks in the queue:
the start schedules one for what an earlier run has left, a replace for what it queues, and a drain for what
remains.  None of the other operations touches the queue or the scheduler, and only `stop` drops a tick.

This is so as long as a batch can be made of all records that are replaced by, as it can of those of a scan.  A
tick that comes to records without a batch raises before it asks for the next one, and the chunks behind are
left without a tick (`run_overflow_strands`).

A generation is drawn anew by the host for each replace, so the chunks in the queue belong to generations that
were given out before.  This is part of what every operation keeps.
-/

import HookAtlas.Proofs.Cache.Attended
import HookAtlas.Proofs.Number.Decimal
import HookAtlas.Proofs.Site.Operation

namespace HookAtlas

namespace SiteWorld

/-- Each generation has a name of its own. -/
theorem generationName_injective : Function.Injective generationName := by
  intro count other hname
  have hdigits : Number.natText count = Number.natText other := List.append_cancel_left hname
  rw [← Number.decimalValue_natText count, hdigits, Number.decimalValue_natText]

end SiteWorld

namespace Site

/-- No chunk belongs to a generation that is yet to be given out. -/
def AllGivenOut (chunks : List QueueChunk) (generations : Nat) : Prop :=
  ∀ count, generations < count → ∀ chunk ∈ chunks, chunk.generation ≠ SiteWorld.generationName count

/-- The chunks of a cache are attended to, and the next generation is a new one. -/
def Attends (cache : HookCache) (generations : Nat) : Prop :=
  ∃ chunks, cache.Attended chunks ∧ AllGivenOut chunks generations

theorem AllGivenOut.of_subset {chunks remaining : List QueueChunk} {generations : Nat}
    (hgiven : AllGivenOut chunks generations) (hsubset : remaining ⊆ chunks) :
    AllGivenOut remaining generations :=
  fun count hcount chunk hmem => hgiven count hcount chunk (hsubset hmem)

variable {cache : HookCache} {generations : Nat} {site after : Site}

/-! ## What is done to the cache -/

theorem attends_insertBatch (hattends : Attends cache generations) (records : List HookRecord)
    (group : Option Text) : Attends (cache.insertBatch records group).state generations := by
  obtain ⟨chunks, hattended, hgiven⟩ := hattends
  exact ⟨chunks, hattended.insertBatch records group, hgiven⟩

theorem attends_drainOne (hattends : Attends cache generations) (clock : Float) :
    Attends (cache.drainOne clock).state generations := by
  obtain ⟨chunks, hattended, hgiven⟩ := hattends
  exact ⟨chunks.tail, HookCache.attended_drainOne hattended.drainable hattended.isDraining_eq clock,
    hgiven.of_subset (List.tail_subset chunks)⟩

theorem attends_runNow (hattends : Attends cache generations) (clock : Float) :
    Attends (cache.runNow clock).state generations := by
  obtain ⟨chunks, hattended, hgiven⟩ := hattends
  cases hpending : cache.scheduler.isPending with
  | true =>
      exact ⟨chunks.tail, (HookCache.attended_runNow hattended hpending clock).1,
        hgiven.of_subset (List.tail_subset chunks)⟩
  | false =>
      rw [HookCache.runNow_of_not_isPending hpending]
      exact ⟨chunks, hattended, hgiven⟩

theorem attends_runDue (hattends : Attends cache generations) (clock : Float) :
    Attends (cache.runDue clock).state generations := by
  obtain ⟨chunks, hattended, hgiven⟩ := hattends
  obtain ⟨remaining, hremaining, hafter⟩ := HookCache.exists_attended_runDue hattended clock
  exact ⟨remaining, hafter, hgiven.of_subset hremaining⟩

theorem attends_setOption (hattends : Attends cache generations) (name : Text)
    (value : Option Text) :
    Attends { cache with store := (cache.store.setOption name value).2 } generations := by
  obtain ⟨chunks, hattended, hgiven⟩ := hattends
  exact ⟨chunks, ⟨hattended.drainable.setOption name value, hattended.isDraining_eq,
    hattended.isPending_of_ne_nil⟩, hgiven⟩

/-- A replace queues chunks of a generation that it gives out itself. -/
theorem exists_attended_replaceStatic (hattends : Attends cache generations) (clock : Float)
    {records : List HookRecord} (hfits : Store.FitsBatches cache.chunkSize records) :
    let replaced :=
      cache.replaceStatic clock records (SiteWorld.generationName (generations + 1))
    ∃ queued, replaced.state.Attended queued ∧ AllGivenOut queued (generations + 1) ∧
      queued.length = (records.length - cache.chunkSize) ⌈/⌉ cache.chunkSize := by
  obtain ⟨chunks, hattended, hgiven⟩ := hattends
  obtain ⟨queued, hqueued, hgeneration, hlength⟩ := HookCache.attended_replaceStatic hattended
    (hgiven (generations + 1) (Nat.lt_succ_self _)) clock hfits
  refine ⟨queued, hqueued, ?_, hlength⟩
  intro count hcount chunk hmem
  rw [hgeneration chunk hmem, SiteWorld.generationName_injective.ne_iff]
  exact Nat.ne_of_lt hcount

/-- Replacing by records is admitted where a batch can be made of them, in chunks of any size. -/
theorem keptByCache_attends :
    KeptByCache (fun records => ∀ size, Store.FitsBatches size records) Attends where
  insertBatch := attends_insertBatch
  drainOne := attends_drainOne
  runDue := attends_runDue
  runNow := attends_runNow
  setOption := attends_setOption
  replaceStatic := by
    intro cache generations hattends clock records hfits
    obtain ⟨queued, hqueued, hgiven, -⟩ :=
      exists_attended_replaceStatic hattends clock (hfits cache.chunkSize)
    exact ⟨queued, hqueued, hgiven⟩
  admits_scanned := fun hrecords size => fitsBatches_of_recordsBelow hrecords size

/-! ## Starting -/

/-- Chunks that an earlier run has left are attended to as soon as draining is resumed. -/
theorem attends_resumeDraining {chunks : List QueueChunk}
    (hdrainable : site.world.cache.store.Drainable chunks)
    (hfree : site.world.cache.isDraining = false)
    (hgiven : AllGivenOut chunks site.world.generations) :
    ofCache Attends (resumeDraining site).world := by
  rw [resumeDraining, HookCache.pendingChunks, hdrainable.chunkCount_eq]
  dsimp only
  split
  · next hnone =>
      exact ⟨chunks, ⟨hdrainable, hfree, fun hsome => absurd (List.length_eq_zero_iff.mp hnone) hsome⟩,
        hgiven⟩
  · exact ⟨chunks, ⟨hdrainable, hfree, fun _ => Scheduler.isPending_schedule _ _ _ _⟩, hgiven⟩

/-- A site that is started on a store attends to the chunks in it. -/
theorem attends_start {store : Store} {chunks : List QueueChunk} (hdrainable : store.Drainable chunks)
    (hgiven : AllGivenOut chunks generations) (settings : Settings) (kind : SchedulerKind)
    (files : FileTree) (scripts : List (Text × ListenerScript)) (clock : Float) :
    ofCache Attends (start (openOn settings kind files scripts clock generations store)).world := by
  refine attends_resumeDraining (?_ : Store.Drainable _ chunks) ?_ ?_
  · rw [addSampler, world_startSampler]
    exact hdrainable.reopen
  · rw [addSampler, world_startSampler]
    rfl
  · rw [addSampler, world_startSampler]
    exact hgiven

/-- Every run leaves a site that attends to its chunks. -/
theorem attends_run {operations : List Operation}
    (hfits : ∀ records, .replace records ∈ operations → Store.fitsBatch records = true)
    (hattends : ofCache Attends site.world) (hsome : run operations site = some after) :
    ofCache Attends after.world := by
  apply keptByCache_attends.run ?_
    (fun records hmem _ => Store.fitsBatches_of_fitsBatch (hfits records hmem)) hattends hsome
  intro cache generations hattends settings files scripts clock
  obtain ⟨chunks, hattended, hgiven⟩ := hattends
  exact attends_start hattended.drainable hgiven settings settings.queueScheduler files scripts clock

/-! ## Draining ends -/

/-- The chunks of a site are drained to the last one. -/
structure Drains (site : Site) (chunks : List QueueChunk) : Prop where
  allChunks_eq : site.world.cache.store.allChunks = .ok chunks
  /-- While chunks are queued a tick is pending. -/
  isPending_of_ne_nil : chunks ≠ [] → site.world.cache.scheduler.isPending = true
  /-- Where a tick is pending, running ticks ends after one run for each chunk, or after one run where there
  are none.  Each takes the oldest chunk. -/
  runs_end : site.world.cache.scheduler.isPending = true →
    ∀ clocks : List Float, clocks.length ≤ max 1 chunks.length →
      let after := HookCache.run (clocks.map .runNow) site.world.cache
      after.store.allChunks = .ok (chunks.drop clocks.length) ∧
        (after.scheduler.isPending = true ↔ clocks.length < max 1 chunks.length)
  /-- A replace leaves one chunk for each started chunk size of what it does not write at once. -/
  chunks_after_replace : ∀ records : List HookRecord,
    Store.FitsBatches site.world.cache.chunkSize records → ∃ queued,
    (site.world.replaceStatic records).2.cache.store.allChunks = .ok queued ∧
      queued.length = (records.length - site.world.cache.chunkSize) ⌈/⌉ site.world.cache.chunkSize

theorem drains_of_attends (hattends : ofCache Attends site.world) : ∃ chunks, Drains site chunks := by
  obtain ⟨chunks, hattended, hgiven⟩ := hattends
  refine ⟨chunks, hattended.drainable.allChunks_eq, hattended.isPending_of_ne_nil, ?_, ?_⟩
  · intro hpending clocks hcount
    obtain ⟨hafter, hiff⟩ := HookCache.run_runNow hattended hpending clocks hcount
    exact ⟨hafter.drainable.allChunks_eq, hiff⟩
  · intro records hfits
    obtain ⟨queued, hqueued, -, hlength⟩ :=
      exists_attended_replaceStatic ⟨chunks, hattended, hgiven⟩ site.world.clock hfits
    exact ⟨queued, hqueued.drainable.allChunks_eq, hlength⟩

/-- Whatever was done to a site since it was started on a store whose chunks can be read, no chunk is stranded
and draining ends, provided that a batch can be made of the records of each chunk and of all records that were
replaced by. -/
theorem drains_run {store : Store} {chunks : List QueueChunk} (hdrainable : store.Drainable chunks)
    (hgiven : AllGivenOut chunks generations) (settings : Settings) (files : FileTree)
    (scripts : List (Text × ListenerScript)) (clock : Float) {operations : List Operation}
    (hfits : ∀ records, .replace records ∈ operations → Store.fitsBatch records = true)
    (hrun : run operations (startOn settings files scripts clock generations store) = some site) :
    ∃ queued, Drains site queued :=
  drains_of_attends (attends_run hfits
    (attends_start hdrainable hgiven settings settings.queueScheduler files scripts clock) hrun)

/-- Settings with chunks of one record. -/
def singleRecordSettings : Settings where
  dbPath := Path.ofText "store"
  baseDir := Path.ofText "/site"
  coreDirs := []
  pluginDir := Path.ofText "plugins"
  themeDir := Path.ofText "themes"
  sourceExtensions := [".php"]
  actionFunctions := Php.Callees.standard.actions
  filterFunctions := Php.Callees.standard.filters
  queueChunkSize := 1
  queueDrainDelay := 15
  queueScheduler := .manual
  scan := .standard
  address := []
  tcpPort := 0
  behindProxy := false

/-- A store in which a scan has left a chunk. -/
def leftChunk : QueueChunk :=
  ⟨1, SiteWorld.generationName 1, (Json.list [(HookCache.letterRecord 'z' rfl .static).toJson]).print⟩

/-- The store with that chunk. -/
def leftStore : Store :=
  { Store.empty with queue := some ⟨[leftChunk], true⟩ }

theorem drainable_leftStore : leftStore.Drainable [leftChunk] where
  cache_eq := ⟨[], rfl⟩
  queue_eq := rfl
  options_eq := ⟨[], rfl⟩
  readable := by
    intro chunk hmem
    rw [List.mem_singleton.mp hmem]
    have hpayload : QueueChunk.payload? [HookCache.letterRecord 'z' rfl .static] =
        some leftChunk.payload := rfl
    exact ⟨_, QueueChunk.records_of_payload? hpayload _ _, rfl⟩

theorem allGivenOut_leftChunk : AllGivenOut [leftChunk] 1 := by
  intro count hcount chunk hmem
  rw [List.mem_singleton.mp hmem, leftChunk]
  exact SiteWorld.generationName_injective.ne (Nat.ne_of_lt hcount)

/-- A chunk is left by an earlier run, two records are replaced, and the site is restarted while one of them is
queued. -/
theorem drains_run_leftStore :
    leftStore.Drainable [leftChunk] ∧ AllGivenOut [leftChunk] 1 ∧
      ∃ site queued,
        run [.runDue,
            .replace [HookCache.letterRecord 'b' rfl .static, HookCache.letterRecord 'c' rfl .static],
            .advance 1, .restart singleRecordSettings .empty [] 2, .drain]
          (startOn singleRecordSettings .empty [] 0 1 leftStore) = some site ∧
          Drains site queued := by
  have hrun : ∃ site, run [.runDue,
      .replace [HookCache.letterRecord 'b' rfl .static, HookCache.letterRecord 'c' rfl .static],
      .advance 1, .restart singleRecordSettings .empty [] 2, .drain]
      (startOn singleRecordSettings .empty [] 0 1 leftStore) = some site := ⟨_, rfl⟩
  obtain ⟨site, hrun⟩ := hrun
  obtain ⟨queued, hdrains⟩ := drains_run drainable_leftStore allGivenOut_leftChunk
    singleRecordSettings .empty [] 0 (by simp [Store.fitsBatch, HookCache.letterRecord]) hrun
  exact ⟨drainable_leftStore, allGivenOut_leftChunk, site, queued, hrun, hdrains⟩

/-- Three records, of which the second has a line that no batch can carry. -/
def overflowRecords : List HookRecord :=
  [HookCache.letterRecord 'd' rfl .static,
    { HookCache.letterRecord 'e' rfl .static with line := some 9223372036854775808 },
    HookCache.letterRecord 'f' rfl .static]

/-- A site with chunks of one record, started on empty tables. -/
def emptySite : Site :=
  startOn singleRecordSettings .empty [] 0 0 .empty

theorem hasSchema_emptySite : emptySite.world.cache.store.HasSchema :=
  ⟨⟨[], rfl⟩, ⟨[], rfl⟩, ⟨[], rfl⟩⟩

/-- The tick that comes to the second record raises, and the third one is left in the queue without a tick. -/
theorem run_overflow_strands :
    Store.empty.Drainable [] ∧ AllGivenOut [] 0 ∧
      ∃ site, run [.replace overflowRecords, .runNow] emptySite = some site ∧
        (∃ chunk, site.world.cache.store.allChunks = .ok [chunk]) ∧
        site.world.cache.scheduler.isPending = false ∧ ¬∃ queued, Drains site queued := by
  have hfresh : emptySite.world.cache.store.IsFresh (SiteWorld.generationName 1) := by
    intro table htable chunk hmem
    cases htable
    cases hmem
  have hpieces : chunksOf emptySite.world.cache.chunkSize
      (overflowRecords.drop emptySite.world.cache.chunkSize) =
        [overflowRecords[1]] :: [[overflowRecords[2]]] := by
    rw [show emptySite.world.cache.chunkSize = 1 from rfl]
    simp [chunksOf, overflowRecords]
  have hwritable : ∀ record ∈ overflowRecords.drop emptySite.world.cache.chunkSize,
      record.isWritable = true := by
    rw [show emptySite.world.cache.chunkSize = 1 from rfl, overflowRecords, List.drop_one, List.tail_cons,
      List.forall_mem_cons]
    refine ⟨?_, by simp [HookRecord.isWritable, HookCache.letterRecord]⟩
    rw [HookRecord.isWritable_iff]
    rintro line ⟨⟩
    exact Number.lt_pow_maxDigits (Nat.le_refl _)
  have hfits : Store.fitsBatch (overflowRecords.take emptySite.world.cache.chunkSize) = true := rfl
  obtain ⟨left, hleft, hchunks, hpending⟩ := HookCache.replaceStatic_strands hasSchema_emptySite hfresh
    rfl 0 hfits hwritable hpieces rfl 0
  obtain ⟨chunk, rfl⟩ : ∃ chunk, left = [chunk] :=
    List.length_eq_one_iff.mp (by simpa using congrArg List.length hleft)
  refine ⟨⟨⟨[], rfl⟩, rfl, ⟨[], rfl⟩, fun _ hmem => absurd hmem List.not_mem_nil⟩,
    fun _ _ _ hmem => absurd hmem List.not_mem_nil, _, rfl, ⟨chunk, hchunks⟩, hpending, ?_⟩
  rintro ⟨queued, hdrains⟩
  have hqueued := hdrains.allChunks_eq.symm.trans hchunks
  cases hqueued
  have hraised := hdrains.isPending_of_ne_nil (List.cons_ne_nil _ _)
  exact Bool.noConfusion (hpending.symm.trans hraised)

end Site

end HookAtlas
