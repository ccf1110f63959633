/-
# Scans when tables are missing

A scan replaces the static records and records its time, and neither lets a failure of the store through.
Its listeners may be anything that returns or raises and that changes the store by statements only; then the
scan answers, and the rows that were observed at run time stay.  The clock has to show a time, since records
of call sites are dated.  The lines of call sites fit into batches, so a scan raises for nothing else.

`operations_return_iff` says of each operation exactly when it answers.  Records with longer lines make the
others raise, though they are meant never to (`operations_raise_overflow`).
-/

import HookAtlas.Proofs.Cache.Answers
import HookAtlas.Proofs.Scan.Lines
import HookAtlas.Proofs.Scan.Records
import HookAtlas.Proofs.Site.Listeners

namespace HookAtlas

namespace SiteWorld

variable {world before middle after : SiteWorld}

/-- The clock shows a moment of the calendar. -/
def ShowsTime (world : SiteWorld) : Prop :=
  ∃ moment, world.now = .ok moment

/-- Statements lead from the store of one world to the store of another, and if the clock showed a time it
still does. -/
structure WritesTo (before after : SiteWorld) : Prop where
  writes : Store.Writes before.cache.store after.cache.store
  showsTime : before.ShowsTime → after.ShowsTime

namespace WritesTo

theorem refl (world : SiteWorld) : world.WritesTo world :=
  ⟨.refl _, id⟩

theorem trans (hfirst : before.WritesTo middle) (hsecond : middle.WritesTo after) :
    before.WritesTo after :=
  ⟨hfirst.writes.trans hsecond.writes, fun hshows => hsecond.showsTime (hfirst.showsTime hshows)⟩

theorem noteAll (notices : List Notice) (world : SiteWorld) : world.WritesTo (world.noteAll notices) :=
  ⟨.refl _, id⟩

theorem replaceStatic (records : List HookRecord) (world : SiteWorld) :
    world.WritesTo (world.replaceStatic records).2 :=
  ⟨(HookCache.writes_replaceStatic world.clock records _ world.cache).writes, id⟩

theorem recordScanTime (world : SiteWorld) : world.WritesTo world.recordScanTime.2 := by
  rw [SiteWorld.recordScanTime]
  split
  · exact .refl world
  · next seconds _ =>
      have hset := Store.Writes.setOption lastScanOption (some (Number.intText seconds)) world.cache.store
      dsimp only
      split
      · exact ⟨hset, id⟩
      · exact ⟨hset, id⟩

theorem scanRoots (roots : List Path) (world : SiteWorld) :
    world.WritesTo (world.scanRoots roots).2 :=
  scanRoots_keeps (fun _ notices _ => noteAll notices world)
    (fun records notices _ => (noteAll notices world).trans (replaceStatic records _))
    fun hwrites => hwrites.trans (recordScanTime _)

end WritesTo

/-- While the clock shows a time, the time of a scan is recorded or its loss is reported. -/
theorem value_recordScanTime (hshows : world.ShowsTime) : world.recordScanTime.1 = .ok () := by
  obtain ⟨moment, hnow⟩ := hshows
  obtain ⟨seconds, hseconds⟩ := Clock.wholeSeconds_of_now hnow
  rw [recordScanTime, hseconds]
  dsimp only
  split
  · rfl
  · rfl

/-- The records of a scan can be written. -/
theorem exists_value_replaceStatic {roots : List Path} {records : List HookRecord} {notices : List Notice}
    (hrecords : recordsBelow world.settings world.files world.now roots = (.ok records, notices)) :
    ∃ handled replaced, (world.noteAll notices).replaceStatic records = (.ok handled, replaced) := by
  have hfits := fitsBatches_of_recordsBelow hrecords world.cache.chunkSize
  obtain ⟨handled, hvalue⟩ := HookCache.exists_value_replaceStatic
    (hfits.take world.cache.chunkSize_pos)
    (fun record hmem => hfits.isWritable world.cache.chunkSize_pos (List.mem_of_mem_drop hmem))
    world.clock (generationName (world.generations + 1))
  exact ⟨handled, _, Prod.ext hvalue rfl⟩

/-- A scan of some roots raises nothing but that the clock shows no time. -/
theorem value_scanRoots (roots : List Path) (world : SiteWorld) :
    (∃ handled, (world.scanRoots roots).1 = .ok handled) ∨
      ∃ error, (world.scanRoots roots).1 = .error (.clock error) := by
  rw [scanRoots]
  split
  · exact .inr ⟨_, rfl⟩
  · next records notices hrecords =>
      obtain ⟨handled, replaced, hreplaced⟩ := exists_value_replaceStatic hrecords
      rw [hreplaced]
      dsimp only
      split
      · exact .inr ⟨_, rfl⟩
      · exact .inl ⟨handled, rfl⟩

/-- While the clock shows a time, a scan of some roots answers how many records it handled. -/
theorem exists_value_scanRoots (hshows : world.ShowsTime) (roots : List Path) :
    ∃ handled, (world.scanRoots roots).1 = .ok handled := by
  have hdated : ∃ records,
      (recordsBelow world.settings world.files world.now roots).1 = .ok records := by
    obtain ⟨moment, hnow⟩ := hshows
    rw [hnow]
    exact ⟨_, recordsBelow_of_clock world.settings world.files moment roots⟩
  rw [scanRoots]
  split
  · next hrecords =>
      rw [hrecords] at hdated
      obtain ⟨records, hdated⟩ := hdated
      cases hdated
  · next records notices hrecords =>
      have hwrites := (WritesTo.noteAll notices world).trans
        (WritesTo.replaceStatic records (world.noteAll notices))
      obtain ⟨handled, replaced, hreplaced⟩ := exists_value_replaceStatic hrecords
      rw [hreplaced] at hwrites ⊢
      dsimp only
      rw [show replaced.recordScanTime = (.ok (), replaced.recordScanTime.2) from
        Prod.ext (value_recordScanTime (hwrites.showsTime hshows)) rfl]
      exact ⟨handled, rfl⟩

end SiteWorld

namespace Host

open SiteWorld (WritesTo)

variable {ι : Type} {host : Host ι Value SiteWorld} {start : SiteWorld} {state : Hosted ι SiteWorld}

/-- Every listener returns or raises, and changes the store by statements only. -/
structure IsHarmless (host : Host ι Value SiteWorld) : Prop where
  call : ∀ listener args state, ∃ outcome after,
    host.call listener args state = some (outcome, after) ∧ state.world.WritesTo after.world
  report : ∀ round (world : SiteWorld), world.WritesTo (host.report round world)

namespace IsHarmless

theorem relates (hhost : host.IsHarmless) (start : SiteWorld) :
    host.Relates False fun state other => state = other ∧ start.WritesTo state.world where
  call := by
    rintro state _ ⟨rfl, hwrites⟩ listener args
    obtain ⟨outcome, after, hcall, hcalled⟩ := hhost.call listener args state
    rw [hcall]
    exact .of_some ⟨rfl, hwrites.trans hcalled⟩
  report := by
    rintro state _ ⟨rfl, hwrites⟩ round
    exact ⟨rfl, hwrites.trans (hhost.report round state.world)⟩
  countFiring := by
    rintro state _ ⟨rfl, hwrites⟩ hook
    exact ⟨rfl, hwrites⟩
  callOrder := by
    rintro state _ ⟨rfl, -⟩ hook
    rfl

theorem exists_of_alike {α : Type} {result : Option (α × Hosted ι SiteWorld)}
    (halike : Alike False (fun state other => state = other ∧ start.WritesTo state.world) result result) :
    ∃ answer after, result = some (answer, after) ∧ start.WritesTo after.world := by
  rcases halike with ⟨hendless, -⟩ | ⟨answer, after, _, hsome, -, -, hwrites⟩
  · exact hendless.elim
  · exact ⟨answer, after, hsome, hwrites⟩

/-- A scan with harmless listeners answers, and changes the store by statements only. -/
theorem exists_scan (hhost : host.IsHarmless) (options : ScanOptions) (state : Hosted ι SiteWorld) :
    ∃ answer after, host.scan options state = some (answer, after) ∧
      state.world.WritesTo after.world ∧
      ((∃ handled, answer = .ok handled) ∨ ∃ error, answer = .error (.clock error)) ∧
      (state.world.ShowsTime → ∃ handled, answer = .ok handled) := by
  have hrelates := hhost.relates state.world
  obtain ⟨roots, filtered, hfilter, hfiltered⟩ := exists_of_alike
    (hrelates.filterRoots
      (by
        rintro state _ ⟨rfl, hwrites⟩ notices
        exact ⟨rfl, hwrites.trans (.noteAll notices state.world)⟩)
      ((state.world.settings.enabledRoots options).map SourceRoot.declared) ⟨rfl, .refl _⟩)
  obtain ⟨roots, announced, hannounce, hannounced⟩ :=
    exists_of_alike (hrelates.announceRoots roots ⟨rfl, hfiltered⟩)
  have hscanned := hannounced.trans (.scanRoots (roots.map SourceRoot.path) announced.world)
  have hvalue := announced.world.value_scanRoots (roots.map SourceRoot.path)
  rw [Host.scan]
  simp only [hfilter, hannounce]
  split
  · next error world hroots =>
      rw [hroots] at hscanned hvalue
      refine ⟨_, _, rfl, hscanned, hvalue, ?_⟩
      intro hshows
      obtain ⟨handled, hvalue⟩ := SiteWorld.exists_value_scanRoots (hannounced.showsTime hshows)
        (roots.map SourceRoot.path)
      rw [hroots] at hvalue
      cases hvalue
  · next handled world hroots =>
      rw [hroots] at hscanned
      have hrelated : ({ announced with world } : Hosted ι SiteWorld) = { announced with world } ∧
          state.world.WritesTo world := ⟨rfl, hscanned⟩
      obtain ⟨args, completed, hcomplete, hcompleted⟩ := exists_of_alike
        (hrelates.doAction ScanHook.complete [.int (Int.ofNat handled)] hrelated)
      rw [hcomplete]
      exact ⟨_, _, rfl, hcompleted, .inl ⟨handled, rfl⟩, fun _ => ⟨handled, rfl⟩⟩

end IsHarmless

end Host

namespace HookCache

open Store (KeepsObserved)

/-- No failure of the store gets out of the write path, whatever tables are missing, and no row that was
observed at run time gets lost.  Counting chunks always answers, and a scan does as long as the clock shows a
time.  The others answer exactly where they come to no line that is too long: inserting where a batch can be
made of the records, replacing where one can be made of the first chunk and the other records can be written,
and draining where one can be made of the records to be written. -/
theorem operations_return_iff (cache : HookCache) (hpayloads : cache.store.HoldsPayloads)
    (hcolumn : ∀ table, cache.store.queue = some table → table.hasPayloadColumn = true) :
    (∀ clock records generation,
      ((∃ handled, (cache.replaceStatic clock records generation).value = .ok handled) ↔
        cache.store.hasAllTables = false ∨ Store.fitsBatch (records.take cache.chunkSize) = true ∧
          ∀ record ∈ records.drop cache.chunkSize, record.isWritable = true) ∧
      (∀ handled, (cache.replaceStatic clock records generation).value = .ok handled →
        handled ≤ records.length) ∧
      cache.store.KeepsObserved (cache.replaceStatic clock records generation).state.store) ∧
    (∀ records generation,
      ((∃ inserted ≤ records.length, (cache.insertBatch records generation).value = .ok inserted) ↔
        Store.fitsBatch records = true) ∧
      cache.store.KeepsObserved (cache.insertBatch records generation).state.store) ∧
    (∀ clock,
      ((∃ drained, (cache.drainOne clock).value = .ok drained) ↔
        cache.isDraining = true ∨ ¬cache.store.DrainOverflows) ∧
      cache.store.KeepsObserved (cache.drainOne clock).state.store) ∧
    cache.pendingChunks.1 = (cache.store.queue.elim 0 fun table => table.chunks.length) ∧
    (∀ (options : ScanOptions) (site : Site), site.world.cache = cache →
      cache.store.KeepsObserved (site.scanQuietly options).2.world.cache.store ∧
      ((∃ handled, (site.scanQuietly options).1 = .ok handled) ∨
        ∃ error, (site.scanQuietly options).1 = .error (.clock error)) ∧
      (site.world.ShowsTime → ∃ handled, (site.scanQuietly options).1 = .ok handled)) ∧
    ∀ (ι : Type) (host : Host ι Value SiteWorld), host.IsHarmless →
      ∀ (options : ScanOptions) (state : Hosted ι SiteWorld), state.world.cache = cache →
        ∃ answer after, host.scan options state = some (answer, after) ∧
          cache.store.KeepsObserved after.world.cache.store ∧
          ((∃ handled, answer = .ok handled) ∨ ∃ error, answer = .error (.clock error)) ∧
          (state.world.ShowsTime → ∃ handled, answer = .ok handled) := by
  refine ⟨?_, ?_, ?_, cache.pendingChunks_eq, ?_, ?_⟩
  · intro clock records generation
    exact ⟨value_replaceStatic_iff hcolumn clock records generation,
      fun _ hvalue => le_of_value_replaceStatic hvalue,
      (writes_replaceStatic clock records generation cache).writes.keepsObserved⟩
  · intro records generation
    exact ⟨Store.value_insertBatch_iff records generation cache.store,
      (writes_insertBatch records generation cache).writes.keepsObserved⟩
  · intro clock
    exact ⟨value_drainOne_iff hpayloads clock, (writes_drainOne clock cache).writes.keepsObserved⟩
  · rintro options site rfl
    refine ⟨?_, SiteWorld.value_scanRoots _ _, fun hshows => SiteWorld.exists_value_scanRoots hshows _⟩
    exact (SiteWorld.WritesTo.scanRoots _ site.world).writes.keepsObserved
  · rintro ι host hhost options state rfl
    obtain ⟨answer, after, hscan, hwrites, hraises, hanswer⟩ := hhost.exists_scan options state
    exact ⟨answer, after, hscan, hwrites.writes.keepsObserved, hraises, hanswer⟩

/-- A cache without an option table, with a row that was observed at run time and a chunk in its queue. -/
def withoutOptions : HookCache :=
  onStore
    { cache := some [⟨1, letterRecord 'x' rfl .runtime, none⟩]
      queue := some ⟨[⟨1, [], (Json.list [(letterRecord 'w' rfl .static).toJson]).print⟩], true⟩
      options := none
      nextRowId := 2
      nextChunkId := 2
      unwrittenSince := none }
    (.manual none) 1 15

theorem holdsPayloads_withoutOptions : withoutOptions.store.HoldsPayloads := by
  intro table hqueue chunk hmem
  cases hqueue
  rw [List.mem_singleton.mp hmem]
  exact ⟨[letterRecord 'w' rfl .static], rfl⟩

/-- Listeners that insert a record and raise. -/
def insertingHost : Host Unit Value SiteWorld where
  call _ args state :=
    some (⟨args, none⟩, state.mapWorld fun world =>
      world.afterCache (world.cache.insertBatch [letterRecord 'y' rfl .runtime] none))
  report := SiteWorld.reportRaise
  nameValue := .text

theorem isHarmless_insertingHost : insertingHost.IsHarmless where
  call _ _ state := ⟨_, _, rfl, (writes_insertBatch _ none state.world.cache).writes, id⟩
  report _ world := .noteAll _ world

/-- Where the option table is missing, a drain takes a chunk that it cannot write, a replace fails after it has
deleted the static rows, and a scan meets listeners that raise. -/
theorem operations_return_withoutOptions :
    withoutOptions.store.HoldsPayloads ∧
      (∀ table, withoutOptions.store.queue = some table → table.hasPayloadColumn = true) ∧
      insertingHost.IsHarmless ∧
      (∃ drained, (withoutOptions.drainOne 0).value = .ok drained) ∧
      (∃ handled,
        (withoutOptions.replaceStatic 0 [letterRecord 'b' rfl .static] []).value = .ok handled) ∧
      withoutOptions.store.KeepsObserved
        (withoutOptions.replaceStatic 0 [letterRecord 'b' rfl .static] []).state.store ∧
      ∀ (options : ScanOptions) (state : Hosted Unit SiteWorld), state.world.cache = withoutOptions →
        ∃ answer after, insertingHost.scan options state = some (answer, after) ∧
          withoutOptions.store.KeepsObserved after.world.cache.store := by
  have hcolumn : ∀ table, withoutOptions.store.queue = some table → table.hasPayloadColumn = true := by
    intro table hqueue
    cases hqueue
    rfl
  obtain ⟨hreplace, -, hdrain, -, -, hscan⟩ :=
    operations_return_iff withoutOptions holdsPayloads_withoutOptions hcolumn
  have hfits : ¬withoutOptions.store.DrainOverflows := by
    rintro ⟨chunk, chunks, records, -, hvalid, -⟩
    cases hvalid
  obtain ⟨hanswers, -, hkept⟩ := hreplace 0 [letterRecord 'b' rfl .static] []
  refine ⟨holdsPayloads_withoutOptions, hcolumn, isHarmless_insertingHost, (hdrain 0).1.mpr (.inr hfits),
    hanswers.mpr (.inl rfl), hkept, ?_⟩
  intro options state hcache
  obtain ⟨answer, after, hsome, hkeeps, -⟩ :=
    hscan Unit insertingHost isHarmless_insertingHost options state hcache
  exact ⟨answer, after, hsome, hkeeps⟩

/-- A record with a line that no batch can carry. -/
def overflowRecord : HookRecord :=
  { letterRecord 'y' rfl .static with line := some 9223372036854775808 }

/-- A cache with all tables and a chunk of that record in its queue. -/
def overflowing : HookCache :=
  onStore
    { cache := some []
      queue := some ⟨[⟨1, Text.mark 'g', (Json.list [overflowRecord.toJson]).print⟩], true⟩
      options := some [(generationOption, some (Text.mark 'g'))]
      nextRowId := 1
      nextChunkId := 2
      unwrittenSince := none }
    (.manual none) 1 15

/-- All tables are there, and still draining the record, replacing by it and inserting it raise. -/
theorem operations_raise_overflow :
    overflowing.store.HoldsPayloads ∧ overflowing.store.hasAllTables = true ∧
      (overflowing.drainOne 0).value = .error (.store .lineOverflow) ∧
      (overflowing.replaceStatic 0 [overflowRecord] (Text.mark 'h')).value = .error .lineOverflow ∧
      (overflowing.insertBatch [overflowRecord] none).value = .error .lineOverflow := by
  have hwritable : overflowRecord.isWritable = true := by
    rw [HookRecord.isWritable_iff]
    rintro line ⟨⟩
    exact Number.lt_pow_maxDigits (Nat.le_refl _)
  have hpayload : QueueChunk.payload? [overflowRecord] =
      some (Json.list [overflowRecord.toJson]).print :=
    QueueChunk.payload?_eq_some_iff.mpr ⟨by simpa using hwritable, rfl⟩
  refine ⟨?_, rfl, ?_, rfl, rfl⟩
  · intro table hqueue chunk hmem
    cases hqueue
    rw [List.mem_singleton.mp hmem]
    exact ⟨[overflowRecord], hpayload⟩
  · exact (drainOne_of_overflow rfl rfl rfl (QueueChunk.records_of_payload? hpayload 1 (Text.mark 'g')) rfl
      0).1

end HookCache

end HookAtlas
