/-
# A scan depends on the code, not on the history of a site

Two sites may have the same settings, files and registered listeners, and stores that differ in any way: in
their rows, in what an earlier scan has left in the queue, in the valid generation and in the pending tick.  A
scan of each answers the same number, the number of call sites below the roots that the listeners choose.
Once the queue is drained the static rows of each are those of the storable call sites, in the same order and
with the same contents but for the moments, and the rows that were observed at run time are untouched.

What is asked of the listeners is that they ignore the history as well: called with the same arguments they
answer the same, and they leave the stores alone.  They may register and remove listeners.

A scan that finds a call site while the clock shows no time stops before anything is written.  So what a scan
leaves is described for clocks that show a time.  Batches can be made of its records, so nothing else stops it.
-/

import HookAtlas.Proofs.Cache.Rescan
import HookAtlas.Proofs.Scan.Lines
import HookAtlas.Proofs.Scan.Records
import HookAtlas.Proofs.Site.Attended

namespace HookAtlas

namespace SiteWorld

/-- Two worlds with the same settings, files and scripted listeners and the same samplers. -/
structure SameCode (world other : SiteWorld) : Prop where
  settings_eq : world.settings = other.settings
  files_eq : world.files = other.files
  scripts_eq : world.scripts = other.scripts
  samplers_eq : world.samplers = other.samplers

/-- At most the stack, the events and the notices are other than before. -/
structure Untouched (before after : SiteWorld) : Prop where
  sameCode : after.SameCode before
  cache_eq : after.cache = before.cache
  clock_eq : after.clock = before.clock
  generations_eq : after.generations = before.generations

/-- A scan can begin: all tables are there, no drain is under way, and no chunk belongs to the generation that
is given out next. -/
structure IsReady (world : SiteWorld) : Prop where
  hasSchema : world.cache.store.HasSchema
  isFresh : world.cache.store.IsFresh (generationName (world.generations + 1))
  isDraining_eq : world.cache.isDraining = false

/-- What a scan that found some call sites answers and leaves. -/
structure ScanOutcome (before : SiteWorld) (found : List (Path × Php.CallSite))
    (answer : Except ScanError Nat) (after : SiteWorld) : Prop where
  answer_eq : answer = .ok found.length
  /-- Draining as often as there are chunks empties the queue. -/
  ends : ∃ chunks, after.cache.store.allChunks = .ok chunks ∧
    ∀ clocks : List Float, chunks.length ≤ clocks.length →
      (HookCache.run (clocks.map .drain) after.cache).store.allChunks = .ok []
  /-- However the queue is emptied, the static rows are those of the storable call sites and the other rows are
  the ones of before. -/
  content : ∀ steps : List HookCache.Step, (∀ step ∈ steps, step.isQuiet = true) →
    (HookCache.run steps after.cache).store.allChunks = .ok [] →
    ∀ old, before.cache.store.allRows = .ok old →
      ∃ rows, (HookCache.run steps after.cache).store.allRows = .ok rows ∧
        (rows.filter Store.isStaticRow).map (fun row => row.record.undated) =
          (found.map (recordOfFound before.settings .epoch)).filter Store.isStorable ∧
        ((rows.filter Store.isStaticRow).Pairwise fun row other => row.id < other.id) ∧
        rows.filter Store.isObservedRow = old.filter Store.isObservedRow

variable {world before after final : SiteWorld}

theorem SameCode.refl (world : SiteWorld) : world.SameCode world :=
  ⟨rfl, rfl, rfl, rfl⟩

theorem SameCode.trans (hfirst : final.SameCode after) (hsecond : after.SameCode before) :
    final.SameCode before :=
  ⟨hfirst.settings_eq.trans hsecond.settings_eq, hfirst.files_eq.trans hsecond.files_eq,
    hfirst.scripts_eq.trans hsecond.scripts_eq, hfirst.samplers_eq.trans hsecond.samplers_eq⟩

theorem Untouched.refl (world : SiteWorld) : world.Untouched world :=
  ⟨.refl world, rfl, rfl, rfl⟩

theorem Untouched.trans (hfirst : before.Untouched after) (hsecond : after.Untouched final) :
    before.Untouched final :=
  ⟨hsecond.sameCode.trans hfirst.sameCode, hsecond.cache_eq.trans hfirst.cache_eq,
    hsecond.clock_eq.trans hfirst.clock_eq, hsecond.generations_eq.trans hfirst.generations_eq⟩

theorem Untouched.noteAll (notices : List Notice) (world : SiteWorld) :
    world.Untouched (world.noteAll notices) :=
  ⟨⟨rfl, rfl, rfl, rfl⟩, rfl, rfl, rfl⟩

theorem Untouched.noteEvent (event : SiteEvent) (world : SiteWorld) :
    world.Untouched (world.noteEvent event) :=
  ⟨⟨rfl, rfl, rfl, rfl⟩, rfl, rfl, rfl⟩

theorem IsReady.of_untouched (hready : before.IsReady) (huntouched : before.Untouched after) :
    after.IsReady := by
  refine ⟨?_, ?_, ?_⟩
  · rw [huntouched.cache_eq]
    exact hready.hasSchema
  · rw [huntouched.cache_eq, huntouched.generations_eq]
    exact hready.isFresh
  · rw [huntouched.cache_eq]
    exact hready.isDraining_eq

/-! ## Scanning given roots -/

/-- What a scan of some call sites leaves in the cache, before it is drained. -/
structure ScanLeaves (before : SiteWorld) (found : List (Path × Php.CallSite)) (now : Timestamp)
    (after : SiteWorld) : Prop where
  isDraining_eq : after.cache.isDraining = false
  keeps : ∀ rows, before.cache.store.cache = some rows →
    after.cache.store.KeepsBeside (rows.filter Store.isObservedRow)
      (found.map (recordOfFound before.settings now)) (generationName after.generations)

theorem lastScanOption_ne : lastScanOption ≠ generationOption := by
  decide

/-- Recording the time of a scan keeps its records, whatever the clock shows, and succeeds if it shows a time. -/
theorem recordScanTime_keepsBeside {observed : List CacheRow} {records : List HookRecord} {generation : Text}
    (hkeeps : world.cache.store.KeepsBeside observed records generation) :
    (∀ moment, world.now = .ok moment → world.recordScanTime.1 = .ok ()) ∧
      world.recordScanTime.2.cache.store.KeepsBeside observed records generation := by
  rw [recordScanTime]
  cases hclock : Clock.wholeSeconds world.clock with
  | error error =>
      refine ⟨fun moment hnow => ?_, hkeeps⟩
      obtain ⟨seconds, hseconds⟩ := Clock.wholeSeconds_of_now hnow
      rw [hclock] at hseconds
      cases hseconds
  | ok seconds =>
      obtain ⟨store, hstore, hafter⟩ :=
        hkeeps.setOption lastScanOption_ne (some (Number.intText seconds))
      dsimp only
      rw [hstore]
      exact ⟨fun _ _ => rfl, hafter⟩

theorem recordScanTime_frame (world : SiteWorld) :
    world.recordScanTime.2.cache.isDraining = world.cache.isDraining ∧
      world.recordScanTime.2.generations = world.generations := by
  rw [recordScanTime]
  split
  · exact ⟨rfl, rfl⟩
  · dsimp only
    split
    · exact ⟨rfl, rfl⟩
    · exact ⟨rfl, rfl⟩

/-- Recording the time of a scan keeps what the scan has left. -/
theorem recordScanTime_leaves {found : List (Path × Php.CallSite)} {now moment : Timestamp}
    (hleaves : ScanLeaves before found now world) (hnow : world.now = .ok moment)
    (hrows : ∃ rows, before.cache.store.cache = some rows) :
    world.recordScanTime.1 = .ok () ∧ ScanLeaves before found now world.recordScanTime.2 := by
  obtain ⟨rows, hcache⟩ := hrows
  obtain ⟨hdraining, hgenerations⟩ := world.recordScanTime_frame
  refine ⟨(recordScanTime_keepsBeside (hleaves.keeps rows hcache)).1 moment hnow, ?_, fun rows hcache => ?_⟩
  · rw [hdraining]
    exact hleaves.isDraining_eq
  · rw [hgenerations]
    exact (recordScanTime_keepsBeside (hleaves.keeps rows hcache)).2

/-- While the clock shows a time, a scan of some roots handles the call sites below them. -/
theorem scanRoots_leaves {now : Timestamp} (hready : world.IsReady) (hnow : world.now = .ok now)
    (roots : List Path) :
    (world.scanRoots roots).1 = .ok (callSitesBelow world.settings world.files roots).length ∧
      ScanLeaves world (callSitesBelow world.settings world.files roots) now
        (world.scanRoots roots).2 := by
  have hfound := recordsBelow_of_clock world.settings world.files now roots
  rw [scanRoots, hnow]
  rcases hrecords : recordsBelow world.settings world.files (.ok now) roots with ⟨_ | records, notices⟩
  · rw [hrecords] at hfound
    cases hfound
  rw [hrecords] at hfound
  cases hfound
  dsimp only
  obtain ⟨rows, hcache⟩ := hready.hasSchema.cache_eq
  have hstatic : ∀ record ∈ (callSitesBelow world.settings world.files roots).map
      (recordOfFound world.settings now), record.detectionMethod = .static :=
    fun record hmem => detectionMethod_of_mem hmem
  have hfits := fitsBatches_of_recordsBelow hrecords world.cache.chunkSize
  obtain ⟨hvalue, hfree, hkeeps⟩ := HookCache.replaceStatic_keepsBeside hcache hready.hasSchema
    hready.isFresh hstatic hfits world.clock
  have hleaves : ScanLeaves world (callSitesBelow world.settings world.files roots) now
      ((world.noteAll notices).replaceStatic ((callSitesBelow world.settings world.files roots).map
        (recordOfFound world.settings now))).2 := by
    refine ⟨hfree.trans hready.isDraining_eq, fun others hothers => ?_⟩
    rw [hcache, Option.some.injEq] at hothers
    rw [← hothers]
    exact hkeeps
  obtain ⟨hrecorded, hafter⟩ := recordScanTime_leaves hleaves hnow ⟨rows, hcache⟩
  rw [List.length_map] at hvalue
  rw [show (world.noteAll notices).replaceStatic ((callSitesBelow world.settings world.files roots).map
      (recordOfFound world.settings now)) = (.ok (callSitesBelow world.settings world.files roots).length,
        ((world.noteAll notices).replaceStatic ((callSitesBelow world.settings world.files roots).map
          (recordOfFound world.settings now))).2) from Prod.ext hvalue rfl]
  dsimp only
  split
  · next hraised =>
      rw [hraised] at hrecorded
      cases hrecorded
  · next htime =>
      rw [htime] at hafter
      exact ⟨rfl, hafter⟩

namespace ScanLeaves

variable {found : List (Path × Php.CallSite)} {now : Timestamp} {answer : Except ScanError Nat}

theorem of_untouched (hleaves : ScanLeaves before found now after) (huntouched : after.Untouched final) :
    ScanLeaves before found now final := by
  refine ⟨?_, fun rows hcache => ?_⟩
  · rw [huntouched.cache_eq]
    exact hleaves.isDraining_eq
  · rw [huntouched.cache_eq, huntouched.generations_eq]
    exact hleaves.keeps rows hcache

theorem of_untouched_before (hleaves : ScanLeaves after found now final)
    (huntouched : before.Untouched after) : ScanLeaves before found now final := by
  refine ⟨hleaves.isDraining_eq, fun rows hcache => ?_⟩
  rw [← huntouched.cache_eq] at hcache
  rw [← huntouched.sameCode.settings_eq]
  exact hleaves.keeps rows hcache

/-- What draining makes of a scan. -/
theorem outcome (hleaves : ScanLeaves before found now after)
    (hrows : ∃ rows, before.cache.store.cache = some rows) (hanswer : answer = .ok found.length) :
    ScanOutcome before found answer after where
  answer_eq := hanswer
  ends := by
    obtain ⟨rows, hcache⟩ := hrows
    obtain ⟨kept, chunks, written, queued, hholds, -, -⟩ := hleaves.keeps rows hcache
    have hdrainable := Store.Drainable.of_holds hholds
    refine ⟨chunks, hdrainable.allChunks_eq, fun clocks hcount => ?_⟩
    have hdrained := HookCache.drainable_run_drain hdrainable hleaves.isDraining_eq clocks
    rw [List.drop_eq_nil_of_le hcount] at hdrained
    exact hdrained.allChunks_eq
  content := by
    intro steps hquiet hempty old hold
    have hcache : before.cache.store.cache = some old := by
      rw [Store.allRows] at hold
      split at hold
      · cases hold
      · next hcache =>
          cases hold
          exact hcache
    have hstatic : ∀ record ∈ found.map (recordOfFound before.settings now),
        record.detectionMethod = .static := fun record hmem => detectionMethod_of_mem hmem
    have hkept := HookCache.run_keepsBeside hquiet hstatic (hleaves.keeps old hcache)
    obtain ⟨rows, hrows, hrecord, hids, hobserved⟩ := hkept.exists_holdsAll hstatic hempty
    refine ⟨rows, hrows, ?_, hids, hobserved⟩
    have hmap : (rows.filter Store.isStaticRow).map (fun row => row.record.undated) =
        ((rows.filter Store.isStaticRow).map CacheRow.record).map HookRecord.undated := by
      rw [List.map_map]
      rfl
    -- Without its moments a record is the same before and after it was stored.
    have hstored : ((found.map (recordOfFound before.settings now)).filter Store.isStorable).map
          (HookRecord.undated ∘ HookRecord.stored) =
        ((found.map (recordOfFound before.settings now)).filter Store.isStorable).map
          HookRecord.undated := rfl
    rw [hmap, hrecord, List.map_map, hstored, undated_filter_isStorable]

/-- After a scan and any draining another scan can begin, at any time. -/
theorem isReady (hleaves : ScanLeaves before found now after)
    (hrows : ∃ rows, before.cache.store.cache = some rows) {steps : List HookCache.Step}
    (hquiet : ∀ step ∈ steps, step.isQuiet = true) (clock : Float) :
    { after with cache := HookCache.run steps after.cache, clock }.IsReady := by
  obtain ⟨rows, hcache⟩ := hrows
  have hkept := HookCache.run_keepsBeside hquiet
    (fun record hmem => detectionMethod_of_mem hmem) (hleaves.keeps rows hcache)
  refine ⟨hkept.hasSchema, hkept.isFresh ?_, HookCache.isDraining_run hleaves.isDraining_eq steps⟩
  exact generationName_injective.ne (Nat.ne_of_lt (Nat.lt_succ_self _))

end ScanLeaves

theorem sameCode_scanRoots (roots : List Path) (world : SiteWorld) :
    (world.scanRoots roots).2.SameCode world := by
  have hrecord : ∀ world : SiteWorld, world.recordScanTime.2.SameCode world := by
    intro world
    rw [recordScanTime]
    split
    · exact .refl world
    · dsimp only
      split
      · exact ⟨rfl, rfl, rfl, rfl⟩
      · exact ⟨rfl, rfl, rfl, rfl⟩
  refine @scanRoots_keeps (fun after => after.SameCode world) world roots
    (fun _ _ _ => ⟨rfl, rfl, rfl, rfl⟩) (fun _ _ _ => ⟨rfl, rfl, rfl, rfl⟩) ?_
  intro scanned hsame
  exact (hrecord scanned).trans hsame

end SiteWorld

namespace Host

variable {ι : Type} {host : Host ι Value SiteWorld} {options : ScanOptions}
  {code : SiteWorld} {state first second announced : Hosted ι SiteWorld}

/-! ## Listeners that ignore the history -/

/-- Listeners that ignore the history of a site.  Called with the same arguments where the code and the
registered listeners are the same, a listener answers the same and leaves the same listeners registered.  It
leaves cache, clock and code as they are. -/
structure IgnoresHistory (host : Host ι Value SiteWorld) (code : SiteWorld) : Prop where
  call : ∀ {state other : Hosted ι SiteWorld}, state.world.SameCode code → other.world.SameCode code →
    state.dispatcher.listeners = other.dispatcher.listeners → ∀ (listener : ι) (args : List Value),
    ∃ outcome after otherAfter, host.call listener args state = some (outcome, after) ∧
      host.call listener args other = some (outcome, otherAfter) ∧
      after.dispatcher.listeners = otherAfter.dispatcher.listeners ∧
      state.world.Untouched after.world ∧ other.world.Untouched otherAfter.world
  report : ∀ (round : Round) (world : SiteWorld), world.Untouched (host.report round world)

/-- Two states with the same registered listeners whose worlds are untouched since some point. -/
structure Agree (first second : SiteWorld) (state other : Hosted ι SiteWorld) : Prop where
  listeners_eq : state.dispatcher.listeners = other.dispatcher.listeners
  left : first.Untouched state.world
  right : second.Untouched other.world

/-- Dispatches to listeners that ignore the history go alike. -/
theorem IgnoresHistory.relates (hhost : host.IgnoresHistory code) {first second : SiteWorld}
    (hfirst : first.SameCode code) (hsecond : second.SameCode code) :
    host.Relates False (Agree first second) where
  call := by
    intro state other hagree listener args
    obtain ⟨outcome, after, otherAfter, hcall, hother, hlisteners, hleft, hright⟩ :=
      hhost.call (hagree.left.sameCode.trans hfirst) (hagree.right.sameCode.trans hsecond)
        hagree.listeners_eq listener args
    rw [hcall, hother]
    exact .of_some ⟨hlisteners, hagree.left.trans hleft, hagree.right.trans hright⟩
  report := by
    intro state other hagree round
    exact ⟨hagree.listeners_eq, hagree.left.trans (hhost.report round _),
      hagree.right.trans (hhost.report round _)⟩
  countFiring := by
    intro state other hagree hook
    exact ⟨hagree.listeners_eq, hagree.left, hagree.right⟩
  callOrder := by
    intro state other hagree hook
    rw [Dispatcher.callOrder, Dispatcher.callOrder, Dispatcher.byPriority, Dispatcher.byPriority,
      hagree.listeners_eq]

/-- An action has an answer and leaves the world untouched. -/
theorem IgnoresHistory.exists_doAction (hhost : host.IgnoresHistory code)
    (hcode : state.world.SameCode code) (hook : Text) (args : List Value) :
    ∃ left after, host.doAction hook args state = some (left, after) ∧
      state.world.Untouched after.world := by
  rcases (hhost.relates hcode hcode).doAction hook args ⟨rfl, .refl state.world, .refl state.world⟩ with
    ⟨hfalse, -, -⟩ | ⟨left, after, other, hsome, -, hagree⟩
  · exact hfalse.elim
  · exact ⟨left, after, hsome, hagree.left⟩

/-! ## One scan -/

/-- The roots that listeners make a scan go through, and the state in which it begins to do so. -/
def announcedRoots (host : Host ι Value SiteWorld) (options : ScanOptions)
    (state : Hosted ι SiteWorld) : Option (List Path × Hosted ι SiteWorld) :=
  match host.filterRoots ((state.world.settings.enabledRoots options).map SourceRoot.declared) state with
  | none => none
  | some (roots, state) =>
    (host.announceRoots roots state).map fun (roots, state) => (roots.map SourceRoot.path, state)

/-- On two sites with the same code and the same registered listeners the same roots are scanned. -/
theorem IgnoresHistory.exists_announcedRoots (hhost : host.IgnoresHistory code)
    (hfirst : first.world.SameCode code) (hsecond : second.world.SameCode code)
    (hlisteners : first.dispatcher.listeners = second.dispatcher.listeners) (options : ScanOptions) :
    ∃ roots after otherAfter, host.announcedRoots options first = some (roots, after) ∧
      host.announcedRoots options second = some (roots, otherAfter) ∧
      Agree first.world second.world after otherAfter := by
  have hrelates := hhost.relates hfirst hsecond
  have hsettings : second.world.settings = first.world.settings :=
    hsecond.settings_eq.trans hfirst.settings_eq.symm
  rw [announcedRoots, announcedRoots, hsettings]
  have hnotes : ∀ {state other : Hosted ι SiteWorld}, Agree first.world second.world state other →
      ∀ notices, Agree first.world second.world (state.mapWorld (·.noteAll notices))
        (other.mapWorld (·.noteAll notices)) := by
    intro state other hagree notices
    exact ⟨hagree.listeners_eq, hagree.left.trans (.noteAll notices _),
      hagree.right.trans (.noteAll notices _)⟩
  rcases hrelates.filterRoots hnotes
      ((first.world.settings.enabledRoots options).map SourceRoot.declared)
      ⟨hlisteners, .refl first.world, .refl second.world⟩ with
    ⟨hfalse, -, -⟩ | ⟨filtered, middle, otherMiddle, hsome, hsome', hmiddle⟩
  · exact hfalse.elim
  rw [hsome, hsome']
  dsimp only
  rcases hrelates.announceRoots filtered hmiddle with
    ⟨hfalse, -, -⟩ | ⟨roots, after, otherAfter, hsome, hsome', hafter⟩
  · exact hfalse.elim
  rw [hsome, hsome']
  exact ⟨roots.map SourceRoot.path, after, otherAfter, rfl, rfl, hafter⟩

/-- A scan with given roots. -/
theorem scan_of_announcedRoots {roots : List Path}
    (hroots : host.announcedRoots options state = some (roots, announced)) :
    host.scan options state =
      match announced.world.scanRoots roots with
      | (.error error, world) => some (.error error, { announced with world })
      | (.ok handled, world) =>
        (host.doAction ScanHook.complete [.int (Int.ofNat handled)] { announced with world }).map
          fun (_, state) => (.ok handled, state) := by
  rw [announcedRoots] at hroots
  rw [Host.scan]
  dsimp only
  rcases hfilter : host.filterRoots
      ((state.world.settings.enabledRoots options).map SourceRoot.declared) state with
    _ | ⟨filtered, middle⟩
  · rw [hfilter] at hroots
    cases hroots
  rw [hfilter] at hroots
  obtain ⟨⟨chosen, last⟩, hannounce, hpair⟩ := Option.map_eq_some_iff.mp hroots
  cases hpair
  dsimp only
  rw [hannounce]
  dsimp only
  rcases announced.world.scanRoots (chosen.map SourceRoot.path) with ⟨_ | handled, world⟩
  · rfl
  · dsimp only
    rcases host.doAction ScanHook.complete [.int (Int.ofNat handled)] { announced with world } with
      _ | ⟨_, _⟩
    · rfl
    · rfl

/-- A scan has an answer.  While the clock shows a time it handles the call sites below its roots. -/
theorem IgnoresHistory.exists_scan (hhost : host.IgnoresHistory code)
    (hcode : state.world.SameCode code) (hready : state.world.IsReady) {roots : List Path}
    (hroots : host.announcedRoots options state = some (roots, announced))
    (huntouched : state.world.Untouched announced.world) :
    ∃ answer after, host.scan options state = some (answer, after) ∧
      after.world.SameCode state.world ∧
      ∀ now, state.world.now = .ok now →
        answer = .ok (callSitesBelow state.world.settings state.world.files roots).length ∧
          state.world.ScanLeaves (callSitesBelow state.world.settings state.world.files roots) now
            after.world := by
  have hsame := SiteWorld.sameCode_scanRoots roots announced.world
  have hleaves : ∀ now, state.world.now = .ok now →
      (announced.world.scanRoots roots).1 =
          .ok (callSitesBelow state.world.settings state.world.files roots).length ∧
        state.world.ScanLeaves (callSitesBelow state.world.settings state.world.files roots) now
          (announced.world.scanRoots roots).2 := by
    intro now hnow
    have hclock : announced.world.now = .ok now := by
      rw [SiteWorld.now, huntouched.clock_eq]
      exact hnow
    obtain ⟨hanswer, hafter⟩ :=
      SiteWorld.scanRoots_leaves (hready.of_untouched huntouched) hclock roots
    rw [huntouched.sameCode.settings_eq, huntouched.sameCode.files_eq] at hanswer hafter
    exact ⟨hanswer, hafter.of_untouched_before huntouched⟩
  rw [scan_of_announcedRoots hroots]
  rcases hscanned : announced.world.scanRoots roots with ⟨error | handled, world⟩
  · rw [hscanned] at hsame hleaves
    refine ⟨_, _, rfl, hsame.trans huntouched.sameCode, fun now hnow => ?_⟩
    exact absurd (hleaves now hnow).1 (by rintro ⟨⟩)
  · rw [hscanned] at hsame hleaves
    have hworld := hsame.trans huntouched.sameCode
    let scanned : Hosted ι SiteWorld := { announced with world }
    have hscannedCode : scanned.world.SameCode code := hworld.trans hcode
    obtain ⟨left, after, haction, hafter⟩ :=
      hhost.exists_doAction hscannedCode ScanHook.complete [.int (Int.ofNat handled)]
    refine ⟨.ok handled, after, ?_, hafter.sameCode.trans hworld, fun now hnow => ?_⟩
    · dsimp only
      rw [haction]
      rfl
    · exact ⟨(hleaves now hnow).1, (hleaves now hnow).2.of_untouched hafter⟩

/-! ## Two scans -/

/-- Two sites with the same code and the same registered listeners are scanned with the same outcome, whatever
else their histories have left.  So are a site and what a scan of it and any draining have made of it. -/
theorem scan_ignores_history (hhost : host.IgnoresHistory first.world)
    (hcode : second.world.SameCode first.world)
    (hlisteners : first.dispatcher.listeners = second.dispatcher.listeners)
    (hfirst : first.world.IsReady) (hsecond : second.world.IsReady) (options : ScanOptions) :
    ∃ roots answer after otherAnswer otherAfter,
      let found := callSitesBelow first.world.settings first.world.files roots
      host.scan options first = some (answer, after) ∧
      host.scan options second = some (otherAnswer, otherAfter) ∧
      (∀ now, first.world.now = .ok now → first.world.ScanOutcome found answer after.world) ∧
      (∀ now, second.world.now = .ok now →
        second.world.ScanOutcome found otherAnswer otherAfter.world) ∧
      ∀ now, first.world.now = .ok now →
        after.dispatcher.listeners = first.dispatcher.listeners →
        ∀ steps : List HookCache.Step, (∀ step ∈ steps, step.isQuiet = true) → ∀ clock : Float,
          let again : Hosted ι SiteWorld := { after with
            world := { after.world with cache := HookCache.run steps after.world.cache, clock } }
          ∃ lastAnswer last, host.scan options again = some (lastAnswer, last) ∧
            ∀ now, again.world.now = .ok now →
              again.world.ScanOutcome found lastAnswer last.world := by
  obtain ⟨roots, announced, otherAnnounced, hroots, hotherRoots, hagree⟩ :=
    hhost.exists_announcedRoots (.refl first.world) hcode hlisteners options
  obtain ⟨answer, after, hscan, hafter, hleaves⟩ :=
    hhost.exists_scan (.refl first.world) hfirst hroots hagree.left
  obtain ⟨otherAnswer, otherAfter, hotherScan, -, hotherLeaves⟩ :=
    hhost.exists_scan hcode hsecond hotherRoots hagree.right
  rw [hcode.settings_eq, hcode.files_eq] at hotherLeaves
  refine ⟨roots, answer, after, otherAnswer, otherAfter, hscan, hotherScan, ?_, ?_, ?_⟩
  · intro now hnow
    exact (hleaves now hnow).2.outcome hfirst.hasSchema.cache_eq (hleaves now hnow).1
  · intro now hnow
    exact (hotherLeaves now hnow).2.outcome hsecond.hasSchema.cache_eq (hotherLeaves now hnow).1
  · intro now hnow hsame steps hquiet clock again
    have hagain : again.world.SameCode first.world :=
      ⟨hafter.settings_eq, hafter.files_eq, hafter.scripts_eq, hafter.samplers_eq⟩
    have hready : again.world.IsReady :=
      (hleaves now hnow).2.isReady hfirst.hasSchema.cache_eq hquiet clock
    obtain ⟨againRoots, againAnnounced, lastAnnounced, hsameRoots, hlastRoots, hlastAgree⟩ :=
      hhost.exists_announcedRoots (.refl first.world) hagain hsame.symm options
    have hequal : againRoots = roots := by
      rw [hroots, Option.some.injEq, Prod.mk.injEq] at hsameRoots
      exact hsameRoots.1.symm
    subst hequal
    obtain ⟨lastAnswer, last, hlastScan, -, hlastLeaves⟩ :=
      hhost.exists_scan hagain hready hlastRoots hlastAgree.right
    rw [hagain.settings_eq, hagain.files_eq] at hlastLeaves
    refine ⟨lastAnswer, last, hlastScan, fun now hnow => ?_⟩
    exact (hlastLeaves now hnow).2.outcome hready.hasSchema.cache_eq (hlastLeaves now hnow).1

end Host

namespace ScriptAct

/-- Whether an act dispatches a hook. -/
def dispatches : ScriptAct → Bool
  | .action .. | .filter .. => true
  | _ => false

end ScriptAct

namespace Site

variable {state other : Site}

/-! ## The listeners of a site -/

theorem listeners_add (heq : state.dispatcher.listeners = other.dispatcher.listeners) (hook : Text)
    (listener : ListenerId) (priority : Int) :
    (state.dispatcher.add hook listener priority).listeners =
      (other.dispatcher.add hook listener priority).listeners := by
  rw [Dispatcher.add, Dispatcher.add, Dispatcher.byPriority, Dispatcher.byPriority, heq]

theorem listeners_remove (heq : state.dispatcher.listeners = other.dispatcher.listeners) (hook : Text)
    (listener : ListenerId) (priority : Int) :
    (state.dispatcher.remove hook listener priority).2.listeners =
      (other.dispatcher.remove hook listener priority).2.listeners := by
  rw [Dispatcher.remove, Dispatcher.remove, Dispatcher.byPriority, Dispatcher.byPriority, heq]
  dsimp only
  split
  · rfl
  · exact heq

/-- Acts that dispatch no hook go alike where the same listeners are registered. -/
theorem performActs_alike (host : Host ListenerId Value SiteWorld) {acts : List ScriptAct}
    (hacts : ∀ act ∈ acts, act.dispatches = false) (state other : Site)
    (heq : state.dispatcher.listeners = other.dispatcher.listeners) :
    ∃ finished after otherAfter, performActs host acts state = some (finished, after) ∧
      performActs host acts other = some (finished, otherAfter) ∧
      after.dispatcher.listeners = otherAfter.dispatcher.listeners ∧
      state.world.Untouched after.world ∧ other.world.Untouched otherAfter.world := by
  induction acts generalizing state other with
  | nil => exact ⟨true, state, other, rfl, rfl, heq, .refl _, .refl _⟩
  | cons act acts ih =>
      have hrest : ∀ act ∈ acts, act.dispatches = false :=
        fun act hmem => hacts act (List.mem_cons_of_mem _ hmem)
      cases act with
      | raise => exact ⟨false, state, other, rfl, rfl, heq, .refl _, .refl _⟩
      | add hook listener priority =>
          exact ih hrest ⟨state.dispatcher.add hook (.scripted listener) priority, state.world⟩
            ⟨other.dispatcher.add hook (.scripted listener) priority, other.world⟩
            (listeners_add heq hook (.scripted listener) priority)
      | remove hook listener priority =>
          -- The listener notes whether there was a registration to remove.
          obtain ⟨finished, after, otherAfter, hperform, hother, hafter, hleft, hright⟩ :=
            ih hrest
              ⟨(state.dispatcher.remove hook (.scripted listener) priority).2, state.world.noteEvent
                (.removed (state.dispatcher.remove hook (.scripted listener) priority).1)⟩
              ⟨(other.dispatcher.remove hook (.scripted listener) priority).2, other.world.noteEvent
                (.removed (other.dispatcher.remove hook (.scripted listener) priority).1)⟩
              (listeners_remove heq hook (.scripted listener) priority)
          exact ⟨finished, after, otherAfter, hperform, hother, hafter,
            (SiteWorld.Untouched.noteEvent _ _).trans hleft,
            (SiteWorld.Untouched.noteEvent _ _).trans hright⟩
      | action hook args => cases hacts _ List.mem_cons_self
      | filter hook args => cases hacts _ List.mem_cons_self

theorem callScript_alike (host : Host ListenerId Value SiteWorld) (name : Text) {script : ListenerScript}
    (hacts : ∀ act ∈ script.acts, act.dispatches = false) (args : List Value)
    (heq : state.dispatcher.listeners = other.dispatcher.listeners) :
    ∃ outcome after otherAfter, callScript host name script args state = some (outcome, after) ∧
      callScript host name script args other = some (outcome, otherAfter) ∧
      after.dispatcher.listeners = otherAfter.dispatcher.listeners ∧
      state.world.Untouched after.world ∧ other.world.Untouched otherAfter.world := by
  have hleft := SiteWorld.Untouched.noteEvent (.called name args) state.world
  have hright := SiteWorld.Untouched.noteEvent (.called name args) other.world
  rw [callScript, callScript]
  dsimp only
  split
  · exact ⟨_, _, _, rfl, rfl, heq, hleft, hright⟩
  · obtain ⟨finished, after, otherAfter, hperform, hother, hafter, hleft', hright'⟩ :=
      performActs_alike host hacts (state.mapWorld (·.noteEvent (.called name args)))
        (other.mapWorld (·.noteEvent (.called name args))) heq
    rw [hperform, hother]
    cases finished with
    | false => exact ⟨_, _, _, rfl, rfl, hafter, hleft.trans hleft', hright.trans hright'⟩
    | true => exact ⟨_, _, _, rfl, rfl, hafter, hleft.trans hleft', hright.trans hright'⟩

/-- Where no sampler was made and no script dispatches a hook, the listeners of a site ignore its history. -/
theorem ignoresHistory_callListener {world : SiteWorld} (hsamplers : world.samplers = [])
    (hscripts : ∀ name script, Dispatcher.valueOf? name world.scripts = some script →
      ∀ act ∈ script.acts, act.dispatches = false) (depth : Nat) :
    (hostWith (callListener (depth + 1))).IgnoresHistory world where
  call := by
    intro state other hstate hother heq listener args
    dsimp only [hostWith]
    cases listener with
    | scripted name =>
        dsimp only [callListener]
        rw [hstate.scripts_eq, hother.scripts_eq]
        cases hscript : Dispatcher.valueOf? name world.scripts with
        | none => exact ⟨_, _, _, rfl, rfl, heq, .refl _, .refl _⟩
        | some script => exact callScript_alike _ name (hscripts name script hscript) args heq
    | sampler index =>
        dsimp only [callListener]
        rw [hstate.samplers_eq, hother.samplers_eq, hsamplers]
        exact ⟨_, _, _, rfl, rfl, heq, .refl _, .refl _⟩
  report := by
    intro round world
    exact .noteAll _ world

/-- A tree with a plugin of one file, in which one action is dispatched. -/
def pluginFiles : FileTree :=
  ⟨[("site", .directory [("plugins", .directory [("shop", .directory [
    ("shop.php", .file (.ofBytes ("<?php do_action(\"open\");".toList.map Char.toNat)))])])])]⟩

/-- The script of a listener that keeps the plugins among the roots and registers itself once more. -/
def keepPlugins : ListenerScript where
  arity := some 1
  acts := [.remove ScanHook.roots ScanHook.roots 10, .add ScanHook.roots ScanHook.roots 10]
  rule := .keepType (SourceType.name .plugin)

/-- A site with that plugin and that listener, on a store. -/
def pluginSite (generations : Nat) (store : Store) (scheduler : Scheduler Float DrainTick)
    (chunkSize : Int) : Site where
  dispatcher := Dispatcher.empty.add ScanHook.roots (.scripted ScanHook.roots) 10
  world := {
    settings := singleRecordSettings
    files := pluginFiles
    clock := 0
    cache := HookCache.onStore store scheduler chunkSize 15
    generations := generations
    scripts := [(ScanHook.roots, keepPlugins)]
    samplers := []
    frames := []
    events := []
    notices := [] }

theorem ignoresHistory_pluginSite (generations : Nat) (store : Store)
    (scheduler : Scheduler Float DrainTick) (chunkSize : Int) :
    Site.host.IgnoresHistory (pluginSite generations store scheduler chunkSize).world := by
  refine ignoresHistory_callListener rfl (fun name script hscript act hmem => ?_) 999
  rw [pluginSite, Dispatcher.valueOf?] at hscript
  split at hscript
  · cases hscript
    simp only [keepPlugins, List.mem_cons, List.not_mem_nil, or_false] at hmem
    rcases hmem with rfl | rfl
    · rfl
    · rfl
  · cases hscript

theorem isReady_empty : (pluginSite 0 .empty (.timer none) 1).world.IsReady where
  hasSchema := HookCache.hasSchema_emptyCache
  isFresh := HookCache.isFresh_emptyCache _
  isDraining_eq := rfl

theorem isReady_leftStore :
    (pluginSite 1 leftStore (.manual (some ⟨.drain, 0⟩)) 3).world.IsReady where
  hasSchema := drainable_leftStore.hasSchema
  isFresh := drainable_leftStore.isFresh (allGivenOut_leftChunk 2 (Nat.lt_succ_self 1))
  isDraining_eq := rfl

/-- One site has an empty store.  In the other one an earlier scan has left a chunk, for which a tick is
pending. -/
theorem scan_ignores_history_pluginSite :
    Site.host.IgnoresHistory (pluginSite 0 .empty (.timer none) 1).world ∧
      (pluginSite 0 .empty (.timer none) 1).world.IsReady ∧
      (pluginSite 1 leftStore (.manual (some ⟨.drain, 0⟩)) 3).world.IsReady ∧
      ∃ found answer after otherAnswer otherAfter,
        Site.scan .standard (pluginSite 0 .empty (.timer none) 1) = some (answer, after) ∧
        Site.scan .standard (pluginSite 1 leftStore (.manual (some ⟨.drain, 0⟩)) 3) =
          some (otherAnswer, otherAfter) ∧
        (∀ now, (pluginSite 0 .empty (.timer none) 1).world.now = .ok now →
          (pluginSite 0 .empty (.timer none) 1).world.ScanOutcome found answer after.world) ∧
        (∀ now, (pluginSite 1 leftStore (.manual (some ⟨.drain, 0⟩)) 3).world.now = .ok now →
          (pluginSite 1 leftStore (.manual (some ⟨.drain, 0⟩)) 3).world.ScanOutcome found otherAnswer
            otherAfter.world) := by
  have hhost := ignoresHistory_pluginSite 0 .empty (.timer none) 1
  have hcode : (pluginSite 1 leftStore (.manual (some ⟨.drain, 0⟩)) 3).world.SameCode
      (pluginSite 0 .empty (.timer none) 1).world := ⟨rfl, rfl, rfl, rfl⟩
  obtain ⟨roots, answer, after, otherAnswer, otherAfter, hscan, hother, houtcome, hotherOutcome, -⟩ :=
    Host.scan_ignores_history hhost hcode rfl isReady_empty isReady_leftStore .standard
  exact ⟨hhost, isReady_empty, isReady_leftStore, _, answer, after, otherAnswer, otherAfter, hscan,
    hother, houtcome, hotherOutcome⟩

end Site

end HookAtlas
