/-
# What listeners do to the world

Listeners do few things to the world: what they do and see is noted, a sampler changes its own state, and it
inserts the record of a dispatch, which was observed at run time.  A property of the world that these keep is
kept by every listener, and by every dispatch, however deep dispatches are nested.

Only the insert concerns the cache.  So a property of the cache and of the number of generations that inserting
a record keeps is kept as well.

A scan also replaces the static records; where that keeps the property, every scan does.
-/

import HookAtlas.Proofs.Dispatch.Alike
import HookAtlas.Site.Scan
import Mathlib.Tactic.SplitIfs

namespace HookAtlas

namespace Host

variable {ι : Type} {host : Host ι Value SiteWorld}

/-! ## The steps of a scan -/

namespace Relates

variable {endless : Prop} {related : Hosted ι SiteWorld → Hosted ι SiteWorld → Prop}
  {state other : Hosted ι SiteWorld}

/-- Listeners that go alike choose the same roots. -/
theorem filterRoots (hhost : host.Relates endless related)
    (hnotes : ∀ {state other}, related state other → ∀ notices,
      related (state.mapWorld (·.noteAll notices)) (other.mapWorld (·.noteAll notices)))
    (roots : List (SourceRoot Text)) (hrelated : related state other) :
    Alike endless related (host.filterRoots roots state) (host.filterRoots roots other) := by
  rw [Host.filterRoots, Host.filterRoots]
  rcases hhost.applyFilters ScanHook.roots (.ofRoots roots) [] hrelated with
    ⟨hendless, hnone, hnone'⟩ | ⟨result, after, after', hsome, hsome', hafter⟩
  · rw [hnone, hnone']
    exact .of_none hendless
  · rw [hsome, hsome']
    dsimp only
    split
    · exact .of_some hafter
    · exact .of_some (hnotes hafter _)

theorem announceRoots (hhost : host.Relates endless related) (roots : List (SourceRoot Text))
    (hrelated : related state other) :
    Alike endless related (host.announceRoots roots state) (host.announceRoots roots other) := by
  rw [Host.announceRoots, Host.announceRoots]
  rcases hhost.doAction ScanHook.before [.ofRoots roots] hrelated with
    ⟨hendless, hnone, hnone'⟩ | ⟨args, after, after', hsome, hsome', hafter⟩
  · rw [hnone, hnone']
    exact .of_none hendless
  · rw [hsome, hsome']
    exact .of_some hafter

end Relates

namespace Keeps

variable {property : SiteWorld → Prop} {state after : Hosted ι SiteWorld}
  {roots left : List (SourceRoot Text)}

theorem filterRoots (hhost : host.Keeps property)
    (hnotes : ∀ {world}, property world → ∀ notices, property (world.noteAll notices))
    (hproperty : property state.world) (hsome : host.filterRoots roots state = some (left, after)) :
    property after.world := by
  refine of_alike (hhost.relates.filterRoots ?_ roots ⟨rfl, hproperty⟩) hsome
  rintro state _ ⟨rfl, hproperty⟩ notices
  exact ⟨rfl, hnotes hproperty notices⟩

theorem announceRoots (hhost : host.Keeps property) (hproperty : property state.world)
    (hsome : host.announceRoots roots state = some (left, after)) : property after.world :=
  of_alike (hhost.relates.announceRoots roots ⟨rfl, hproperty⟩) hsome

/-- A scan keeps what its listeners, its notices and the replace of the records keep. -/
theorem scan (hhost : host.Keeps property)
    (hnotes : ∀ {world}, property world → ∀ notices, property (world.noteAll notices))
    (hscan : ∀ {world}, property world → ∀ paths, property (world.scanRoots paths).2)
    {options : ScanOptions} {answer : Except ScanError Nat} (hproperty : property state.world)
    (hsome : host.scan options state = some (answer, after)) : property after.world := by
  rw [Host.scan] at hsome
  split at hsome
  · cases hsome
  · next roots filtered hfilter =>
      have hfiltered := hhost.filterRoots hnotes hproperty hfilter
      split at hsome
      · cases hsome
      · next roots announced hannounce =>
          have hannounced := hhost.announceRoots hfiltered hannounce
          have hscanned := hscan hannounced (roots.map SourceRoot.path)
          split at hsome
          · next world hroots =>
              cases hsome
              rw [hroots] at hscanned
              exact hscanned
          · next world hroots =>
              rw [hroots] at hscanned
              split at hsome
              · cases hsome
              · next hcomplete =>
                  cases hsome
                  refine hhost.doAction ?_ hcomplete
                  exact hscanned

end Keeps

end Host

namespace SiteWorld

/-- What a scan of some roots leaves: its notices where it found no time, and else what replacing the records and
recording the time of the scan leave. -/
theorem scanRoots_keeps {property : SiteWorld → Prop} {world : SiteWorld} {roots : List Path}
    (hstops : ∀ error notices,
      recordsBelow world.settings world.files world.now roots = (.error error, notices) →
        property (world.noteAll notices))
    (hreplace : ∀ records notices,
      recordsBelow world.settings world.files world.now roots = (.ok records, notices) →
        property ((world.noteAll notices).replaceStatic records).2)
    (hrecord : ∀ {world}, property world → property world.recordScanTime.2) :
    property (world.scanRoots roots).2 := by
  rw [scanRoots]
  split
  · next error notices hrecords => exact hstops error notices hrecords
  · next records notices hrecords =>
      have hreplaced := hreplace records notices hrecords
      split
      · next hraised =>
          rw [hraised] at hreplaced
          exact hreplaced
      · next handled after hhandled =>
          rw [hhandled] at hreplaced
          have hrecorded := hrecord hreplaced
          split
          · next htime =>
              rw [htime] at hrecorded
              exact hrecorded
          · next htime =>
              rw [htime] at hrecorded
              exact hrecorded

end SiteWorld

/-- The record of a dispatch was observed at run time. -/
theorem Sampler.detectionMethod_of_recordOf? {sampler : Sampler} {settings : Settings}
    {clock : Except ClockError Timestamp} {hook : Text} {frames : List StackFrame} {record : HookRecord}
    (hrecord : sampler.recordOf? settings clock hook frames = some record) :
    record.detectionMethod = .runtime := by
  rw [recordOf?.eq_def] at hrecord
  split at hrecord
  · cases hrecord
  · cases hrecord
    rfl
  · split at hrecord
    · cases hrecord
      rfl
    · cases hrecord

namespace Site

/-- What listeners do to the world keeps a property. -/
structure KeptByListening (property : SiteWorld → Prop) : Prop where
  noteEvent : ∀ {world}, property world → ∀ event, property (world.noteEvent event)
  noteAll : ∀ {world}, property world → ∀ notices, property (world.noteAll notices)
  setSampler : ∀ {world}, property world → ∀ index sampler, property (world.setSampler index sampler)
  insert : ∀ {world}, property world → ∀ record, record.detectionMethod = .runtime →
    property (world.afterCache (world.cache.insertBatch [record] none))

namespace KeptByListening

variable {property : SiteWorld → Prop} {host : Host ListenerId Value SiteWorld} {site after : Site}
  (hkept : KeptByListening property)

include hkept

/-! ## Scripted listeners -/

theorem performActs (hhost : host.Keeps property) {acts : List ScriptAct} {finished : Bool}
    (hproperty : property site.world)
    (hsome : Site.performActs host acts site = some (finished, after)) : property after.world := by
  induction acts generalizing site with
  | nil =>
      cases hsome
      exact hproperty
  | cons act acts ih =>
      cases act with
      | raise =>
          cases hsome
          exact hproperty
      | add hook listener priority =>
          rw [Site.performActs] at hsome
          refine ih ?_ hsome
          exact hproperty
      | remove hook listener priority =>
          rw [Site.performActs] at hsome
          refine ih ?_ hsome
          exact hkept.noteEvent hproperty _
      | action hook args =>
          rw [Site.performActs] at hsome
          split at hsome
          · cases hsome
          · next haction => exact ih (hhost.doAction hproperty haction) hsome
      | filter hook args =>
          rw [Site.performActs] at hsome
          split at hsome
          · cases hsome
            exact hproperty
          · cases hsome
          · next hfilter =>
              have hfiltered := hhost.applyFiltersToList hproperty hfilter
              refine ih ?_ hsome
              exact hkept.noteEvent hfiltered _

theorem callScript (hhost : host.Keeps property) {name : Text} {script : ListenerScript}
    {args : List Value} {outcome : CallOutcome Value} (hproperty : property site.world)
    (hsome : Site.callScript host name script args site = some (outcome, after)) :
    property after.world := by
  have hnoted := hkept.noteEvent hproperty (.called name args)
  rw [Site.callScript] at hsome
  dsimp only at hsome
  split at hsome
  · cases hsome
    exact hnoted
  · split at hsome
    · cases hsome
    · next hacts =>
        cases hsome
        refine hkept.performActs hhost ?_ hacts
        exact hnoted
    · next hacts =>
        cases hsome
        refine hkept.performActs hhost ?_ hacts
        exact hnoted

/-! ## Samplers -/

theorem setRecording {index : Nat} {isRecording : Bool} {world : SiteWorld}
    (hproperty : property world) : property (world.setRecording index isRecording) := by
  rw [SiteWorld.setRecording]
  split
  · exact hkept.setSampler hproperty _ _
  · exact hproperty

theorem storeSample (hhost : host.Keeps property) {sampler : Sampler} {record : HookRecord}
    {stored : Bool} (hruntime : record.detectionMethod = .runtime) (hproperty : property site.world)
    (hsome : Site.storeSample host sampler record site = some (stored, after)) :
    property after.world := by
  have hinserted := hkept.insert hproperty record hruntime
  rw [Site.storeSample] at hsome
  split at hsome
  · cases hsome
    exact hinserted
  · cases hsome
    exact hinserted
  · split at hsome
    · cases hsome
    · next haction =>
        cases hsome
        refine hhost.doAction ?_ haction
        exact hinserted

theorem recordSample (hhost : host.Keeps property) {index : Nat} {sampler : Sampler} {hook : Value}
    {recorded : Bool} (hproperty : property site.world)
    (hsome : Site.recordSample host index sampler hook site = some (recorded, after)) :
    property after.world := by
  unfold Site.recordSample at hsome
  split at hsome
  · dsimp only at hsome
    split at hsome
    · cases hsome
      exact hproperty
    · next hrecord =>
        split at hsome
        · cases hsome
        · next hstore =>
            cases hsome
            refine hkept.setRecording (hkept.storeSample hhost ?_ ?_ hstore)
            · exact Sampler.detectionMethod_of_recordOf? hrecord
            · exact hkept.setRecording hproperty
  · cases hsome
    exact hproperty

theorem callSampler (hhost : host.Keeps property) {index : Nat} {sampler : Sampler}
    {args : List Value} {outcome : CallOutcome Value} (hproperty : property site.world)
    (hsome : Site.callSampler host index sampler args site = some (outcome, after)) :
    property after.world := by
  cases args with
  | nil =>
      cases hsome
      exact hproperty
  | cons hook args =>
      rw [Site.callSampler] at hsome
      split_ifs at hsome
      · cases hsome
        exact hproperty
      · cases hsome
        exact hproperty
      · cases hsome
        exact hproperty
      · -- The sampler decides whether to record the dispatch.
        have hdecided := hkept.setSampler hproperty index sampler.decide.2
        dsimp only at hsome
        split at hsome
        · cases hsome
          exact hdecided
        · split at hsome
          · cases hsome
          · next hrecord =>
              cases hsome
              refine hkept.recordSample hhost ?_ hrecord
              exact hdecided
          · next hrecord =>
              cases hsome
              refine hkept.recordSample hhost ?_ hrecord
              exact hdecided

/-! ## All listeners -/

/-- Listeners keep such a property, by induction on how deep dispatches may be nested. -/
theorem keeps_callListener (depth : Nat) : (hostWith (callListener depth)).Keeps property := by
  induction depth with
  | zero =>
      refine ⟨?_, fun hproperty _ => hkept.noteAll hproperty _⟩
      intro site hproperty listener args outcome after hsome
      cases hsome
  | succ depth ih =>
      refine ⟨?_, fun hproperty _ => hkept.noteAll hproperty _⟩
      intro site hproperty listener args outcome after hsome
      cases listener with
      | scripted name =>
          dsimp only [hostWith, callListener] at hsome
          split at hsome
          · exact hkept.callScript ih hproperty hsome
          · cases hsome
            exact hproperty
      | sampler index =>
          dsimp only [hostWith, callListener] at hsome
          split at hsome
          · exact hkept.callSampler ih hproperty hsome
          · cases hsome
            exact hproperty

theorem keeps_host : Site.host.Keeps property :=
  hkept.keeps_callListener maxDepth

end KeptByListening

/-! ## Properties of the cache -/

/-- A property of the cache and of the number of generations, as one of the world. -/
def ofCache (property : HookCache → Nat → Prop) (world : SiteWorld) : Prop :=
  property world.cache world.generations

/-- Inserting a record that was observed at run time keeps a property. -/
def KeptByInsert (property : HookCache → Nat → Prop) : Prop :=
  ∀ cache generations record, property cache generations →
    property (cache.insertBatch [record] none).state generations

variable {property : HookCache → Nat → Prop}

/-- Of what listeners do only inserts concern the cache. -/
theorem keptByListening_ofCache (hinsert : KeptByInsert property) :
    KeptByListening (ofCache property) where
  noteEvent := fun hproperty _ => hproperty
  noteAll := fun hproperty _ => hproperty
  setSampler := fun hproperty _ _ => hproperty
  insert := fun hproperty record _ => hinsert _ _ record hproperty

theorem keeps_host (hinsert : KeptByInsert property) : Site.host.Keeps (ofCache property) :=
  (keptByListening_ofCache hinsert).keeps_host

end Site

end HookAtlas
