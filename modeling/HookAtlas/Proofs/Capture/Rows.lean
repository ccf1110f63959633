/-
# The rows of a captured run

A sampler is started on a site, perhaps several times, and listeners that keep their manners dispatch hooks.
Whatever they dispatch, the rows that the run adds are those of the sampled dispatches, in the order in which the
sampler was told of them, and each dispatch that was considered has consumed one draw.

A dispatch has a row because the line column is as wide as the lines of a stack.
-/

import HookAtlas.Proofs.Capture.Accounting
import HookAtlas.Proofs.Site.Attended
import HookAtlas.Site.Capture
import Mathlib.Logic.Function.Iterate

namespace HookAtlas

namespace Site

variable {site : Site} {index : Nat} {sampler : Sampler}
  {registrations : List (Registration ListenerId)}

/-- However often an enabled sampler is started, it is registered once. -/
theorem iterate_startSampler (hregisters : site.dispatcher.Registers registrations)
    (hscripted : ∀ entry ∈ registrations, ∃ name, entry.listener = .scripted name)
    (hsampler : site.world.samplers[index]? = some sampler) (henabled : sampler.isEnabled = true)
    (times : Nat) :
    (fun site => (startSampler index site).2)^[times + 1] site =
      { site with
        dispatcher := site.dispatcher.add Dispatcher.observedByAll (.sampler index) Sampler.priority } := by
  induction times with
  | zero =>
      have hnew : site.dispatcher.hasListener Dispatcher.observedByAll (.sampler index) = false := by
        rw [← Bool.not_eq_true, hregisters.hasListener_iff]
        rintro ⟨entry, hmem, -, hlistener⟩
        obtain ⟨name, hname⟩ := hscripted entry hmem
        rw [hname] at hlistener
        cases hlistener
      simp [startSampler, hsampler, henabled, hnew]
  | succ times ih =>
      have hadded := hregisters.add Dispatcher.observedByAll (.sampler index) Sampler.priority
      have hthere : (site.dispatcher.add Dispatcher.observedByAll (.sampler index)
          Sampler.priority).hasListener Dispatcher.observedByAll (.sampler index) = true := by
        rw [hadded.hasListener_iff]
        exact ⟨_, List.mem_append_right _ List.mem_cons_self, rfl, rfl⟩
      rw [Function.iterate_succ_apply', ih]
      simp [startSampler, hsampler, henabled, hthere]

end Site

namespace Capture

/-- What a run has made of the dispatches, given the sampler and the rows at its start. -/
structure RecordsEachOnce (index : Nat) (sampler : Sampler) (store : Store) (rows : List CacheRow)
    (final : TracedState ListenerId Value SiteWorld) : Prop where
  /-- The sampler was told of every dispatch once, and of the innermost one each time. -/
  unsettled_eq : unsettled index final.world.events = some []
  told_perm : ((told index final.world.events).map Notification.hook).Perm (dispatched final.world.events)
  /-- It has decided once on every dispatch that is no query, and does not record any more. -/
  sampler_eq : final.world.world.samplers[index]? =
    some (sampler.afterDeciding (considered index final.world.events).length)
  isIdle : IsIdle index final.world.world
  /-- Nor did it ever record when a listener was called. -/
  idle : ∀ listener args world, .called listener args world ∈ final.world.events → IsIdle index world
  /-- There is a new row for each sampled dispatch. -/
  rows_eq : ∃ new, final.world.world.cache.store.cache = some (rows ++ new) ∧
    (new.map fun row => row.record.outline) =
      (sampler.sampled (considered index final.world.events)).map (fun notification =>
        (notification.hook, .unknown, .runtime)) ∧
    (new.Pairwise fun row other => row.id < other.id) ∧
    ∀ row ∈ new, store.nextRowId ≤ row.id ∧ row.generation = none

theorem mem_told_of_sampled {index : Nat} {sampler : Sampler} {notification : Notification}
    {events : List (TraceEvent ListenerId Value SiteWorld)}
    (hmem : notification ∈ sampler.sampled (considered index events)) : notification ∈ told index events := by
  obtain ⟨numbered, hnumbered, rfl⟩ := List.mem_map.mp hmem
  have hconsidered := List.fst_mem_of_mem_zipIdx (List.mem_filter.mp hnumbered).1
  exact (List.mem_filter.mp hconsidered).1

theorem Accounts.recordsEachOnce {capture : Capture} {final : TracedState ListenerId Value SiteWorld}
    (haccounted : capture.IsAccounted [] final)
    (hactual : ∀ notification ∈ told capture.index final.world.events, notification.world.isActual = true) :
    RecordsEachOnce capture.index capture.sampler capture.store capture.rows final where
  unsettled_eq := haccounted.unsettled_eq
  told_perm := by simpa using told_perm_dispatched haccounted.unsettled_eq
  sampler_eq := haccounted.sampler_eq
  isIdle := haccounted.isIdle
  idle := haccounted.idle
  rows_eq := by
    obtain ⟨new, hinserts⟩ := haccounted.inserts
    have hnames : ∀ notification ∈ capture.sampler.sampled
        (considered capture.index final.world.events),
        notification.hook ≠ [] ∧ notification.hook.isScalar = true := by
      intro notification hmem
      have hdispatched : notification.hook ∈ dispatched final.world.events := by
        rw [← (told_perm_dispatched haccounted.unsettled_eq).mem_iff, List.append_nil]
        exact List.mem_map_of_mem (mem_told_of_sampled hmem)
      exact (haccounted.allowed _ hdispatched).2
    have hrecordable : (capture.sampler.sampled (considered capture.index final.world.events)).filter
        (Notification.isRecordable capture.sampler) =
          capture.sampler.sampled (considered capture.index final.world.events) := by
      apply List.filter_eq_self.mpr
      intro notification hmem
      exact Notification.isRecordable_of_isActual _ (hactual notification (mem_told_of_sampled hmem))
    refine ⟨new, hinserts.cache_eq, ?_, hinserts.ids_increase, ?_⟩
    · have houtlines := Notification.map_outline_records capture.sampler hnames
      rw [hrecordable] at houtlines
      have hrecords := congrArg (List.map HookRecord.outline) hinserts.record_eq
      rw [List.map_map, List.map_map] at hrecords
      exact hrecords.trans houtlines
    · intro row hmem
      exact ⟨hinserts.nextRowId_le_id row hmem, hinserts.generation_eq row hmem⟩

/-- An enabled sampler that was started accounts for every dispatch once, whatever the listeners of the site
dispatch, in whatever order and depth, and whether they raise: the rows that a run adds are, in the order of
their numbers, those of the sampled dispatches, in the order in which the sampler was told of them. -/
theorem run_recordsEachOnce {site : Site} {registrations : List (Registration ListenerId)}
    (hregisters : site.dispatcher.Registers registrations)
    (hscripted : ∀ entry ∈ registrations, ∃ name, entry.listener = .scripted name)
    {index : Nat} {sampler : Sampler} (hsampler : site.world.samplers[index]? = some sampler)
    (henabled : sampler.isEnabled = true) (hidle : sampler.isRecording = false)
    (hquiet : sampler.dispatchedOnStore = none) {rows : List CacheRow}
    (hcache : site.world.cache.store.cache = some rows)
    {scripts : Text → List Value → Program ListenerId Value SiteWorld}
    (hscripts : ∀ name args, (scripts name args).Obeys (manners index))
    {program : Program ListenerId Value SiteWorld} (hprogram : program.Obeys (manners index))
    (starts depth : Nat) {result : Option Value} {final : TracedState ListenerId Value SiteWorld}
    (hrun : program.run ((listeners scripts).host depth)
      (TracedState.fresh ((fun site => (Site.startSampler index site).2)^[starts + 1] site)) =
        some (result, final))
    (hactual : ∀ notification ∈ told index final.world.events, notification.world.isActual = true) :
    RecordsEachOnce index sampler site.world.cache.store rows final := by
  let capture : Capture := ⟨index, sampler, site.world.cache.store, rows, hidle, hquiet⟩
  rw [Site.iterate_startSampler hregisters hscripted hsampler henabled] at hrun
  have hstart : capture.IsAccounted [] (TracedState.fresh { site with
      dispatcher := site.dispatcher.add Dispatcher.observedByAll (.sampler index) Sampler.priority }) :=
    Accounts.start (hregisters.add Dispatcher.observedByAll (.sampler index) Sampler.priority)
      (ListensOnce.start hscripted) hsampler rfl hcache
  have hkeeps : capture.KeepsAccounts ((listeners scripts).host depth) :=
    .ofDepth hscripts depth
  exact Accounts.recordsEachOnce (hprogram.run_keeps (hkeeps.keep []) hstart hrun) hactual

/-! ## Runs on a site with one sampler -/

/-- A hook that listeners wait for. -/
def saveHook : Text :=
  Text.mark 's'

/-- A site with a sampler, the stack of what it dispatches and a listener that is called when something is
saved. -/
def savingSite (sampler : Sampler) (frames : List StackFrame) : Site where
  dispatcher := Dispatcher.empty.add saveHook (.scripted saveHook) Dispatcher.defaultPriority
  world :=
    { (Site.openOn Site.singleRecordSettings .manual .empty [] 0 0 .empty).world with
      samplers := [sampler]
      frames := frames }

/-- That site when the sampler is started. -/
def startedSite (sampler : Sampler) (frames : List StackFrame) : Site :=
  { savingSite sampler frames with
    dispatcher := (savingSite sampler frames).dispatcher.add Dispatcher.observedByAll (.sampler 0)
      Sampler.priority }

theorem registers_savingSite (sampler : Sampler) (frames : List StackFrame) :
    (savingSite sampler frames).dispatcher.Registers
      [⟨saveHook, Dispatcher.defaultPriority, .scripted saveHook⟩] :=
  Dispatcher.Registers.empty.add saveHook (ListenerId.scripted saveHook) Dispatcher.defaultPriority

theorem scripted_savingSite :
    ∀ entry ∈ [(⟨saveHook, Dispatcher.defaultPriority, .scripted saveHook⟩ : Registration ListenerId)],
      ∃ name, entry.listener = .scripted name := by
  simp

theorem iterate_savingSite (sampler : Sampler) (henabled : sampler.isEnabled = true)
    (frames : List StackFrame) (times : Nat) :
    (fun site => (Site.startSampler 0 site).2)^[times + 1] (savingSite sampler frames) =
      startedSite sampler frames :=
  Site.iterate_startSampler (registers_savingSite sampler frames) scripted_savingSite rfl henabled times

theorem registers_startedSite (sampler : Sampler) (frames : List StackFrame) :
    (startedSite sampler frames).dispatcher.Registers
      [⟨saveHook, Dispatcher.defaultPriority, .scripted saveHook⟩, registration 0] :=
  (registers_savingSite sampler frames).add Dispatcher.observedByAll (ListenerId.sampler 0)
    Sampler.priority

theorem dispatch_saveHook : (manners 0).dispatch saveHook :=
  ⟨by decide, by decide, by decide⟩

theorem dispatch_queryHook : (manners 0).dispatch Sampler.queryHook :=
  ⟨by decide, by decide, by decide⟩

/-- Listeners that dispatch a query and raise. -/
def querying (_ : Text) (_ : List Value) : Program ListenerId Value SiteWorld :=
  .action Sampler.queryHook [] (.finish none)

theorem obeys_querying (name : Text) (args : List Value) : (querying name args).Obeys (manners 0) :=
  .action dispatch_queryHook (.finish none)

/-- Start the sampler once more and save something. -/
def saving : Program ListenerId Value SiteWorld :=
  startAgain 0 (.action saveHook [] (.finish none))

theorem obeys_saving : saving.Obeys (manners 0) :=
  obeys_startAgain (.action dispatch_saveHook (.finish none))

/-- A sampler that records every second dispatch, as it draws. -/
def secondSampler : Sampler where
  isEnabled := true
  sampleEvery := 2
  skippedFiles := []
  draws := [.number 1, .number 2]
  isRecording := false
  dispatchedOnStore := none
  raisesOnStore := false

/-- A stack whose innermost frame is in a known line. -/
def savingFrames : List StackFrame :=
  [⟨.file "/site/main.py", some 12⟩]

/-- A sampler that is started twice and once more in the run, and a listener that dispatches a query and
raises. -/
theorem run_recordsEachOnce_saving :
    (∀ name args, (querying name args).Obeys (manners 0)) ∧ saving.Obeys (manners 0) ∧
      ∃ final, saving.run ((listeners querying).host 3)
          (TracedState.fresh ((fun site => (Site.startSampler 0 site).2)^[1 + 1]
            (savingSite secondSampler savingFrames))) = some (none, final) ∧
        (∀ notification ∈ told 0 final.world.events, notification.world.isActual = true) ∧
        RecordsEachOnce 0 secondSampler .empty [] final := by
  have hruns : ((saving.run ((listeners querying).host 3)
      (TracedState.fresh (startedSite secondSampler savingFrames))).map fun ended =>
        (ended.1.isNone, (told 0 ended.2.world.events).all fun notification => notification.world.isActual)) =
          some (true, true) := by
    decide +kernel
  rw [← iterate_savingSite secondSampler rfl savingFrames 1] at hruns
  obtain ⟨⟨result, final⟩, hrun, hended⟩ := Option.map_eq_some_iff.mp hruns
  obtain ⟨hresult, hall⟩ := Prod.mk.inj hended
  dsimp only at hresult hall
  rw [Option.isNone_iff_eq_none] at hresult
  subst hresult
  have hactual := List.all_eq_true.mp hall
  exact ⟨obeys_querying, obeys_saving, final, hrun, hactual,
    run_recordsEachOnce (registers_savingSite secondSampler savingFrames) scripted_savingSite rfl rfl rfl rfl
      rfl obeys_querying obeys_saving 1 3 hrun hactual⟩

end Capture

end HookAtlas
