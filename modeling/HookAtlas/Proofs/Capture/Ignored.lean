/-
# Hooks that are not sampled

A sampler does nothing when it is told of a dispatch of `all` or `query`.  So the first round of such a
dispatch adds no row, and for `query` that is all, since samplers listen on `all` only.

In a dispatch of `all` the samplers are called again, as listeners of the hook.  Nobody puts the name of the
hook in front of the arguments then, so they take the first argument for the name of a dispatched hook, and
record it like any other.
-/

import HookAtlas.Proofs.Cache.Batch
import HookAtlas.Proofs.Capture.Rows

namespace HookAtlas

/-! ## New rows -/

namespace Store

variable {records more : List HookRecord} {before middle after : Store}

/-- A store has the rows of another one, and behind them rows of some records. -/
def AddsRows (records : List HookRecord) (before after : Store) : Prop :=
  ∃ new, after.standingRows = before.standingRows ++ new ∧
    new.map CacheRow.record = records.map HookRecord.stored

theorem AddsRows.of_eq (hcache : after.cache = before.cache) : AddsRows [] before after :=
  ⟨[], by simp [standingRows, hcache]⟩

theorem AddsRows.append (hfirst : AddsRows records before middle) (hsecond : AddsRows more middle after) :
    AddsRows (records ++ more) before after := by
  obtain ⟨new, hnew, hrecords⟩ := hfirst
  obtain ⟨rest, hrest, hmore⟩ := hsecond
  exact ⟨new ++ rest, by simp [hnew, hrest], by simp [hrecords, hmore]⟩

theorem AddsRows.standingRows_eq_iff (hadds : AddsRows records before after) :
    after.standingRows = before.standingRows ↔ records = [] := by
  obtain ⟨new, hnew, hrecords⟩ := hadds
  have hempty : new = [] ↔ records = [] := by
    rw [← List.map_eq_nil_iff, hrecords, List.map_eq_nil_iff]
  rw [hnew, ← hempty]
  exact List.append_right_eq_self

/-- A batch of one record adds its row, if the record is storable and there is a table. -/
theorem addsRows_insertBatch (record? : Option HookRecord) (generation : Option Text) (store : Store) :
    AddsRows (if store.cache.isSome then record?.toList.filter isStorable else []) store
      (store.insertBatch record?.toList generation).state := by
  cases hcache : store.cache with
  | none =>
      apply AddsRows.of_eq
      cases hfits : fitsBatch record?.toList with
      | true => rw [(insertBatch_of_missing hcache hfits generation).2]
      | false => rw [insertBatch_of_overflow hfits]
  | some rows =>
      obtain ⟨new, hinserts⟩ := insertBatch_toList_inserts hcache record? generation
      exact ⟨new, by simp [standingRows, hcache, hinserts.cache_eq], by simp [hinserts.record_eq]⟩

end Store

namespace Capture

/-! ## What a sampler stores -/

/-- The hook that a sampler takes its first argument to be, unless it is one that is not sampled. -/
def sampledHook? : List Value → Option Text
  | .text hook :: _ => if Sampler.ignoredHooks.contains hook then none else some hook
  | _ => none

/-- The record that a sampler stores when it is called with some arguments in some world, if any. -/
def recordStoredBy? (sampler : Sampler) (world : SiteWorld) (args : List Value) : Option HookRecord :=
  (sampledHook? args).bind fun hook =>
    if !sampler.isRecording && sampler.decide.1 && world.cache.store.cache.isSome then
      (Notification.record? sampler ⟨hook, world⟩).filter Store.isStorable
    else none

/-- The record that a listener stores when it is called.  Only samplers store any. -/
def storedRecord? (listener : ListenerId) (args : List Value) (world : SiteWorld) : Option HookRecord :=
  match listener with
  | .scripted _ => none
  | .sampler index => world.samplers[index]?.bind fun sampler => recordStoredBy? sampler world args

/-- The record of a dispatch bears the name of the hook. -/
theorem hookName_of_record? {sampler : Sampler} {notification : Notification} {record : HookRecord}
    (hrecord : notification.record? sampler = some record) :
    record.hookName = ScalarText.ofText notification.hook := by
  rw [Notification.record?, Sampler.recordOf?.eq_def] at hrecord
  split at hrecord
  · cases hrecord
  · cases hrecord
    rfl
  · split at hrecord
    · cases hrecord
      rfl
    · cases hrecord

@[simp]
theorem sampledHook?_of_mem {hook : Text} (hignored : hook ∈ Sampler.ignoredHooks) (args : List Value) :
    sampledHook? (.text hook :: args) = none := by
  simp [sampledHook?, hignored]

@[simp]
theorem sampledHook?_of_not_mem {hook : Text} (hsampled : hook ∉ Sampler.ignoredHooks) (args : List Value) :
    sampledHook? (.text hook :: args) = some hook := by
  simp [sampledHook?, hsampled]

/-- A listener stores nothing unless it is told of a sampled hook. -/
theorem storedRecord?_eq_none {args : List Value} (hother : sampledHook? args = none)
    (listener : ListenerId) (world : SiteWorld) : storedRecord? listener args world = none := by
  cases listener with
  | scripted name => rfl
  | sampler index => simp [storedRecord?, recordStoredBy?, hother]

/-- A record that is stored bears the name of the hook. -/
theorem hookName_of_storedRecord? {listener : ListenerId} {args : List Value} {world : SiteWorld}
    {record : HookRecord} (hstored : storedRecord? listener args world = some record) :
    ∃ hook, sampledHook? args = some hook ∧ record.hookName = ScalarText.ofText hook := by
  cases listener with
  | scripted name => cases hstored
  | sampler index =>
      rw [storedRecord?, Option.bind_eq_some_iff] at hstored
      obtain ⟨sampler, -, hstored⟩ := hstored
      rw [recordStoredBy?, Option.bind_eq_some_iff] at hstored
      obtain ⟨hook, hhook, hstored⟩ := hstored
      refine ⟨hook, hhook, ?_⟩
      split at hstored
      · rw [Option.filter_eq_some_iff] at hstored
        exact hookName_of_record? hstored.1
      · cases hstored

section Sampler

variable {site : Site} {index : Nat} {sampler : Sampler}

/-- How the call of a sampler ended: it has returned or raised, and a row was added for each of some records. -/
def EndsAdding (index : Nat) (args : List Value) (site : Site) (records : List HookRecord) : Prop :=
  ∃ outcome world,
    Site.callListener 1 (.sampler index) args site = some (outcome, ⟨site.dispatcher, world⟩) ∧
      world.StoresSilently ∧ Store.AddsRows records site.world.cache.store world.cache.store

theorem endsAdding_of_unchanged {outcome : CallOutcome Value} {world : SiteWorld} {args : List Value}
    (hcall : Site.callListener 1 (.sampler index) args site = some (outcome, ⟨site.dispatcher, world⟩))
    (hsilent : world.StoresSilently) (hcache : world.cache = site.world.cache) :
    EndsAdding index args site [] :=
  ⟨outcome, world, hcall, hsilent, Store.AddsRows.of_eq (by rw [hcache])⟩

/-- A sampler that is recording ignores what is dispatched. -/
theorem endsAdding_of_isRecording (hsampler : site.world.samplers[index]? = some sampler)
    (hsilent : site.world.StoresSilently) (hbusy : sampler.isRecording = true) (hook : Value)
    (args : List Value) : EndsAdding index (hook :: args) site [] := by
  have hcall : Site.callListener 1 (.sampler index) (hook :: args) site =
      some (⟨hook :: args, some .null⟩, site) := by
    simp [Site.callListener, hsampler, Site.callSampler, hbusy]
  exact endsAdding_of_unchanged hcall hsilent rfl

/-- A sampler that is called with something that is no hook stores nothing; it may consume a draw. -/
theorem endsAdding_of_ne (hsampler : site.world.samplers[index]? = some sampler)
    (hsilent : site.world.StoresSilently) (hidle : sampler.isRecording = false) {hook : Value}
    (hother : ∀ name, hook ≠ .text name) (args : List Value) : EndsAdding index (hook :: args) site [] := by
  have hsampled : Site.isIgnoredHook hook = false := by
    cases hook with
    | text name => exact absurd rfl (hother name)
    | _ => rfl
  have hrecord (host : Host ListenerId Value SiteWorld) (site : Site) :
      Site.recordSample host index sampler.decide.2 hook site = some (false, site) := by
    cases hook with
    | text name => exact absurd rfl (hother name)
    | _ => rfl
  cases hhashable : hook.isHashable with
  | false =>
      have hcall : Site.callListener 1 (.sampler index) (hook :: args) site =
          some (⟨hook :: args, none⟩, site) := by
        simp [Site.callListener, hsampler, Site.callSampler, hidle, hhashable]
      exact endsAdding_of_unchanged hcall hsilent rfl
  | true =>
      have hcall : Site.callListener 1 (.sampler index) (hook :: args) site =
          some (⟨hook :: args, if sampler.decide.1 then none else some .null⟩,
            ⟨site.dispatcher, site.world.setSampler index sampler.decide.2⟩) := by
        cases hchosen : sampler.decide.1 with
        | false =>
            simp [Site.callListener, hsampler, Site.callSampler, hidle, hhashable, hsampled, hchosen,
              Hosted.mapWorld]
        | true =>
            simp [Site.callListener, hsampler, Site.callSampler, hidle, hhashable, hsampled, hchosen, hrecord,
              Hosted.mapWorld]
      have hquiet : sampler.decide.2.dispatchedOnStore = none := by
        rw [sampler.dispatchedOnStore_decide]
        exact hsilent sampler (List.mem_of_getElem? hsampler)
      exact endsAdding_of_unchanged hcall (hsilent.setSampler index hquiet) rfl

/-- A sampler that is told of a hook adds a row if it chooses the dispatch and its record can be stored. -/
theorem endsAdding_of_sampled (hsampler : site.world.samplers[index]? = some sampler)
    (hsilent : site.world.StoresSilently) (hidle : sampler.isRecording = false) {hook : Text}
    (hsampled : hook ∉ Sampler.ignoredHooks) (args : List Value) :
    EndsAdding index (.text hook :: args) site
      (recordStoredBy? sampler site.world (.text hook :: args)).toList := by
  have hquiet := hsilent sampler (List.mem_of_getElem? hsampler)
  obtain ⟨result, world, hcall, -, hafter, hstore⟩ :=
    Site.callListener_sampler hsampler hidle hquiet hsampled args
  refine ⟨_, world, hcall, hafter hsilent, ?_⟩
  have hadds := Store.addsRows_insertBatch
    (if sampler.decide.1 then Notification.record? sampler ⟨hook, site.world⟩ else none) none
    site.world.cache.store
  rw [← hstore] at hadds
  have hrecords : (recordStoredBy? sampler site.world (.text hook :: args)).toList =
      if site.world.cache.store.cache.isSome then
        (if sampler.decide.1 then Notification.record? sampler ⟨hook, site.world⟩ else none).toList.filter
          Store.isStorable
      else [] := by
    cases hthere : site.world.cache.store.cache.isSome with
    | false => simp [recordStoredBy?, hthere]
    | true =>
        cases hchosen : sampler.decide.1 with
        | false => simp [recordStoredBy?, hchosen]
        | true => simp [recordStoredBy?, hidle, hsampled, hchosen, hthere, Option.toList_filter]
  rw [hrecords]
  exact hadds

/-- Calling a sampler adds the row of the record that it stores, whatever it is called with. -/
theorem endsAdding_sampler (hsilent : site.world.StoresSilently) (index : Nat) (args : List Value) :
    EndsAdding index args site (storedRecord? (.sampler index) args site.world).toList := by
  cases hsampler : site.world.samplers[index]? with
  | none =>
      have hcall : Site.callListener 1 (.sampler index) args site = some (⟨args, none⟩, site) := by
        simp [Site.callListener, hsampler]
      simpa [storedRecord?, hsampler] using endsAdding_of_unchanged hcall hsilent rfl
  | some sampler =>
      simp only [storedRecord?, hsampler, Option.bind_some]
      cases args with
      | nil =>
          have hcall : Site.callListener 1 (.sampler index) [] site = some (⟨[], none⟩, site) := by
            simp [Site.callListener, hsampler, Site.callSampler]
          exact endsAdding_of_unchanged hcall hsilent rfl
      | cons hook args =>
          cases hidle : sampler.isRecording with
          | true =>
              simpa [recordStoredBy?, hidle] using endsAdding_of_isRecording hsampler hsilent hidle hook args
          | false =>
              cases hook with
              | text hook =>
                  by_cases hignored : hook ∈ Sampler.ignoredHooks
                  · obtain ⟨result, hcall⟩ := Site.callListener_sampler_ignored hsampler hignored args
                    simpa [recordStoredBy?, hignored] using endsAdding_of_unchanged hcall hsilent rfl
                  · exact endsAdding_of_sampled hsampler hsilent hidle hignored args
              | _ => exact endsAdding_of_ne hsampler hsilent hidle (by simp) args

end Sampler

/-! ## Quiet listeners -/

/-- The listeners that a hook which is not sampled may have: quiet ones, given by their names, and on `all`
samplers. -/
def MayHear (quiet : Text → Prop) (hook : Text) : ListenerId → Prop
  | .scripted name => quiet name
  | .sampler _ => hook = Dispatcher.observedByAll

/-- What quiet listeners may do.  They dispatch nothing and leave the rows alone, and they register nothing on
a hook that is not sampled but other quiet listeners and, on `all`, samplers.  They may do anything else, to the
samplers, too, as long as storing a record dispatches nothing. -/
def quietManners (quiet : Text → Prop) : Manners ListenerId SiteWorld where
  sees _ := True
  update change := ∀ world, (change world).cache.store.cache = world.cache.store.cache ∧
    (world.StoresSilently → (change world).StoresSilently)
  add hook listener _ := hook ∈ Sampler.ignoredHooks → MayHear quiet hook listener
  remove _ _ _ := True
  dispatch _ := False

/-- The programs of the quiet listeners are quiet. -/
def AreQuiet (quiet : Text → Prop) (scripts : Text → List Value → Program ListenerId Value SiteWorld) :
    Prop :=
  ∀ name, quiet name → ∀ args, (scripts name args).Obeys (quietManners quiet)

/-- Only quiet listeners and samplers hear of the hooks that are not sampled, and storing a record dispatches
nothing. -/
structure IsQuiet (quiet : Text → Prop) (site : Site) : Prop where
  heard : ∃ registrations, site.dispatcher.Registers registrations ∧
    ∀ entry ∈ registrations, entry.hook ∈ Sampler.ignoredHooks → MayHear quiet entry.hook entry.listener
  silent : site.world.StoresSilently

section Quiet

variable {quiet : Text → Prop} {site : Site} {hook : Text} {listener : ListenerId}

theorem IsQuiet.mayHear (hquiet : IsQuiet quiet site) (hignored : hook ∈ Sampler.ignoredHooks)
    (hmem : listener ∈ site.dispatcher.callOrder hook) : MayHear quiet hook listener := by
  obtain ⟨registrations, hregisters, hheard⟩ := hquiet.heard
  rw [hregisters.callOrder_eq, Registration.mem_listenersOn] at hmem
  obtain ⟨entry, hentry, rfl, rfl⟩ := hmem
  exact hheard entry hentry hignored

theorem IsQuiet.countFiring (hquiet : IsQuiet quiet site) (hook : Text) :
    IsQuiet quiet (site.countFiring hook) := by
  obtain ⟨registrations, hregisters, hheard⟩ := hquiet.heard
  exact ⟨⟨registrations, hregisters.countFiring hook, hheard⟩, hquiet.silent⟩

theorem IsQuiet.add (hquiet : IsQuiet quiet site) {priority : Int}
    (hallowed : (quietManners quiet).add hook listener priority) :
    IsQuiet quiet { site with dispatcher := site.dispatcher.add hook listener priority } := by
  obtain ⟨registrations, hregisters, hheard⟩ := hquiet.heard
  refine ⟨⟨_, hregisters.add hook listener priority, ?_⟩, hquiet.silent⟩
  intro entry hmem hignored
  rcases List.mem_append.mp hmem with hmem | hmem
  · exact hheard entry hmem hignored
  · cases List.mem_singleton.mp hmem
    exact hallowed hignored

theorem IsQuiet.remove (hquiet : IsQuiet quiet site) (hook : Text) (listener : ListenerId) (priority : Int) :
    IsQuiet quiet { site with dispatcher := (site.dispatcher.remove hook listener priority).2 } := by
  obtain ⟨registrations, hregisters, hheard⟩ := hquiet.heard
  exact ⟨⟨_, (hregisters.remove hook listener priority).2,
    fun entry hmem => hheard entry (List.mem_of_mem_erase hmem)⟩, hquiet.silent⟩

/-- Quiet programs keep a site quiet, and its rows as they are. -/
theorem keep_isQuiet (quiet : Text → Prop) (table : Option (List CacheRow))
    (host : Host ListenerId Value (Traced ListenerId Value SiteWorld)) :
    (quietManners quiet).Keep host fun state =>
      IsQuiet quiet (TracedState.visible state) ∧ state.world.world.cache.store.cache = table where
  sees _ := trivial
  update {state _} hkept hallowed := by
    obtain ⟨hcache, hsilent⟩ := hallowed state.world.world
    exact ⟨⟨hkept.1.heard, hsilent hkept.1.silent⟩, hcache.trans hkept.2⟩
  add hkept hallowed := ⟨hkept.1.add hallowed, hkept.2⟩
  remove hkept _ := ⟨hkept.1.remove _ _ _, hkept.2⟩
  action _ hallowed := absurd hallowed id
  filter _ hallowed := absurd hallowed id

end Quiet

/-! ## Calls -/

section Calls

variable {quiet : Text → Prop} {scripts : Text → List Value → Program ListenerId Value SiteWorld}
  {hook : Text} {listener : ListenerId} {round : Round} {args left : List Value} {depth : Nat}
  {calls observing acting : List (Call ListenerId Value (Traced ListenerId Value SiteWorld))}
  {state start middle final : TracedState ListenerId Value SiteWorld}

/-- The record that a call stores. -/
def storedInCall? (call : Call ListenerId Value (Traced ListenerId Value SiteWorld)) : Option HookRecord :=
  storedRecord? call.listener call.args call.before.world.world

/-- What some calls make of a quiet site: it stays quiet, and gets the rows of the records that they store. -/
structure KeepsQuiet (quiet : Text → Prop) (records : List HookRecord)
    (before after : TracedState ListenerId Value SiteWorld) : Prop where
  isQuiet : IsQuiet quiet (TracedState.visible after)
  adds : Store.AddsRows records before.world.world.cache.store after.world.world.cache.store

/-- A listener that may hear of a hook which is not sampled answers, and adds the row of what it stores. -/
theorem exists_call (hscripts : AreQuiet quiet scripts)
    (hlistener : MayHear quiet hook listener) (hquiet : IsQuiet quiet (TracedState.visible state))
    (depth : Nat) (args : List Value) :
    ∃ outcome after,
      ((listeners scripts).host (depth + 1)).call listener args state = some (outcome, after) ∧
      KeepsQuiet quiet (storedRecord? listener args state.world.world).toList state after := by
  let called := TracedState.note (.called listener args state.world.world) state
  cases listener with
  | scripted name =>
      have hobeys := hscripts name hlistener args
      obtain ⟨result, after, hrun⟩ :=
        hobeys.run_answers (fun _ => trivial) (fun _ => id) ((listeners scripts).host depth) called
      have hcalled : IsQuiet quiet (TracedState.visible called) ∧
          called.world.world.cache.store.cache = state.world.world.cache.store.cache := ⟨hquiet, rfl⟩
      have hkept := hobeys.run_keeps (keep_isQuiet quiet _ _) hcalled hrun
      refine ⟨⟨args, result⟩, after, ?_, hkept.1, Store.AddsRows.of_eq hkept.2⟩
      rw [Listeners.call_host_succ, program_scripted, hrun]
      rfl
  | sampler index =>
      obtain ⟨outcome, world, hcall, hsilent, hadds⟩ := endsAdding_sampler hquiet.silent index args
      have hrun : (samplerProgram index args).run ((listeners scripts).host depth) called =
          some (outcome.result, TracedState.update (fun _ => world) called) :=
        run_samplerProgram _ called hcall
      refine ⟨⟨args, outcome.result⟩, TracedState.update (fun _ => world) called, ?_,
        ⟨hquiet.heard, hsilent⟩, hadds⟩
      rw [Listeners.call_host_succ, program_sampler, hrun]
      rfl

/-- Reporting a listener that raised changes neither the listeners nor the rows. -/
theorem KeepsQuiet.afterCall {records : List HookRecord} (hkept : KeepsQuiet quiet records start state)
    (scripts : Text → List Value → Program ListenerId Value SiteWorld) (depth : Nat) (round : Round)
    (outcome : CallOutcome Value) :
    KeepsQuiet quiet records start (((listeners scripts).host (depth + 1)).afterCall round outcome state) := by
  rw [Host.afterCall]
  cases outcome.result with
  | some result => exact hkept
  | none => exact ⟨⟨hkept.isQuiet.heard, hkept.isQuiet.silent⟩, hkept.adds⟩

/-- Calls of such listeners add the rows of the records that they store, by induction on the calls. -/
theorem keepsQuiet_inTurn (hscripts : AreQuiet quiet scripts)
    (hturn : Host.InTurn ((listeners scripts).host (depth + 1)) round calls args state left final)
    (hlisteners : ∀ call ∈ calls, MayHear quiet hook call.listener)
    (hquiet : IsQuiet quiet (TracedState.visible state)) :
    KeepsQuiet quiet (calls.filterMap storedInCall?) state final := by
  induction hturn with
  | nil args state => exact ⟨hquiet, Store.AddsRows.of_eq rfl⟩
  | @cons listener args left outcome state after final calls hmade hrest ih =>
      obtain ⟨made, left, hcall, hkept⟩ :=
        exists_call hscripts (hlisteners _ List.mem_cons_self) hquiet depth args
      rw [hmade] at hcall
      cases hcall
      have hnext := hkept.afterCall scripts depth round outcome
      have hothers := ih (fun call hmem => hlisteners call (List.mem_cons_of_mem _ hmem)) hnext.isQuiet
      have hrecords : (⟨listener, args, state, outcome, after⟩ :: calls).filterMap storedInCall? =
          (storedRecord? listener args state.world.world).toList ++ calls.filterMap storedInCall? := by
        cases hstored : storedRecord? listener args state.world.world with
        | none => simp [storedInCall?, hstored]
        | some record => simp [storedInCall?, hstored]
      rw [hrecords]
      exact ⟨hothers.isQuiet, hnext.adds.append hothers.adds⟩

/-- The listeners of a quiet site that hear of a hook which is not sampled all answer. -/
theorem not_unanswered (hscripts : AreQuiet quiet scripts)
    (hignored : hook ∈ Sampler.ignoredHooks) (hquiet : IsQuiet quiet (TracedState.visible state)) :
    ¬ ((listeners scripts).host (depth + 1)).Unanswered round (state.dispatcher.callOrder hook) args
      state := by
  rintro ⟨calls, listener, others, left, final, hlisteners, hturn, hnone⟩
  have hheard : ∀ other ∈ calls.map Call.listener ++ listener :: others, MayHear quiet hook other := by
    rw [← hlisteners]
    intro other hmem
    exact hquiet.mayHear hignored hmem
  have hkept := keepsQuiet_inTurn hscripts hturn
    (fun call hmem => hheard _ (List.mem_append_left _ (List.mem_map_of_mem hmem))) hquiet
  obtain ⟨outcome, after, hcall, -⟩ := exists_call hscripts
    (hheard listener (List.mem_append_right _ List.mem_cons_self)) hkept.isQuiet depth left
  rw [hnone] at hcall
  cases hcall

/-- The calls of a round are those of listeners that may hear of the hook. -/
theorem keepsQuiet_round (hscripts : AreQuiet quiet scripts)
    (hignored : hook ∈ Sampler.ignoredHooks) (hquiet : IsQuiet quiet (TracedState.visible state))
    (hturn : Host.InTurn ((listeners scripts).host (depth + 1)) round calls args state left final)
    (hlisteners : calls.map Call.listener = state.dispatcher.callOrder hook) :
    (∀ call ∈ calls, MayHear quiet hook call.listener) ∧
      KeepsQuiet quiet (calls.filterMap storedInCall?) state final := by
  have hheard : ∀ call ∈ calls, MayHear quiet hook call.listener := by
    intro call hmem
    apply hquiet.mayHear hignored
    show call.listener ∈ state.dispatcher.callOrder hook
    rw [← hlisteners]
    exact List.mem_map_of_mem hmem
  exact ⟨hheard, keepsQuiet_inTurn hscripts hturn hheard hquiet⟩

/-- The first round answers and leaves the site quiet. -/
theorem exists_notifyAll_quiet (hscripts : AreQuiet quiet scripts)
    (hquiet : IsQuiet quiet (TracedState.visible state)) (depth : Nat) (hook : Text) (args : List Value) :
    ∃ middle, ((listeners scripts).host (depth + 1)).notifyAll hook args state = some (args, middle) ∧
      IsQuiet quiet (TracedState.visible middle) := by
  have hall : Dispatcher.observedByAll ∈ Sampler.ignoredHooks := List.mem_cons_self
  cases hnotify : ((listeners scripts).host (depth + 1)).notifyAll hook args state with
  | none => exact absurd (Host.unanswered_notifyAll hnotify) (not_unanswered hscripts hall hquiet)
  | some seen =>
      obtain ⟨seen, middle⟩ := seen
      obtain ⟨rfl, observing, hobservers, -, hobserve⟩ :=
        Host.exists_inTurn_notifyAll ((listeners scripts).passesReferences_host (depth + 1)) hnotify
      obtain ⟨-, hkept⟩ := keepsQuiet_round hscripts hall hquiet hobserve hobservers
      exact ⟨middle, rfl, hkept.isQuiet⟩

/-- An action of a hook that is not sampled answers. -/
theorem doAction_ne_none (hscripts : AreQuiet quiet scripts)
    (hignored : hook ∈ Sampler.ignoredHooks) (hquiet : IsQuiet quiet (TracedState.visible state))
    (depth : Nat) (args : List Value) :
    ((listeners scripts).host (depth + 1)).doAction hook args state ≠ none := by
  have hcounted : IsQuiet quiet (TracedState.visible (state.countFiring hook)) := hquiet.countFiring hook
  obtain ⟨middle, hnotify, hmiddle⟩ := exists_notifyAll_quiet hscripts hcounted depth hook args
  intro hnone
  rw [Host.doAction, ← Hosted.countFiring, hnotify] at hnone
  exact not_unanswered hscripts hignored hmiddle (Host.unanswered_callEach (by decide) hnone)

/-- A filter of a hook that is not sampled answers. -/
theorem applyFilters_ne_none (hscripts : AreQuiet quiet scripts)
    (hignored : hook ∈ Sampler.ignoredHooks) (hquiet : IsQuiet quiet (TracedState.visible state))
    (depth : Nat) (value : Value) (args : List Value) :
    ((listeners scripts).host (depth + 1)).applyFilters hook value args state ≠ none := by
  obtain ⟨middle, hnotify, hmiddle⟩ := exists_notifyAll_quiet hscripts hquiet depth hook (value :: args)
  intro hnone
  rw [Host.applyFilters, hnotify] at hnone
  exact not_unanswered hscripts hignored hmiddle (Host.unanswered_passThrough hnone)

/-! ## Dispatches -/

/-- What a dispatch of a hook that is not sampled leaves, given the calls of its second round. -/
structure AddsInSecondRound (hook : Text)
    (acting : List (Call ListenerId Value (Traced ListenerId Value SiteWorld))) (before after : Store) :
    Prop where
  /-- The new rows are those of the records that these calls store. -/
  adds : Store.AddsRows (acting.filterMap storedInCall?) before after
  /-- They bear the names of sampled hooks, taken from the arguments. -/
  named : ∀ call ∈ acting, ∀ record, storedInCall? call = some record →
    ∃ name, sampledHook? call.args = some name ∧ record.hookName = ScalarText.ofText name
  unchanged_of_unnamed : (∀ call ∈ acting, sampledHook? call.args = none) →
    after.standingRows = before.standingRows
  /-- There are none exactly if the hook is `query` or none of these calls stores a record. -/
  unchanged_iff : after.standingRows = before.standingRows ↔
    hook = Sampler.queryHook ∨ ∀ call ∈ acting, storedInCall? call = none

/-- The first round stores nothing, since samplers ignore the hook.  No sampler is called in the second round of
`query`. -/
theorem addsInSecondRound_of_rounds (hscripts : AreQuiet quiet scripts)
    (hignored : hook ∈ Sampler.ignoredHooks) (hquiet : IsQuiet quiet (TracedState.visible start))
    (hrounds : Host.Rounds ((listeners scripts).host (depth + 1)) round hook args start observing acting middle
      left final) :
    AddsInSecondRound hook acting start.world.world.cache.store final.world.world.cache.store := by
  have hall : Dispatcher.observedByAll ∈ Sampler.ignoredHooks := List.mem_cons_self
  obtain ⟨-, hobserved⟩ :=
    keepsQuiet_round hscripts hall hquiet hrounds.observe hrounds.observe_listeners
  obtain ⟨hheard, hacted⟩ :=
    keepsQuiet_round hscripts hignored hobserved.isQuiet hrounds.act hrounds.act_listeners
  have hnothing : observing.filterMap storedInCall? = [] := by
    apply List.filterMap_eq_nil_iff.mpr
    intro call hmem
    rw [storedInCall?, hrounds.observe_args call hmem]
    exact storedRecord?_eq_none (sampledHook?_of_mem hignored args) _ _
  have hadds := hobserved.adds.append hacted.adds
  rw [hnothing, List.nil_append] at hadds
  have hunchanged := hadds.standingRows_eq_iff
  rw [List.filterMap_eq_nil_iff] at hunchanged
  refine ⟨hadds, fun call _ record => hookName_of_storedRecord?, ?_, ?_⟩
  · intro hunnamed
    apply hunchanged.mpr
    intro call hmem
    exact storedRecord?_eq_none (hunnamed call hmem) _ _
  · rw [hunchanged]
    constructor
    · exact .inr
    · rintro (rfl | hnone)
      · intro call hmem
        have hlistener := hheard call hmem
        cases hcalled : call.listener with
        | scripted name => simp [storedInCall?, hcalled, storedRecord?]
        | sampler index =>
            have hother : Sampler.queryHook ≠ Dispatcher.observedByAll := by decide
            rw [hcalled] at hlistener
            exact absurd hlistener hother
      · exact hnone

/-- A dispatch of `all` or `query` answers, whatever is passed, if its listeners beside samplers dispatch
nothing.  It adds the rows of the records that samplers store in its second round, where they take the first
argument for a hook.  So it adds no row exactly if the hook is `query` or no sampler stores a record then. -/
theorem dispatch_ignored {site : Site} (hquiet : IsQuiet quiet site) (hscripts : AreQuiet quiet scripts)
    (hignored : hook ∈ Sampler.ignoredHooks) (depth : Nat) (value : Value) (args : List Value) :
    (∃ observing acting middle final,
      ((listeners scripts).host (depth + 1)).doAction hook args (TracedState.fresh site) =
        some (args, final) ∧
      Host.Rounds ((listeners scripts).host (depth + 1)) .action hook args
        ((TracedState.fresh site).countFiring hook) observing acting middle args final ∧
      (∀ call ∈ acting, call.args = args) ∧
      AddsInSecondRound hook acting site.world.cache.store final.world.world.cache.store) ∧
    ∃ observing acting middle final,
      ((listeners scripts).host (depth + 1)).applyFilters hook value args (TracedState.fresh site) =
        some (Host.foldedValue value acting, final) ∧
      Host.Rounds ((listeners scripts).host (depth + 1)) .filter hook (value :: args) (TracedState.fresh site)
        observing acting middle (Host.foldedValue value acting :: args) final ∧
      (∀ earlier call later, acting = earlier ++ call :: later →
        call.args = Host.foldedValue value earlier :: args) ∧
      AddsInSecondRound hook acting site.world.cache.store final.world.world.cache.store := by
  have hrefs := (listeners scripts).passesReferences_host (depth + 1)
  let start : TracedState ListenerId Value SiteWorld := TracedState.fresh site
  have hstart : IsQuiet quiet (TracedState.visible start) := hquiet
  constructor
  · rcases Host.doAction_rounds hrefs hook args start with
      ⟨observing, acting, middle, final, hsome, hrounds, hargs⟩ | ⟨hnone, -⟩
    · have hcounted : IsQuiet quiet (TracedState.visible (start.countFiring hook)) := hstart.countFiring hook
      exact ⟨observing, acting, middle, final, hsome, hrounds, hargs,
        addsInSecondRound_of_rounds hscripts hignored hcounted hrounds⟩
    · exact absurd hnone (doAction_ne_none hscripts hignored hstart depth args)
  · rcases Host.applyFilters_rounds hrefs hook value args start with
      ⟨observing, acting, middle, final, hsome, hrounds, hargs⟩ | ⟨hnone, -⟩
    · exact ⟨observing, acting, middle, final, hsome, hrounds, hargs,
        addsInSecondRound_of_rounds hscripts hignored hstart hrounds⟩
    · exact absurd hnone (applyFilters_ne_none hscripts hignored hstart depth value args)

end Calls

/-! ## A site with a sampler -/

/-- A hook that nobody waits for. -/
def otherHook : Text :=
  Text.mark 'h'

/-- A sampler that records every dispatch. -/
def everySampler : Sampler :=
  { secondSampler with sampleEvery := 1 }

/-- Listeners that raise. -/
def raising (_ : Text) (_ : List Value) : Program ListenerId Value SiteWorld :=
  .finish none

theorem isQuiet_startedSite : IsQuiet (fun _ => True) (startedSite everySampler []) := by
  refine ⟨⟨_, registers_startedSite everySampler [], ?_⟩, ?_⟩
  · simp [registration, MayHear]
  · simp [SiteWorld.StoresSilently, startedSite, savingSite, everySampler, secondSampler]

/-- A sampler is started, and a query is dispatched. -/
theorem dispatch_ignored_query :
    IsQuiet (fun _ => True) (startedSite everySampler []) ∧ AreQuiet (fun _ => True) raising ∧
      Sampler.queryHook ∈ Sampler.ignoredHooks ∧
      ∃ final,
        ((listeners raising).host 1).doAction Sampler.queryHook [.text otherHook]
          (TracedState.fresh (startedSite everySampler [])) = some ([.text otherHook], final) ∧
        final.world.world.cache.store.standingRows = [] := by
  have hscripts : AreQuiet (fun _ => True) raising := fun _ _ _ => .finish none
  have hignored : Sampler.queryHook ∈ Sampler.ignoredHooks := by simp [Sampler.ignoredHooks]
  obtain ⟨⟨_, _, _, final, hsome, -, -, hadds⟩, -⟩ :=
    dispatch_ignored isQuiet_startedSite hscripts hignored 0 .null [.text otherHook]
  exact ⟨isQuiet_startedSite, hscripts, hignored, final, hsome, hadds.unchanged_iff.mpr (.inl rfl)⟩

/-- A sampler is started, and `all` is dispatched with the name of another hook.  There is a row of that name
then. -/
theorem doAction_all_recorded :
    ∃ left final,
      Site.doAction Dispatcher.observedByAll [.text otherHook]
        (Site.startSampler 0 (savingSite everySampler [])).2 = some (left, final) ∧
      (savingSite everySampler []).world.cache.store.standingRows = [] ∧
      (final.world.cache.store.standingRows.map fun row => row.record.hookName.text) = [otherHook] := by
  have hnames : (Site.doAction Dispatcher.observedByAll [.text otherHook]
      (Site.startSampler 0 (savingSite everySampler [])).2).map (fun ended =>
        ended.2.world.cache.store.standingRows.map fun row => row.record.hookName.text) =
          some [otherHook] := by
    decide +kernel
  obtain ⟨⟨left, final⟩, hsome, hrows⟩ := Option.map_eq_some_iff.mp hnames
  exact ⟨left, final, hsome, rfl, hrows⟩

end Capture

end HookAtlas
