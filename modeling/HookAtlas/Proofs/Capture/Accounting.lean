/-
# Runtime capture accounts for every dispatch

A sampler listens on `all`, and listeners that do anything but dispatch `all`, write to the cache or meddle with
the sampler dispatch hooks, nested and raising.  Every dispatch is told to the sampler once.  So the rows that a
run adds are those of the sampled dispatches, in the order in which the sampler was told of them.

`Accounts` ties the trace of a run to the sampler and the store.  A dispatch that has begun is pending until the
sampler is told of it, which may be after observers that come first have dispatched other hooks.  Beginning a
dispatch makes it pending, the call of the sampler settles it, and everything else leaves the accounts as they
are.
-/

import HookAtlas.Proofs.Capture.Sampling
import HookAtlas.Proofs.Dispatch.Program
import Mathlib.Data.List.Induction

namespace HookAtlas

/-! ## What a trace says of dispatches -/

/-- The hook of a dispatch that begins. -/
def TraceEvent.begunHook? {ι ν σ : Type} : TraceEvent ι ν σ → Option Text
  | .began _ hook => some hook
  | .called _ _ _ => none

/-- What a sampler is told when it is called. -/
def TraceEvent.notification? (index : Nat) : TraceEvent ListenerId Value SiteWorld → Option Notification
  | .called (.sampler other) (.text hook :: _) world =>
    if other = index then some ⟨hook, world⟩ else none
  | _ => none

/-- The dispatches that a sampler has still to be told of after an event, the innermost first. -/
def TraceEvent.settle (index : Nat) (event : TraceEvent ListenerId Value SiteWorld) (pending : List Text) :
    Option (List Text) :=
  match event.notification? index, pending with
  | none, pending => some (event.begunHook?.toList ++ pending)
  | some notification, hook :: pending => if notification.hook = hook then some pending else none
  | some _, [] => none

/-- The notifications that a sampler chooses, of those it has to decide on. -/
def Sampler.sampled (sampler : Sampler) (notifications : List Notification) : List Notification :=
  (notifications.zipIdx.filter fun numbered => sampler.chooses numbered.2).map Prod.fst

theorem Sampler.sampled_append (sampler : Sampler) (notifications : List Notification)
    (last : Notification) :
    sampler.sampled (notifications ++ [last]) =
      sampler.sampled notifications ++ if sampler.chooses notifications.length then [last] else [] := by
  rw [sampled, List.zipIdx_append, List.filter_append, List.map_append, ← sampled]
  cases hchosen : sampler.chooses notifications.length with
  | true => simp [hchosen]
  | false => simp [hchosen]

/-- A sampler that stores what it records and calls nobody, by its place, and the rows of its store, as a run
starts. -/
structure Capture where
  index : Nat
  sampler : Sampler
  store : Store
  rows : List CacheRow
  isIdle : sampler.isRecording = false
  isQuiet : sampler.dispatchedOnStore = none

namespace Capture

variable {index : Nat}

section Trace

variable (index) (events : List (TraceEvent ListenerId Value SiteWorld))

/-- The hooks of the dispatches that have begun. -/
def dispatched : List Text :=
  events.filterMap TraceEvent.begunHook?

/-- What a sampler was told, in order. -/
def told : List Notification :=
  events.filterMap (TraceEvent.notification? index)

/-- What a sampler had to decide on: a query is never sampled. -/
def considered : List Notification :=
  (told index events).filter fun notification => notification.hook ≠ Sampler.queryHook

/-- The dispatches that a sampler has still to be told of, the innermost first.  It is told of the innermost
one; there is no answer where it was told of any other. -/
def unsettled : Option (List Text) :=
  events.foldlM (fun pending event => event.settle index pending) []

end Trace

section Unsettled

variable {events : List (TraceEvent ListenerId Value SiteWorld)}
  {event : TraceEvent ListenerId Value SiteWorld} {pending : List Text}

theorem dispatched_append :
    dispatched (events ++ [event]) = dispatched events ++ event.begunHook?.toList := by
  cases hbegun : event.begunHook? with
  | none => simp [dispatched, hbegun]
  | some hook => simp [dispatched, hbegun]

theorem told_append_other (hother : event.notification? index = none) :
    told index (events ++ [event]) = told index events := by
  simp [told, hother]

theorem unsettled_append :
    unsettled index (events ++ [event]) = (unsettled index events).bind (event.settle index) := by
  simp [unsettled, List.foldlM_append]

theorem settle_of_other (hother : event.notification? index = none) :
    event.settle index pending = some (event.begunHook?.toList ++ pending) := by
  simp [TraceEvent.settle, hother]

theorem begunHook?_of_notification {notification : Notification}
    (htold : event.notification? index = some notification) : event.begunHook? = none := by
  cases event with
  | began round hook => cases htold
  | called listener args world => rfl

theorem settle_eq_some_iff {notification : Notification} {left : List Text}
    (htold : event.notification? index = some notification) :
    event.settle index pending = some left ↔ pending = notification.hook :: left := by
  cases pending with
  | nil => simp [TraceEvent.settle, htold]
  | cons hook pending => simp [TraceEvent.settle, htold, eq_comm]

/-- Every dispatch that is not pending was told to the sampler, once. -/
theorem told_perm_dispatched (hpending : unsettled index events = some pending) :
    ((told index events).map Notification.hook ++ pending).Perm (dispatched events) := by
  induction events using List.reverseRecOn generalizing pending with
  | nil =>
      cases hpending
      exact .nil
  | append_singleton events event ih =>
      rw [unsettled_append, Option.bind_eq_some_iff] at hpending
      obtain ⟨others, hothers, hsettle⟩ := hpending
      have hperm := ih hothers
      rw [dispatched_append]
      cases htold : event.notification? index with
      | none =>
          rw [settle_of_other htold, Option.some.injEq] at hsettle
          have hmoved : ((told index events).map Notification.hook ++
              (event.begunHook?.toList ++ others)).Perm
              ((told index events).map Notification.hook ++ others ++ event.begunHook?.toList) := by
            rw [List.append_assoc]
            exact List.perm_append_comm.append_left _
          rw [told_append_other htold, ← hsettle]
          exact hmoved.trans (hperm.append_right _)
      | some notification =>
          rw [settle_eq_some_iff htold] at hsettle
          rw [hsettle] at hperm
          simpa [told, htold, begunHook?_of_notification htold] using hperm

end Unsettled

/-! ## Manners -/

/-- Whether a sampler is there and not recording. -/
def IsIdle (index : Nat) (world : SiteWorld) : Prop :=
  world.samplers[index]?.map Sampler.isRecording = some false

/-- The registration of a sampler. -/
def registration (index : Nat) : Registration ListenerId :=
  ⟨Dispatcher.observedByAll, Sampler.priority, .sampler index⟩

/-- What listeners of a captured site may do.  They dispatch hooks other than `all`, and they leave the cache,
the samplers and the registration of the sampler alone.  They find the sampler registered and idle. -/
def manners (index : Nat) : Manners ListenerId SiteWorld where
  sees site :=
    site.dispatcher.hasListener Dispatcher.observedByAll (.sampler index) = true ∧ IsIdle index site.world
  update change := ∀ world, (change world).cache = world.cache ∧ (change world).samplers = world.samplers
  add _ listener _ := ∃ name, listener = .scripted name
  remove hook listener priority := ⟨hook, priority, listener⟩ ≠ registration index
  dispatch hook := hook ≠ Dispatcher.observedByAll ∧ hook ≠ [] ∧ hook.isScalar = true

/-- Start a sampler, as a listener may do. -/
def startAgain (index : Nat) (next : Program ListenerId Value SiteWorld) :
    Program ListenerId Value SiteWorld :=
  .look fun site =>
    if site.dispatcher.hasListener Dispatcher.observedByAll (.sampler index) then next
    else .add Dispatcher.observedByAll (.sampler index) Sampler.priority next

/-- Starting the sampler again registers nothing, so it is allowed. -/
theorem obeys_startAgain {next : Program ListenerId Value SiteWorld} (hnext : next.Obeys (manners index)) :
    (startAgain index next).Obeys (manners index) := by
  apply Program.Obeys.look
  intro site hsees
  rw [if_pos hsees.1]
  exact hnext

/-! ## Listeners -/

/-- What a sampler does when it is called.  It is one step, since recording a dispatch calls nobody. -/
def samplerProgram (index : Nat) (args : List Value) : Program ListenerId Value SiteWorld :=
  .look fun site =>
    match Site.callListener 1 (.sampler index) args site with
    | some (outcome, after) => .update (fun _ => after.world) (.finish outcome.result)
    | none => .finish none

/-- Samplers, and scripted listeners that do anything. -/
def listeners (scripts : Text → List Value → Program ListenerId Value SiteWorld) :
    Listeners ListenerId Value SiteWorld where
  program
    | .scripted name, args => scripts name args
    | .sampler index, args => samplerProgram index args
  report := SiteWorld.reportRaise
  nameValue := .text

@[simp]
theorem program_sampler (scripts : Text → List Value → Program ListenerId Value SiteWorld) (index : Nat)
    (args : List Value) : (listeners scripts).program (.sampler index) args = samplerProgram index args :=
  rfl

@[simp]
theorem program_scripted (scripts : Text → List Value → Program ListenerId Value SiteWorld) (name : Text)
    (args : List Value) : (listeners scripts).program (.scripted name) args = scripts name args :=
  rfl

theorem run_samplerProgram (host : Host ListenerId Value (Traced ListenerId Value SiteWorld))
    (state : TracedState ListenerId Value SiteWorld) {args : List Value} {outcome : CallOutcome Value}
    {after : Site}
    (hcall : Site.callListener 1 (.sampler index) args (TracedState.visible state) = some (outcome, after)) :
    (samplerProgram index args).run host state =
      some (outcome.result, TracedState.update (fun _ => after.world) state) := by
  simp [samplerProgram, Program.run, hcall]

/-- Beside scripted listeners only the sampler is registered, and it is registered once. -/
structure ListensOnce (index : Nat) (registrations : List (Registration ListenerId)) : Prop where
  others : ∀ entry ∈ registrations, entry = registration index ∨ ∃ name, entry.listener = .scripted name
  once : registrations.count (registration index) = 1

namespace ListensOnce

variable {registrations : List (Registration ListenerId)}

theorem start (hscripted : ∀ entry ∈ registrations, ∃ name, entry.listener = .scripted name) :
    ListensOnce index (registrations ++ [registration index]) where
  others := by
    intro entry hmem
    rcases List.mem_append.mp hmem with hmem | hmem
    · exact .inr (hscripted entry hmem)
    · exact .inl (List.mem_singleton.mp hmem)
  once := by
    have hnew : registration index ∉ registrations := by
      intro hmem
      obtain ⟨name, hname⟩ := hscripted _ hmem
      cases hname
    simp [List.count_append, List.count_eq_zero_of_not_mem hnew]

theorem add (honce : ListensOnce index registrations) (hook name : Text) (priority : Int) :
    ListensOnce index (registrations ++ [⟨hook, priority, .scripted name⟩]) where
  others := by
    intro entry hmem
    rcases List.mem_append.mp hmem with hmem | hmem
    · exact honce.others entry hmem
    · rw [List.mem_singleton.mp hmem]
      exact .inr ⟨name, rfl⟩
  once := by
    have hother : registration index ∉ [⟨hook, priority, .scripted name⟩] := by simp [registration]
    rw [List.count_append, honce.once, List.count_eq_zero_of_not_mem hother]

theorem erase (honce : ListensOnce index registrations) {entry : Registration ListenerId}
    (hother : entry ≠ registration index) : ListensOnce index (registrations.erase entry) where
  others other hmem := honce.others other (List.mem_of_mem_erase hmem)
  once := by rw [List.count_erase_of_ne hother.symm, honce.once]

/-- The observers are the sampler, once, and scripted listeners. -/
theorem count_observers (honce : ListensOnce index registrations) :
    (Registration.listenersOn Dispatcher.observedByAll registrations).count (.sampler index) = 1 := by
  rw [(Registration.listenersOn_perm _ _).count_eq, ← honce.once, List.count, List.count, List.countP_map,
    List.countP_filter]
  apply List.countP_congr
  intro entry hmem
  rcases honce.others entry hmem with rfl | ⟨name, hname⟩
  · simp [registration]
  · have hne : entry ≠ registration index := by
      intro heq
      rw [heq] at hname
      cases hname
    simp [hname, hne]

/-- Nothing but the sampler and scripted listeners is ever called. -/
theorem listener_eq (honce : ListensOnce index registrations) {hook : Text} {listener : ListenerId}
    (hmem : listener ∈ Registration.listenersOn hook registrations) :
    (listener = .sampler index ∧ hook = Dispatcher.observedByAll) ∨ ∃ name, listener = .scripted name := by
  obtain ⟨entry, hentry, rfl, rfl⟩ := Registration.mem_listenersOn.mp hmem
  rcases honce.others entry hentry with rfl | hscripted
  · exact .inl ⟨rfl, rfl⟩
  · exact .inr hscripted

end ListensOnce

/-! ## Accounts -/

/-- The trace of a run, the sampler and the store agree, given the hooks of the dispatches that have begun and
that the sampler has not been told of yet. -/
structure Accounts (capture : Capture) (pending : List Text)
    (events : List (TraceEvent ListenerId Value SiteWorld)) (site : Site) : Prop where
  registered : ∃ registrations, site.dispatcher.Registers registrations ∧
    ListensOnce capture.index registrations
  allowed : ∀ hook ∈ dispatched events, (manners capture.index).dispatch hook
  unsettled_eq : unsettled capture.index events = some pending
  /-- The sampler has decided on every dispatch that it was to decide on. -/
  sampler_eq : site.world.samplers[capture.index]? =
    some (capture.sampler.afterDeciding (considered capture.index events).length)
  /-- The records of the sampled dispatches were inserted one after the other. -/
  inserts : ∃ new, Store.Inserts none
    ((capture.sampler.sampled (considered capture.index events)).filterMap
      (Notification.record? capture.sampler))
    capture.rows new capture.store site.world.cache.store
  idle : ∀ listener args world, .called listener args world ∈ events → IsIdle capture.index world

namespace Accounts

variable {capture : Capture} {pending : List Text}
  {events : List (TraceEvent ListenerId Value SiteWorld)} {site : Site}

theorem start {registrations : List (Registration ListenerId)}
    (hregisters : site.dispatcher.Registers registrations)
    (honce : ListensOnce capture.index registrations)
    (hsampler : site.world.samplers[capture.index]? = some capture.sampler)
    (hstore : site.world.cache.store = capture.store) (hcache : capture.store.cache = some capture.rows) :
    Accounts capture [] [] site where
  registered := ⟨registrations, hregisters, honce⟩
  allowed := by simp [dispatched]
  unsettled_eq := rfl
  sampler_eq := by
    rw [hsampler, considered, told, List.filterMap_nil, List.filter_nil, List.length_nil,
      capture.sampler.afterDeciding_zero]
  inserts := by
    rw [hstore]
    exact ⟨[], .nil hcache⟩
  idle := by simp

theorem isIdle (haccounts : Accounts capture pending events site) : IsIdle capture.index site.world := by
  rw [IsIdle, haccounts.sampler_eq]
  exact congrArg some capture.isIdle

/-- A pending dispatch is no dispatch of `all`. -/
theorem pending_ne (haccounts : Accounts capture pending events site) {hook : Text}
    (hmem : hook ∈ pending) : hook ≠ Dispatcher.observedByAll := by
  have hdispatched : hook ∈ dispatched events := by
    rw [← (told_perm_dispatched haccounts.unsettled_eq).mem_iff]
    exact List.mem_append_right _ hmem
  exact (haccounts.allowed hook hdispatched).1

/-- An event that is no notification.  A dispatch is pending when it begins. -/
theorem note (haccounts : Accounts capture pending events site)
    (event : TraceEvent ListenerId Value SiteWorld) (hother : event.notification? capture.index = none)
    (hallowed : ∀ hook ∈ event.begunHook?, (manners capture.index).dispatch hook)
    (hidle : ∀ listener args world, event = .called listener args world → IsIdle capture.index world) :
    Accounts capture (event.begunHook?.toList ++ pending) (events ++ [event]) site := by
  have hconsidered : considered capture.index (events ++ [event]) = considered capture.index events := by
    rw [considered, told_append_other hother, considered]
  refine ⟨haccounts.registered, ?_, ?_, ?_, ?_, ?_⟩
  · intro hook hmem
    rw [dispatched_append, List.mem_append, Option.mem_toList] at hmem
    rcases hmem with hmem | hmem
    · exact haccounts.allowed hook hmem
    · exact hallowed hook hmem
  · rw [unsettled_append, haccounts.unsettled_eq, Option.bind_some, settle_of_other hother]
  · rw [hconsidered]
    exact haccounts.sampler_eq
  · rw [hconsidered]
    exact haccounts.inserts
  · intro listener args world hmem
    rcases List.mem_append.mp hmem with hmem | hmem
    · exact haccounts.idle listener args world hmem
    · exact hidle listener args world (List.mem_singleton.mp hmem).symm

theorem countFiring (haccounts : Accounts capture pending events site) (hook : Text) :
    Accounts capture pending events (site.countFiring hook) := by
  obtain ⟨registrations, hregisters, honce⟩ := haccounts.registered
  exact { haccounts with registered := ⟨registrations, hregisters.countFiring hook, honce⟩ }

theorem add (haccounts : Accounts capture pending events site) (hook name : Text) (priority : Int) :
    Accounts capture pending events
      { site with dispatcher := site.dispatcher.add hook (.scripted name) priority } := by
  obtain ⟨registrations, hregisters, honce⟩ := haccounts.registered
  exact { haccounts with
    registered := ⟨_, hregisters.add hook (.scripted name) priority, honce.add hook name priority⟩ }

theorem remove (haccounts : Accounts capture pending events site) {hook : Text} {listener : ListenerId}
    {priority : Int} (hother : ⟨hook, priority, listener⟩ ≠ registration capture.index) :
    Accounts capture pending events
      { site with dispatcher := (site.dispatcher.remove hook listener priority).2 } := by
  obtain ⟨registrations, hregisters, honce⟩ := haccounts.registered
  exact { haccounts with
    registered := ⟨_, (hregisters.remove hook listener priority).2, honce.erase hother⟩ }

theorem update (haccounts : Accounts capture pending events site) {change : SiteWorld → SiteWorld}
    (hallowed : (manners capture.index).update change) :
    Accounts capture pending events (site.mapWorld change) := by
  obtain ⟨hcache, hsamplers⟩ := hallowed site.world
  refine ⟨haccounts.registered, haccounts.allowed, haccounts.unsettled_eq, ?_, ?_, haccounts.idle⟩
  · rw [← haccounts.sampler_eq]
    exact congrArg (·[capture.index]?) hsamplers
  · obtain ⟨new, hinserts⟩ := haccounts.inserts
    rw [← hcache] at hinserts
    exact ⟨new, hinserts⟩

/-- What the sampler makes of a dispatch settles it. -/
theorem settle {hook : Text} (haccounts : Accounts capture (hook :: pending) events site)
    {args : List Value} {world : SiteWorld}
    (hsampler : world.samplers[capture.index]? = some (capture.sampler.afterDeciding
      (considered capture.index
        (events ++ [.called (.sampler capture.index) (.text hook :: args) site.world])).length))
    (hinserts : ∃ new, Store.Inserts none
      ((capture.sampler.sampled (considered capture.index
        (events ++ [.called (.sampler capture.index) (.text hook :: args) site.world]))).filterMap
          (Notification.record? capture.sampler))
      capture.rows new capture.store world.cache.store) :
    Accounts capture pending
      (events ++ [.called (.sampler capture.index) (.text hook :: args) site.world])
      ⟨site.dispatcher, world⟩ := by
  have hdispatched : dispatched
      (events ++ [.called (.sampler capture.index) (.text hook :: args) site.world]) =
        dispatched events := by
    simp [dispatched, TraceEvent.begunHook?]
  refine ⟨haccounts.registered, ?_, ?_, hsampler, hinserts, ?_⟩
  · rw [hdispatched]
    exact haccounts.allowed
  · rw [unsettled_append, haccounts.unsettled_eq, Option.bind_some]
    simp [TraceEvent.settle, TraceEvent.notification?]
  · intro listener others told hmem
    rcases List.mem_append.mp hmem with hmem | hmem
    · exact haccounts.idle listener others told hmem
    · cases List.mem_singleton.mp hmem
      exact haccounts.isIdle

/-- The call of the sampler settles a dispatch. -/
theorem calledSampler {hook : Text} (haccounts : Accounts capture (hook :: pending) events site)
    (args : List Value) :
    ∃ outcome world,
      Site.callListener 1 (.sampler capture.index) (.text hook :: args) site =
        some (outcome, ⟨site.dispatcher, world⟩) ∧
      Accounts capture pending
        (events ++ [.called (.sampler capture.index) (.text hook :: args) site.world])
        ⟨site.dispatcher, world⟩ := by
  have hall : hook ≠ Dispatcher.observedByAll := haccounts.pending_ne List.mem_cons_self
  have hconsidered : considered capture.index
      (events ++ [.called (.sampler capture.index) (.text hook :: args) site.world]) =
        considered capture.index events ++ if hook = Sampler.queryHook then [] else [⟨hook, site.world⟩] := by
    by_cases hquery : hook = Sampler.queryHook
    · simp [considered, told, TraceEvent.notification?, hquery]
    · simp [considered, told, TraceEvent.notification?, hquery]
  by_cases hquery : hook = Sampler.queryHook
  · have hignored : hook ∈ Sampler.ignoredHooks := by simp [Sampler.ignoredHooks, hquery]
    obtain ⟨result, hcall⟩ := Site.callListener_sampler_ignored haccounts.sampler_eq hignored args
    rw [if_pos hquery, List.append_nil] at hconsidered
    refine ⟨_, site.world, hcall, haccounts.settle ?_ ?_⟩
    · rw [hconsidered]
      exact haccounts.sampler_eq
    · rw [hconsidered]
      exact haccounts.inserts
  · have hsampled : hook ∉ Sampler.ignoredHooks := by simp [Sampler.ignoredHooks, hquery, hall]
    obtain ⟨result, world, hcall, hsampler, -, hstore⟩ :=
      Site.callListener_sampler haccounts.sampler_eq capture.isIdle capture.isQuiet hsampled args
    rw [Sampler.decide_afterDeciding] at hsampler hstore
    rw [if_neg hquery] at hconsidered
    refine ⟨_, world, hcall, haccounts.settle ?_ ?_⟩
    · rw [hconsidered, List.length_append]
      exact hsampler
    · obtain ⟨new, hinserts⟩ := haccounts.inserts
      obtain ⟨more, hmore⟩ := Store.insertBatch_toList_inserts hinserts.cache_eq
        (if capture.sampler.chooses (considered capture.index events).length then
          Notification.record? capture.sampler ⟨hook, site.world⟩
        else none) none
      have hrecords : (if capture.sampler.chooses (considered capture.index events).length then
            [(⟨hook, site.world⟩ : Notification)]
          else []).filterMap (Notification.record? capture.sampler) =
            (if capture.sampler.chooses (considered capture.index events).length then
              Notification.record? capture.sampler ⟨hook, site.world⟩
            else none).toList := by
        split
        · cases hrecord : Notification.record? capture.sampler ⟨hook, site.world⟩ with
          | none => simp [hrecord]
          | some record => simp [hrecord]
        · rfl
      rw [hconsidered, Sampler.sampled_append, List.filterMap_append, hrecords, hstore]
      exact ⟨new ++ more, hinserts.append hmore⟩

end Accounts

/-! ## Runs -/

/-- The accounts of a run so far. -/
def IsAccounted (capture : Capture) (pending : List Text)
    (state : TracedState ListenerId Value SiteWorld) : Prop :=
  Accounts capture pending state.world.events (TracedState.visible state)

namespace IsAccounted

variable {capture : Capture} {pending : List Text} {hook : Text}
  {state : TracedState ListenerId Value SiteWorld}

/-- A dispatch that begins is pending. -/
theorem began (haccounted : capture.IsAccounted pending state) (round : Round)
    (hallowed : (manners capture.index).dispatch hook) :
    capture.IsAccounted (hook :: pending) (TracedState.note (.began round hook) state) := by
  apply haccounted.note (.began round hook) rfl
  · simpa [TraceEvent.begunHook?] using hallowed
  · simp

theorem beganAction (haccounted : capture.IsAccounted pending state)
    (hallowed : (manners capture.index).dispatch hook) :
    capture.IsAccounted (hook :: pending)
      (Hosted.countFiring hook (TracedState.note (.began .action hook) state)) :=
  (haccounted.began .action hallowed).countFiring hook

/-- A scripted listener that is called finds the sampler idle. -/
theorem calledScript (haccounted : capture.IsAccounted pending state) (name : Text) (args : List Value) :
    capture.IsAccounted pending
      (TracedState.note (.called (.scripted name) args state.world.world) state) := by
  apply haccounted.note (.called (.scripted name) args state.world.world) rfl
  · simp [TraceEvent.begunHook?]
  · rintro listener others world ⟨⟩
    exact haccounted.isIdle

theorem report_host (scripts : Text → List Value → Program ListenerId Value SiteWorld) (depth : Nat)
    (round : Round) (haccounted : capture.IsAccounted pending state) :
    capture.IsAccounted pending (state.mapWorld (((listeners scripts).host depth).report round)) := by
  have hallowed : (manners capture.index).update (SiteWorld.reportRaise round) := fun _ => ⟨rfl, rfl⟩
  cases depth with
  | zero => exact haccounted.update hallowed
  | succ depth => exact haccounted.update hallowed

/-- A call of the sampler has an answer and settles a dispatch. -/
theorem exists_call_sampler (haccounted : capture.IsAccounted (hook :: pending) state)
    (scripts : Text → List Value → Program ListenerId Value SiteWorld) (depth : Nat)
    (args : List Value) :
    ∃ result after,
      ((listeners scripts).host (depth + 1)).call (.sampler capture.index) (.text hook :: args) state =
        some (⟨.text hook :: args, result⟩, after) ∧
      after.dispatcher = state.dispatcher ∧
      after.world.events = state.world.events ++
        [.called (.sampler capture.index) (.text hook :: args) state.world.world] ∧
      capture.IsAccounted pending after := by
  obtain ⟨outcome, world, hcalled, hsettled⟩ := haccounted.calledSampler args
  let told := TracedState.note
    (.called (.sampler capture.index) (.text hook :: args) state.world.world) state
  let settled := TracedState.update (fun _ => world) told
  have hruns : (samplerProgram capture.index (.text hook :: args)).run ((listeners scripts).host depth)
      told = some (outcome.result, settled) := run_samplerProgram _ told hcalled
  refine ⟨outcome.result, settled, ?_, rfl, rfl, hsettled⟩
  rw [Listeners.call_host_succ, program_sampler, hruns]
  rfl

end IsAccounted

/-- A call of the sampler settles a dispatch, and a call of a scripted listener leaves the accounts in order. -/
structure KeepsAccounts (capture : Capture)
    (host : Host ListenerId Value (Traced ListenerId Value SiteWorld)) : Prop where
  passesReferences : host.PassesReferences
  nameValue_eq : host.nameValue = .text
  script : ∀ {pending name args state outcome after}, capture.IsAccounted pending state →
    host.call (.scripted name) args state = some (outcome, after) → capture.IsAccounted pending after
  sampler : ∀ {pending hook args state outcome after}, capture.IsAccounted (hook :: pending) state →
    host.call (.sampler capture.index) (.text hook :: args) state = some (outcome, after) →
    capture.IsAccounted pending after
  report : ∀ {pending state} round, capture.IsAccounted pending state →
    capture.IsAccounted pending (state.mapWorld (host.report round))

namespace KeepsAccounts

variable {capture : Capture} {host : Host ListenerId Value (Traced ListenerId Value SiteWorld)}
  {pending : List Text} {hook : Text} {round : Round} {args left : List Value}
  {calls observing acting : List (Call ListenerId Value (Traced ListenerId Value SiteWorld))}
  {state middle final : TracedState ListenerId Value SiteWorld}

theorem afterCall (hkeeps : capture.KeepsAccounts host) (round : Round) (outcome : CallOutcome Value)
    (haccounted : capture.IsAccounted pending state) :
    capture.IsAccounted pending (host.afterCall round outcome state) := by
  rw [Host.afterCall]
  split
  · exact haccounted
  · exact hkeeps.report round haccounted

/-- Each call of the sampler in a round settles a dispatch. -/
theorem inTurn (hkeeps : capture.KeepsAccounts host) (hook : Text)
    (hturn : Host.InTurn host round calls args state left final)
    (hcalls : ∀ call ∈ calls,
      (call.listener = .sampler capture.index ∧ ∃ rest, call.args = .text hook :: rest) ∨
        ∃ name, call.listener = .scripted name)
    (haccounted : capture.IsAccounted
      (List.replicate ((calls.map Call.listener).count (.sampler capture.index)) hook ++ pending) state) :
    capture.IsAccounted pending final := by
  induction hturn with
  | nil args state => simpa using haccounted
  | cons hmade _ ih =>
      apply ih (fun call hmem => hcalls call (List.mem_cons_of_mem _ hmem))
      apply hkeeps.afterCall
      rcases hcalls _ List.mem_cons_self with ⟨hlistener, rest, hargs⟩ | ⟨name, hlistener⟩
      · dsimp only at hlistener hargs
        subst hlistener hargs
        rw [List.map_cons, List.count_cons_self, List.replicate_succ] at haccounted
        exact hkeeps.sampler haccounted hmade
      · dsimp only at hlistener
        subst hlistener
        rw [List.map_cons, List.count_cons_of_ne (by simp)] at haccounted
        exact hkeeps.script haccounted hmade

/-- A dispatch tells the sampler of itself, once, before the listeners of the hook are called. -/
theorem rounds (hkeeps : capture.KeepsAccounts host)
    (hrounds : Host.Rounds host round hook args state observing acting middle left final)
    (haccounted : capture.IsAccounted (hook :: pending) state) : capture.IsAccounted pending final := by
  obtain ⟨registrations, hregisters, honce⟩ := haccounted.registered
  have hobservers : observing.map Call.listener =
      Registration.listenersOn Dispatcher.observedByAll registrations := by
    rw [hrounds.observe_listeners]
    exact hregisters.callOrder_eq _
  have hmiddle : capture.IsAccounted pending middle := by
    apply hkeeps.inTurn hook hrounds.observe
    · intro call hmem
      have hlistener : call.listener ∈ observing.map Call.listener := List.mem_map_of_mem hmem
      rw [hobservers] at hlistener
      rcases honce.listener_eq hlistener with ⟨heq, -⟩ | hscripted
      · rw [hrounds.observe_args call hmem, hkeeps.nameValue_eq]
        exact .inl ⟨heq, args, rfl⟩
      · exact .inr hscripted
    · rw [hobservers, honce.count_observers]
      exact haccounted
  have hall : hook ≠ Dispatcher.observedByAll := haccounted.pending_ne List.mem_cons_self
  obtain ⟨others, hregisters', honce'⟩ := hmiddle.registered
  have hacting : ∀ call ∈ acting, ∃ name, call.listener = .scripted name := by
    intro call hmem
    have hlistener : call.listener ∈ acting.map Call.listener := List.mem_map_of_mem hmem
    rw [hrounds.act_listeners] at hlistener
    rw [show middle.dispatcher.callOrder hook = _ from hregisters'.callOrder_eq hook] at hlistener
    rcases honce'.listener_eq hlistener with ⟨-, heq⟩ | hscripted
    · exact absurd heq hall
    · exact hscripted
  apply hkeeps.inTurn hook hrounds.act
  · intro call hmem
    exact .inr (hacting call hmem)
  · have hnone : (acting.map Call.listener).count (.sampler capture.index) = 0 := by
      apply List.count_eq_zero_of_not_mem
      intro hmem
      obtain ⟨call, hcall, heq⟩ := List.mem_map.mp hmem
      obtain ⟨name, hname⟩ := hacting call hcall
      rw [hname] at heq
      cases heq
    rw [hnone]
    exact hmiddle

/-- Every step that is allowed leaves the accounts in order. -/
theorem keep (hkeeps : capture.KeepsAccounts host) (pending : List Text) :
    (manners capture.index).Keep host (capture.IsAccounted pending) where
  sees := by
    intro state haccounted
    obtain ⟨registrations, hregisters, honce⟩ := haccounted.registered
    refine ⟨?_, haccounted.isIdle⟩
    rw [hregisters.hasListener_iff]
    have hmem : registration capture.index ∈ registrations := by
      rw [← List.count_pos_iff, honce.once]
      exact Nat.one_pos
    exact ⟨_, hmem, rfl, rfl⟩
  update haccounted hallowed := haccounted.update hallowed
  add := by
    rintro state hook listener priority haccounted ⟨name, rfl⟩
    exact haccounted.add hook name priority
  remove haccounted hallowed := haccounted.remove hallowed
  action := by
    intro state hook args left after haccounted hallowed hsome
    obtain ⟨observing, acting, middle, hrounds⟩ :=
      Host.rounds_of_doAction hkeeps.passesReferences hsome
    exact hkeeps.rounds hrounds (haccounted.beganAction hallowed)
  filter := by
    intro state hook value args result after haccounted hallowed hsome
    obtain ⟨observing, acting, middle, hrounds⟩ :=
      Host.rounds_of_applyFilters hkeeps.passesReferences hsome
    exact hkeeps.rounds hrounds (haccounted.began .filter hallowed)

/-- Listeners that keep their manners leave the accounts in order, by induction on how deep dispatches may be
nested. -/
theorem ofDepth {scripts : Text → List Value → Program ListenerId Value SiteWorld}
    (hscripts : ∀ name args, (scripts name args).Obeys (manners capture.index)) (depth : Nat) :
    capture.KeepsAccounts ((listeners scripts).host depth) := by
  induction depth with
  | zero =>
      refine ⟨(listeners scripts).passesReferences_host 0, rfl, ?_, ?_, .report_host scripts 0⟩
      · intro pending name args state outcome after _ hcall
        cases hcall
      · intro pending hook args state outcome after _ hcall
        cases hcall
  | succ depth ih =>
      refine ⟨(listeners scripts).passesReferences_host (depth + 1), rfl, ?_, ?_,
        .report_host scripts (depth + 1)⟩
      · intro pending name args state outcome after haccounted hcall
        obtain ⟨⟨result, ended⟩, hrun, hended⟩ := Option.map_eq_some_iff.mp hcall
        cases hended
        exact (hscripts name args).run_keeps (ih.keep pending) (haccounted.calledScript name args) hrun
      · intro pending hook args state outcome after haccounted hcall
        obtain ⟨result, settled, hsome, -, -, hsettled⟩ := haccounted.exists_call_sampler scripts depth args
        rw [hsome] at hcall
        cases hcall
        exact hsettled

end KeepsAccounts

end Capture

end HookAtlas
