/-
# A dispatch calls whom it found

Whatever listeners do, an action or a filter calls the listeners that are registered when a round begins: each
registration once, in the order of the priorities, and for one priority in the order of registration.  What
they register, remove or dispatch, and whether they raise, makes no difference to the round they are part of.

The count of an action goes up when the action begins, and at no other time.  So after any run it has gone up
by the number of its dispatches, nested ones and those with failing listeners included.
-/

import HookAtlas.Proofs.Dispatch.Program
import Mathlib.Data.List.Permutation

namespace HookAtlas

variable {ι ν σ : Type}

/-- Whether an event is the beginning of a certain action. -/
def TraceEvent.beginsAction (hook : Text) : TraceEvent ι ν σ → Bool
  | .began .action other => other = hook
  | _ => false

namespace Dispatcher

theorem firedCount_countFiring (dispatcher : Dispatcher ι) (hook other : Text) :
    (dispatcher.countFiring hook).firedCount other =
      dispatcher.firedCount other + if hook = other then 1 else 0 := by
  simp only [firedCount, countFiring, valueOf?_setValue]
  by_cases hsame : other = hook
  · simp [hsame]
  · simp [hsame, Ne.symm hsame]

theorem firedCount_remove [DecidableEq ι] (dispatcher : Dispatcher ι) (hook : Text) (listener : ι)
    (priority : Int) (other : Text) :
    (dispatcher.remove hook listener priority).2.firedCount other = dispatcher.firedCount other := by
  rw [remove]
  dsimp only
  split
  · rfl
  · rfl

end Dispatcher

namespace TracedState

variable {start state : TracedState ι ν σ}

/-- The registry is in order, and since a start each count of an action has gone up by the number of its
dispatches. -/
structure CountsSince (start state : TracedState ι ν σ) : Prop where
  registers : ∃ registrations, state.dispatcher.Registers registrations
  counts : ∃ new, state.world.events = start.world.events ++ new ∧
    ∀ hook, state.dispatcher.firedCount hook =
      start.dispatcher.firedCount hook + new.countP (TraceEvent.beginsAction hook)

namespace CountsSince

theorem refl {registrations : List (Registration ι)}
    (hregisters : start.dispatcher.Registers registrations) : CountsSince start start :=
  ⟨⟨registrations, hregisters⟩, [], by simp, by simp⟩

/-- An event that begins no action. -/
theorem note (hcounts : CountsSince start state) (event : TraceEvent ι ν σ)
    (hevent : ∀ hook, event.beginsAction hook = false) : CountsSince start (state.note event) := by
  obtain ⟨hregisters, new, hevents, hfired⟩ := hcounts
  refine ⟨hregisters, new ++ [event], ?_, ?_⟩
  · simp [TracedState.note, Hosted.mapWorld, hevents]
  · intro hook
    simpa [TracedState.note, Hosted.mapWorld, hevent hook] using hfired hook

/-- An action begins: it is noted and counted. -/
theorem begin (hcounts : CountsSince start state) (hook : Text) :
    CountsSince start ((state.note (.began .action hook)).countFiring hook) := by
  obtain ⟨⟨registrations, hregisters⟩, new, hevents, hfired⟩ := hcounts
  refine ⟨⟨registrations, hregisters.countFiring hook⟩, new ++ [.began .action hook], ?_, ?_⟩
  · simp [TracedState.note, Hosted.mapWorld, Hosted.countFiring, hevents]
  · intro other
    have hold := hfired other
    simp only [TracedState.note, Hosted.mapWorld, Hosted.countFiring,
      Dispatcher.firedCount_countFiring, List.countP_append, List.countP_singleton,
      TraceEvent.beginsAction, decide_eq_true_eq]
    omega

theorem update (hcounts : CountsSince start state) (change : σ → σ) :
    CountsSince start (state.update change) :=
  ⟨hcounts.registers, hcounts.counts⟩

theorem add (hcounts : CountsSince start state) (hook : Text) (listener : ι) (priority : Int) :
    CountsSince start { state with dispatcher := state.dispatcher.add hook listener priority } := by
  obtain ⟨⟨registrations, hregisters⟩, hfired⟩ := hcounts
  exact ⟨⟨_, hregisters.add hook listener priority⟩, hfired⟩

theorem remove [DecidableEq ι] (hcounts : CountsSince start state) (hook : Text) (listener : ι) (priority : Int) :
    CountsSince start
      { state with dispatcher := (state.dispatcher.remove hook listener priority).2 } := by
  obtain ⟨⟨registrations, hregisters⟩, new, hevents, hfired⟩ := hcounts
  refine ⟨⟨_, (hregisters.remove hook listener priority).2⟩, new, hevents, ?_⟩
  intro other
  rw [Dispatcher.firedCount_remove]
  exact hfired other

end CountsSince

end TracedState

namespace Listeners

open TracedState (CountsSince)

variable [DecidableEq ι] {listeners : Listeners ι ν σ} {start state : TracedState ι ν σ}
  {host : Host ι ν (Traced ι ν σ)}

/-- If calls keep the counts right, so does every step of a program. -/
theorem keep_countsSince (hrefs : host.PassesReferences)
    (hkeeps : host.KeepsState (CountsSince start)) :
    (Manners.free : Manners ι σ).Keep host (CountsSince start) where
  sees _ := trivial
  update hcounts _ := hcounts.update _
  add hcounts _ := hcounts.add _ _ _
  remove hcounts _ := hcounts.remove _ _ _
  action hcounts _ hsome := hkeeps.doAction hrefs (hcounts.begin _) hsome
  filter hcounts _ hsome := hkeeps.applyFilters hrefs (hcounts.note _ fun _ => rfl) hsome

/-- Calls keep the counts right, by induction on how deep dispatches may be nested. -/
theorem keepsState_host (listeners : Listeners ι ν σ) (start : TracedState ι ν σ) (depth : Nat) :
    (listeners.host depth).KeepsState (CountsSince start) := by
  induction depth with
  | zero =>
      constructor
      · intro listener args state outcome after _ hcall
        cases hcall
      · intro state round hcounts
        exact hcounts.update _
  | succ depth ih =>
      constructor
      · intro listener args state outcome after hcounts hcall
        obtain ⟨⟨result, ended⟩, hrun, hended⟩ := Option.map_eq_some_iff.mp hcall
        cases hended
        have hnoted := hcounts.note (.called listener args state.world.world) fun _ => rfl
        have hkeep := keep_countsSince (listeners.passesReferences_host depth) ih
        exact (Program.obeys_free _).run_keeps hkeep hnoted hrun
      · intro state round hcounts
        exact hcounts.update _

/-- An action calls the listeners that are registered when each of its rounds begins. -/
theorem doAction_snapshots (listeners : Listeners ι ν σ) (depth : Nat)
    {registrations : List (Registration ι)} (hregisters : start.dispatcher.Registers registrations)
    (hook : Text) (args : List ν) :
    (∃ observing acting middle others final,
      (listeners.host depth).doAction hook args start = some (args, final) ∧
      Host.Rounds (listeners.host depth) .action hook args (start.countFiring hook) observing acting
        middle args final ∧
      observing.map Call.listener = Registration.listenersOn Dispatcher.observedByAll registrations ∧
      middle.dispatcher.Registers others ∧
      acting.map Call.listener = Registration.listenersOn hook others ∧
      ∀ call ∈ acting, call.args = args) ∨
    ((listeners.host depth).doAction hook args start = none ∧
      (listeners.host depth).LacksAnswer .action hook args (start.countFiring hook)) := by
  have hcounted : (start.countFiring hook).dispatcher.Registers registrations :=
    hregisters.countFiring hook
  have hkeeps := listeners.keepsState_host (start.countFiring hook) depth
  rcases Host.doAction_rounds (listeners.passesReferences_host depth) hook args start with
    ⟨observing, acting, middle, final, hsome, hrounds, hargs⟩ | hnone
  · obtain ⟨others, hothers⟩ := (hkeeps.rounds hrounds (.refl hcounted)).1.registers
    refine .inl ⟨observing, acting, middle, others, final, hsome, hrounds, ?_, hothers, ?_, hargs⟩
    · rw [hrounds.observe_listeners, hcounted.callOrder_eq]
    · rw [hrounds.act_listeners, hothers.callOrder_eq]
  · exact .inr hnone

/-- A filter calls the listeners that are registered when each of its rounds begins. -/
theorem applyFilters_snapshots (listeners : Listeners ι ν σ) (depth : Nat)
    {registrations : List (Registration ι)} (hregisters : start.dispatcher.Registers registrations)
    (hook : Text) (value : ν) (args : List ν) :
    (∃ observing acting middle others final,
      (listeners.host depth).applyFilters hook value args start =
        some (Host.foldedValue value acting, final) ∧
      Host.Rounds (listeners.host depth) .filter hook (value :: args) start observing acting middle
        (Host.foldedValue value acting :: args) final ∧
      observing.map Call.listener = Registration.listenersOn Dispatcher.observedByAll registrations ∧
      middle.dispatcher.Registers others ∧
      acting.map Call.listener = Registration.listenersOn hook others ∧
      ∀ earlier call later, acting = earlier ++ call :: later →
        call.args = Host.foldedValue value earlier :: args) ∨
    ((listeners.host depth).applyFilters hook value args start = none ∧
      (listeners.host depth).LacksAnswer .filter hook (value :: args) start) := by
  have hkeeps := listeners.keepsState_host start depth
  rcases Host.applyFilters_rounds (listeners.passesReferences_host depth) hook value args start with
    ⟨observing, acting, middle, final, hsome, hrounds, hargs⟩ | hnone
  · obtain ⟨others, hothers⟩ := (hkeeps.rounds hrounds (.refl hregisters)).1.registers
    refine .inl ⟨observing, acting, middle, others, final, hsome, hrounds, ?_, hothers, ?_, hargs⟩
    · rw [hrounds.observe_listeners, hregisters.callOrder_eq]
    · rw [hrounds.act_listeners, hothers.callOrder_eq]
  · exact .inr hnone

/-- After any run of a program the count of an action has gone up by the number of its dispatches. -/
theorem run_counts (listeners : Listeners ι ν σ) (depth : Nat)
    {registrations : List (Registration ι)} (hregisters : start.dispatcher.Registers registrations)
    {program : Program ι ν σ} {result : Option ν} {final : TracedState ι ν σ}
    (hsome : program.run (listeners.host depth) start = some (result, final)) :
    ∃ new, final.world.events = start.world.events ++ new ∧
      ∀ hook, final.dispatcher.firedCount hook =
        start.dispatcher.firedCount hook + new.countP (TraceEvent.beginsAction hook) := by
  have hkeep := keep_countsSince (listeners.passesReferences_host depth)
    (listeners.keepsState_host start depth)
  exact (program.obeys_free.run_keeps hkeep (.refl hregisters) hsome).counts

/-- For listeners that do anything: an action, and likewise a filter, calls first the listeners of `all` that
are registered when it begins, with the name of the hook in front of its arguments, and then the listeners of
the hook that are registered when those have returned, each registration once and in order, and it answers.
The listeners of an action get its arguments; a filter answers the value as the results of the second round
have made it.  There is no answer only where a call has none, since dispatches are nested too deep.  And after
any run of a program the count of an action has gone up by the number of its dispatches. -/
theorem dispatch_calls_snapshots (listeners : Listeners ι ν σ) (depth : Nat)
    {registrations : List (Registration ι)} (hregisters : start.dispatcher.Registers registrations) :
    (∀ hook args,
      (∃ observing acting middle others final,
        (listeners.host depth).doAction hook args start = some (args, final) ∧
        Host.Rounds (listeners.host depth) .action hook args (start.countFiring hook) observing acting
          middle args final ∧
        observing.map Call.listener = Registration.listenersOn Dispatcher.observedByAll registrations ∧
        middle.dispatcher.Registers others ∧
        acting.map Call.listener = Registration.listenersOn hook others ∧
        ∀ call ∈ acting, call.args = args) ∨
      ((listeners.host depth).doAction hook args start = none ∧
        (listeners.host depth).LacksAnswer .action hook args (start.countFiring hook))) ∧
    (∀ hook value args,
      (∃ observing acting middle others final,
        (listeners.host depth).applyFilters hook value args start =
          some (Host.foldedValue value acting, final) ∧
        Host.Rounds (listeners.host depth) .filter hook (value :: args) start observing acting middle
          (Host.foldedValue value acting :: args) final ∧
        observing.map Call.listener = Registration.listenersOn Dispatcher.observedByAll registrations ∧
        middle.dispatcher.Registers others ∧
        acting.map Call.listener = Registration.listenersOn hook others ∧
        ∀ earlier call later, acting = earlier ++ call :: later →
          call.args = Host.foldedValue value earlier :: args) ∨
      ((listeners.host depth).applyFilters hook value args start = none ∧
        (listeners.host depth).LacksAnswer .filter hook (value :: args) start)) ∧
    ∀ (program : Program ι ν σ) (result : Option ν) (final : TracedState ι ν σ),
      program.run (listeners.host depth) start = some (result, final) →
      ∃ new, final.world.events = start.world.events ++ new ∧
        ∀ hook, final.dispatcher.firedCount hook =
          start.dispatcher.firedCount hook + new.countP (TraceEvent.beginsAction hook) := by
  refine ⟨?_, ?_, ?_⟩
  · intro hook args
    exact listeners.doAction_snapshots depth hregisters hook args
  · intro hook value args
    exact listeners.applyFilters_snapshots depth hregisters hook value args
  · intro program result final hsome
    exact listeners.run_counts depth hregisters hsome

/-- The hook of the listeners below. -/
def hopHook : Text :=
  Text.mark 'h'

/-- The first listener removes itself, registers another one, dispatches the hook again and raises.  The others
return what they get. -/
def hopping : Listeners Nat Nat Unit where
  program
    | 0, _ => .remove hopHook 0 10 fun _ => .add hopHook 1 10 (.action hopHook [] (.finish none))
    | _, args => .finish args.head?
  report _ := id
  nameValue _ := 0

/-- That listener is registered behind another one, and a third one observes all dispatches. -/
def hoppingStart : TracedState Nat Nat Unit where
  dispatcher := ((Dispatcher.empty.add hopHook 0 10).add hopHook 2 5).add Dispatcher.observedByAll 3 10
  world := ⟨(), []⟩

theorem registers_hoppingStart : hoppingStart.dispatcher.Registers
    [⟨hopHook, 10, 0⟩, ⟨hopHook, 5, 2⟩, ⟨Dispatcher.observedByAll, 10, 3⟩] :=
  ((Dispatcher.Registers.empty.add hopHook 0 10).add hopHook 2 5).add Dispatcher.observedByAll 3 10

/-- The listener is called although it has removed itself in the round before, and the action counts twice. -/
theorem dispatch_calls_snapshots_hopping :
    hoppingStart.dispatcher.Registers
        [⟨hopHook, 10, 0⟩, ⟨hopHook, 5, 2⟩, ⟨Dispatcher.observedByAll, 10, 3⟩] ∧
      (∃ (observing acting : List (Call Nat Nat (Traced Nat Nat Unit)))
          (middle final : TracedState Nat Nat Unit) (others : List (Registration Nat)),
        (hopping.host 3).doAction hopHook [7] hoppingStart = some ([7], final) ∧
        observing.map Call.listener = [3] ∧ middle.dispatcher.Registers others ∧
        acting.map Call.listener = Registration.listenersOn hopHook others ∧
        ∀ call ∈ acting, call.args = [7]) ∧
      ∃ (final : TracedState Nat Nat Unit) (new : List (TraceEvent Nat Nat Unit)),
        (Program.action hopHook [7] (.finish none)).run (hopping.host 3) hoppingStart =
          some (none, final) ∧
        final.world.events = new ∧ new.countP (TraceEvent.beginsAction hopHook) = 2 := by
  obtain ⟨haction, -, hcounts⟩ := dispatch_calls_snapshots hopping 3 registers_hoppingStart
  refine ⟨registers_hoppingStart, ?_, ?_⟩
  · rcases haction hopHook [7] with ⟨observing, acting, middle, others, final, hsome, -, hobservers,
      hothers, hlisteners, hargs⟩ | ⟨hnone, -⟩
    · refine ⟨observing, acting, middle, final, others, hsome, ?_, hothers, hlisteners, hargs⟩
      rw [hobservers]
      cbv
    · have hanswers : ((hopping.host 3).doAction hopHook [7] hoppingStart).isSome = true := by cbv
      rw [hnone] at hanswers
      cases hanswers
  · have hends : ((Program.action hopHook [7] (.finish none)).run (hopping.host 3) hoppingStart).map
        (fun ended => (ended.1, ended.2.dispatcher.firedCount hopHook)) = some (none, 2) := by cbv
    obtain ⟨⟨result, final⟩, hrun, hended⟩ := Option.map_eq_some_iff.mp hends
    rw [Prod.mk.injEq] at hended
    obtain ⟨rfl, htwo⟩ := hended
    obtain ⟨new, hevents, hfired⟩ := hcounts _ _ _ hrun
    have hcount := hfired hopHook
    rw [htwo] at hcount
    refine ⟨final, new, hrun, hevents, ?_⟩
    exact (hcount.trans (Nat.zero_add _)).symm

end Listeners

end HookAtlas
