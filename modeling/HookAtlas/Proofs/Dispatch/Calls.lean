/-
# The calls of a dispatch

A dispatch makes two rounds of calls.  Each round goes through a list of listeners that was fixed when the
round began: the listeners of `all` at first, and then, by the registry as those have left it, the listeners
of the hook.  `InTurn` says that calls were made one after the other, each in the state that the one before
has left and with the arguments that it has handed on, whatever the listeners did and whether they raised.

Dispatches are taken apart here, once.  What is known of the calls then gives what is known of the dispatch.
-/

import HookAtlas.Dispatch.Basic

namespace HookAtlas

/-- A call of a listener: the arguments that it got, how it ended, and the states in which it was called and
that it left. -/
structure Call (ι ν σ : Type) where
  listener : ι
  args : List ν
  before : Hosted ι σ
  outcome : CallOutcome ν
  after : Hosted ι σ

/-- The state of an action that has begun. -/
def Hosted.countFiring {ι σ : Type} (hook : Text) (state : Hosted ι σ) : Hosted ι σ :=
  { state with dispatcher := state.dispatcher.countFiring hook }

namespace Host

variable {ι ν σ : Type} {host : Host ι ν σ} {round : Round} {listeners : List ι}
  {calls : List (Call ι ν σ)} {args left : List ν} {state final : Hosted ι σ}

/-- The arguments of the next call.  In a filter the result of a call takes the place of the value; a listener
that raises leaves the value there. -/
def handOn (round : Round) (args : List ν) (outcome : CallOutcome ν) : List ν :=
  match round, args with
  | .filter, value :: _ =>
    outcome.result.getD (outcome.args.head?.getD value) :: outcome.args.drop 1
  | _, _ => outcome.args

/-- Calls that are made one after the other, from some arguments in some state. -/
inductive InTurn (host : Host ι ν σ) (round : Round) :
    List (Call ι ν σ) → List ν → Hosted ι σ → List ν → Hosted ι σ → Prop
  | nil (args : List ν) (state : Hosted ι σ) : InTurn host round [] args state args state
  | cons {listener : ι} {args left : List ν} {outcome : CallOutcome ν} {state after final : Hosted ι σ}
      {calls : List (Call ι ν σ)} :
      host.call listener args state = some (outcome, after) →
      InTurn host round calls (handOn round args outcome) (host.afterCall round outcome after) left final →
      InTurn host round (⟨listener, args, state, outcome, after⟩ :: calls) args state left final

/-- Some listeners are called in turn, up to one whose call has no answer. -/
def Unanswered (host : Host ι ν σ) (round : Round) (listeners : List ι) (args : List ν)
    (state : Hosted ι σ) : Prop :=
  ∃ (calls : List (Call ι ν σ)) (listener : ι) (others : List ι) (left : List ν) (final : Hosted ι σ),
    listeners = calls.map Call.listener ++ listener :: others ∧
      InTurn host round calls args state left final ∧ host.call listener left final = none

theorem Unanswered.cons {listener : ι} {outcome : CallOutcome ν} {after : Hosted ι σ}
    (hcall : host.call listener args state = some (outcome, after))
    (hrest : host.Unanswered round listeners (handOn round args outcome)
      (host.afterCall round outcome after)) :
    host.Unanswered round (listener :: listeners) args state := by
  obtain ⟨calls, last, others, left, final, hlisteners, hturn, hnone⟩ := hrest
  refine ⟨_ :: calls, last, others, left, final, ?_, .cons hcall hturn, hnone⟩
  rw [hlisteners]
  rfl

/-! ## Rounds -/

theorem handOn_of_ne (hround : round ≠ .filter) (args : List ν) (outcome : CallOutcome ν) :
    handOn round args outcome = outcome.args := by
  cases round with
  | observing => rfl
  | action => rfl
  | filter => exact absurd rfl hround

/-- A round that is no filter calls each of its listeners. -/
theorem exists_inTurn_callEach (hround : round ≠ .filter)
    (hsome : host.callEach round listeners args state = some (left, final)) :
    ∃ calls, calls.map Call.listener = listeners ∧ InTurn host round calls args state left final := by
  induction listeners generalizing args state with
  | nil =>
      cases hsome
      exact ⟨[], rfl, .nil _ _⟩
  | cons listener listeners ih =>
      rw [callEach] at hsome
      split at hsome
      · cases hsome
      · next outcome after hcall =>
          rw [← handOn_of_ne hround args outcome] at hsome
          obtain ⟨calls, hlisteners, hturn⟩ := ih hsome
          refine ⟨_ :: calls, ?_, .cons hcall hturn⟩
          rw [List.map_cons, hlisteners]

theorem unanswered_callEach (hround : round ≠ .filter)
    (hnone : host.callEach round listeners args state = none) :
    host.Unanswered round listeners args state := by
  induction listeners generalizing args state with
  | nil => cases hnone
  | cons listener listeners ih =>
      rw [callEach] at hnone
      split at hnone
      · next hcall => exact ⟨[], listener, listeners, args, state, rfl, .nil args state, hcall⟩
      · next outcome after hcall =>
          rw [← handOn_of_ne hround args outcome] at hnone
          exact .cons hcall (ih hnone)

/-- A filter calls each of its listeners and answers the value that the last one hands on. -/
theorem exists_inTurn_passThrough {value result : ν}
    (hsome : host.passThrough listeners value args state = some (result, final)) :
    ∃ calls rest, calls.map Call.listener = listeners ∧
      InTurn host .filter calls (value :: args) state (result :: rest) final := by
  induction listeners generalizing value args state with
  | nil =>
      cases hsome
      exact ⟨[], args, rfl, .nil _ _⟩
  | cons listener listeners ih =>
      rw [passThrough] at hsome
      split at hsome
      · cases hsome
      · next outcome after hcall =>
          obtain ⟨calls, rest, hlisteners, hturn⟩ := ih hsome
          refine ⟨_ :: calls, rest, ?_, .cons hcall hturn⟩
          rw [List.map_cons, hlisteners]

theorem unanswered_passThrough {value : ν}
    (hnone : host.passThrough listeners value args state = none) :
    host.Unanswered .filter listeners (value :: args) state := by
  induction listeners generalizing value args state with
  | nil => cases hnone
  | cons listener listeners ih =>
      rw [passThrough] at hnone
      split at hnone
      · next hcall =>
          exact ⟨[], listener, listeners, value :: args, state, rfl, .nil _ state, hcall⟩
      · next outcome after hcall => exact .cons hcall (ih hnone)

/-! ## Arguments -/

/-- Arguments are passed by reference: a listener hands on what it got, and what it changes of it is part of
the world. -/
structure PassesReferences (host : Host ι ν σ) : Prop where
  args_eq : ∀ {listener args state outcome after},
    host.call listener args state = some (outcome, after) → outcome.args = args

/-- Every listener of a round gets the same arguments. -/
theorem InTurn.args_eq (hrefs : host.PassesReferences) (hround : round ≠ .filter)
    (hturn : InTurn host round calls args state left final) :
    left = args ∧ ∀ call ∈ calls, call.args = args := by
  induction hturn with
  | nil args state => simp
  | cons hmade _ ih =>
      rw [handOn_of_ne hround, hrefs.args_eq hmade] at ih
      refine ⟨ih.1, ?_⟩
      intro call hmem
      rcases List.mem_cons.mp hmem with rfl | hmem
      · rfl
      · exact ih.2 call hmem

/-- The value that comes out of some calls: each replaces it by its result, and one that raised leaves it. -/
def foldedValue (value : ν) (calls : List (Call ι ν σ)) : ν :=
  calls.foldl (fun value call => call.outcome.result.getD value) value

/-- Every listener of a filter gets the value as the ones before it have made it, and the other arguments as
they are. -/
theorem InTurn.filter_args_eq (hrefs : host.PassesReferences) {value : ν}
    (hturn : InTurn host .filter calls (value :: args) state left final) :
    left = foldedValue value calls :: args ∧
      ∀ earlier call later, calls = earlier ++ call :: later →
        call.args = foldedValue value earlier :: args := by
  induction calls generalizing value state with
  | nil =>
      cases hturn
      exact ⟨rfl, by simp⟩
  | cons made calls ih =>
      cases hturn with
      | cons hmade hrest =>
          rw [handOn, hrefs.args_eq hmade] at hrest
          obtain ⟨hleft, hothers⟩ := ih hrest
          refine ⟨hleft, ?_⟩
          intro earlier call later hcalls
          cases earlier with
          | nil =>
              cases hcalls
              rfl
          | cons first earlier =>
              cases hcalls
              exact hothers earlier call later rfl

/-! ## Dispatches -/

/-- The two rounds of a dispatch that was begun in a state.  The listeners of `all` get the name of the hook in
front of the arguments.  Those of the hook are looked up in the state that the former have left. -/
structure Rounds (host : Host ι ν σ) (round : Round) (hook : Text) (args : List ν)
    (start : Hosted ι σ) (observing acting : List (Call ι ν σ)) (middle : Hosted ι σ) (left : List ν)
    (final : Hosted ι σ) : Prop where
  observe : InTurn host .observing observing (host.nameValue hook :: args) start
    (host.nameValue hook :: args) middle
  observe_listeners : observing.map Call.listener = start.dispatcher.callOrder Dispatcher.observedByAll
  observe_args : ∀ call ∈ observing, call.args = host.nameValue hook :: args
  act : InTurn host round acting args middle left final
  act_listeners : acting.map Call.listener = middle.dispatcher.callOrder hook

/-- A listener of one of the rounds was called and its call has no answer. -/
def LacksAnswer (host : Host ι ν σ) (round : Round) (hook : Text) (args : List ν)
    (start : Hosted ι σ) : Prop :=
  host.Unanswered .observing (start.dispatcher.callOrder Dispatcher.observedByAll)
      (host.nameValue hook :: args) start ∨
    ∃ observing middle,
      InTurn host .observing observing (host.nameValue hook :: args) start
        (host.nameValue hook :: args) middle ∧
      host.Unanswered round (middle.dispatcher.callOrder hook) args middle

/-- The observers of a dispatch. -/
theorem exists_inTurn_notifyAll (hrefs : host.PassesReferences) {hook : Text} {seen : List ν}
    (hsome : host.notifyAll hook args state = some (seen, final)) :
    seen = args ∧ ∃ observing,
      observing.map Call.listener = state.dispatcher.callOrder Dispatcher.observedByAll ∧
      (∀ call ∈ observing, call.args = host.nameValue hook :: args) ∧
      InTurn host .observing observing (host.nameValue hook :: args) state
        (host.nameValue hook :: args) final := by
  rw [notifyAll] at hsome
  obtain ⟨⟨left, after⟩, heach, hseen⟩ := Option.map_eq_some_iff.mp hsome
  cases hseen
  obtain ⟨observing, hlisteners, hturn⟩ := exists_inTurn_callEach (by decide) heach
  obtain ⟨rfl, hargs⟩ := hturn.args_eq hrefs (by decide)
  exact ⟨rfl, observing, hlisteners, hargs, hturn⟩

theorem unanswered_notifyAll {hook : Text} (hnone : host.notifyAll hook args state = none) :
    host.Unanswered .observing (state.dispatcher.callOrder Dispatcher.observedByAll)
      (host.nameValue hook :: args) state := by
  rw [notifyAll, Option.map_eq_none_iff] at hnone
  exact unanswered_callEach (by decide) hnone

/-- An action makes its two rounds and answers, unless one of its calls has no answer. -/
theorem doAction_rounds (hrefs : host.PassesReferences) (hook : Text) (args : List ν)
    (state : Hosted ι σ) :
    (∃ observing acting middle final, host.doAction hook args state = some (args, final) ∧
      Rounds host .action hook args (state.countFiring hook) observing acting middle args final ∧
      ∀ call ∈ acting, call.args = args) ∨
    (host.doAction hook args state = none ∧
      LacksAnswer host .action hook args (state.countFiring hook)) := by
  cases hnotify : host.notifyAll hook args (state.countFiring hook) with
  | none =>
      right
      constructor
      · rw [doAction, ← Hosted.countFiring, hnotify]
      · exact .inl (unanswered_notifyAll hnotify)
  | some seen =>
      obtain ⟨seen, middle⟩ := seen
      obtain ⟨rfl, observing, hobservers, hseen, hobserve⟩ := exists_inTurn_notifyAll hrefs hnotify
      have hdispatch : host.doAction hook seen state =
          host.callEach .action (middle.dispatcher.callOrder hook) seen middle := by
        rw [doAction, ← Hosted.countFiring, hnotify]
      rw [hdispatch]
      cases heach : host.callEach .action (middle.dispatcher.callOrder hook) seen middle with
      | none => exact .inr ⟨rfl, .inr ⟨observing, middle, hobserve, unanswered_callEach (by decide) heach⟩⟩
      | some left =>
          obtain ⟨left, final⟩ := left
          obtain ⟨acting, hlisteners, hturn⟩ := exists_inTurn_callEach (by decide) heach
          obtain ⟨rfl, hargs⟩ := hturn.args_eq hrefs (by decide)
          exact .inl ⟨observing, acting, middle, final, rfl,
            ⟨hobserve, hobservers, hseen, hturn, hlisteners⟩, hargs⟩

/-- A filter makes its two rounds and answers what the value has become, unless one of its calls has no
answer. -/
theorem applyFilters_rounds (hrefs : host.PassesReferences) (hook : Text) (value : ν) (args : List ν)
    (state : Hosted ι σ) :
    (∃ observing acting middle final,
      host.applyFilters hook value args state = some (foldedValue value acting, final) ∧
      Rounds host .filter hook (value :: args) state observing acting middle
        (foldedValue value acting :: args) final ∧
      ∀ earlier call later, acting = earlier ++ call :: later →
        call.args = foldedValue value earlier :: args) ∨
    (host.applyFilters hook value args state = none ∧
      LacksAnswer host .filter hook (value :: args) state) := by
  cases hnotify : host.notifyAll hook (value :: args) state with
  | none =>
      right
      constructor
      · rw [applyFilters, hnotify]
      · exact .inl (unanswered_notifyAll hnotify)
  | some seen =>
      obtain ⟨seen, middle⟩ := seen
      obtain ⟨rfl, observing, hobservers, hseen, hobserve⟩ := exists_inTurn_notifyAll hrefs hnotify
      have hdispatch : host.applyFilters hook value args state =
          host.passThrough (middle.dispatcher.callOrder hook) value args middle := by
        rw [applyFilters, hnotify]
        rfl
      rw [hdispatch]
      cases hpass : host.passThrough (middle.dispatcher.callOrder hook) value args middle with
      | none => exact .inr ⟨rfl, .inr ⟨observing, middle, hobserve, unanswered_passThrough hpass⟩⟩
      | some result =>
          obtain ⟨result, final⟩ := result
          obtain ⟨acting, rest, hlisteners, hturn⟩ := exists_inTurn_passThrough hpass
          obtain ⟨hleft, hargs⟩ := hturn.filter_args_eq hrefs
          cases hleft
          exact .inl ⟨observing, acting, middle, final, rfl,
            ⟨hobserve, hobservers, hseen, hturn, hlisteners⟩, hargs⟩

theorem rounds_of_doAction (hrefs : host.PassesReferences) {hook : Text}
    (hsome : host.doAction hook args state = some (left, final)) :
    ∃ observing acting middle,
      Rounds host .action hook args (state.countFiring hook) observing acting middle left final := by
  rcases doAction_rounds hrefs hook args state with
    ⟨observing, acting, middle, other, hother, hrounds, -⟩ | ⟨hnone, -⟩
  · rw [hother] at hsome
    cases hsome
    exact ⟨observing, acting, middle, hrounds⟩
  · rw [hnone] at hsome
    cases hsome

theorem rounds_of_applyFilters (hrefs : host.PassesReferences) {hook : Text} {value result : ν}
    (hsome : host.applyFilters hook value args state = some (result, final)) :
    ∃ observing acting middle,
      Rounds host .filter hook (value :: args) state observing acting middle (result :: args) final := by
  rcases applyFilters_rounds hrefs hook value args state with
    ⟨observing, acting, middle, other, hother, hrounds, -⟩ | ⟨hnone, -⟩
  · rw [hother] at hsome
    cases hsome
    exact ⟨observing, acting, middle, hrounds⟩
  · rw [hnone] at hsome
    cases hsome

/-! ## What dispatches keep -/

/-- Calls of listeners, and reports of those that raised, keep a property of the state. -/
structure KeepsState (host : Host ι ν σ) (property : Hosted ι σ → Prop) : Prop where
  call : ∀ {listener args state outcome after}, property state →
    host.call listener args state = some (outcome, after) → property after
  report : ∀ {state} round, property state → property (state.mapWorld (host.report round))

namespace KeepsState

variable {property : Hosted ι σ → Prop}

theorem inTurn (hkeeps : host.KeepsState property)
    (hturn : InTurn host round calls args state left final) (hproperty : property state) :
    property final := by
  induction hturn with
  | nil args state => exact hproperty
  | cons hmade _ ih =>
      apply ih
      have hafter := hkeeps.call hproperty hmade
      rw [afterCall]
      split
      · exact hafter
      · exact hkeeps.report round hafter

theorem rounds (hkeeps : host.KeepsState property) {hook : Text} {start middle : Hosted ι σ}
    {observing acting : List (Call ι ν σ)}
    (hrounds : Rounds host round hook args start observing acting middle left final)
    (hproperty : property start) : property middle ∧ property final := by
  have hmiddle := hkeeps.inTurn hrounds.observe hproperty
  exact ⟨hmiddle, hkeeps.inTurn hrounds.act hmiddle⟩

theorem doAction (hkeeps : host.KeepsState property) (hrefs : host.PassesReferences) {hook : Text}
    (hproperty : property (state.countFiring hook))
    (hsome : host.doAction hook args state = some (left, final)) : property final := by
  obtain ⟨observing, acting, middle, hrounds⟩ := rounds_of_doAction hrefs hsome
  exact (hkeeps.rounds hrounds hproperty).2

theorem applyFilters (hkeeps : host.KeepsState property) (hrefs : host.PassesReferences) {hook : Text}
    {value result : ν} (hproperty : property state)
    (hsome : host.applyFilters hook value args state = some (result, final)) : property final := by
  obtain ⟨observing, acting, middle, hrounds⟩ := rounds_of_applyFilters hrefs hsome
  exact (hkeeps.rounds hrounds hproperty).2

end KeepsState

/-! ## More answers -/

/-- A host that answers where another one does, and answers the same. -/
structure Extends (more host : Host ι ν σ) : Prop where
  call : ∀ {listener args state ended},
    host.call listener args state = some ended → more.call listener args state = some ended
  report_eq : more.report = host.report
  nameValue_eq : more.nameValue = host.nameValue

namespace Extends

variable {more : Host ι ν σ}

theorem afterCall_eq (hmore : more.Extends host) (round : Round) (outcome : CallOutcome ν)
    (state : Hosted ι σ) : more.afterCall round outcome state = host.afterCall round outcome state := by
  rw [Host.afterCall, Host.afterCall, hmore.report_eq]

theorem callEach (hmore : more.Extends host)
    (hsome : host.callEach round listeners args state = some (left, final)) :
    more.callEach round listeners args state = some (left, final) := by
  induction listeners generalizing args state with
  | nil => exact hsome
  | cons listener listeners ih =>
      rw [Host.callEach] at hsome ⊢
      split at hsome
      · cases hsome
      · next outcome after hcall =>
          rw [hmore.call hcall]
          dsimp only
          rw [hmore.afterCall_eq]
          exact ih hsome

theorem passThrough (hmore : more.Extends host) {value result : ν}
    (hsome : host.passThrough listeners value args state = some (result, final)) :
    more.passThrough listeners value args state = some (result, final) := by
  induction listeners generalizing value args state with
  | nil => exact hsome
  | cons listener listeners ih =>
      rw [Host.passThrough] at hsome ⊢
      split at hsome
      · cases hsome
      · next outcome after hcall =>
          rw [hmore.call hcall]
          dsimp only
          rw [hmore.afterCall_eq]
          exact ih hsome

theorem notifyAll (hmore : more.Extends host) {hook : Text}
    (hsome : host.notifyAll hook args state = some (left, final)) :
    more.notifyAll hook args state = some (left, final) := by
  rw [Host.notifyAll] at hsome ⊢
  obtain ⟨seen, heach, hseen⟩ := Option.map_eq_some_iff.mp hsome
  rw [hmore.nameValue_eq, hmore.callEach heach]
  exact congrArg some hseen

theorem doAction (hmore : more.Extends host) {hook : Text}
    (hsome : host.doAction hook args state = some (left, final)) :
    more.doAction hook args state = some (left, final) := by
  rw [Host.doAction] at hsome ⊢
  split at hsome
  · cases hsome
  · next hnotify =>
      rw [hmore.notifyAll hnotify]
      exact hmore.callEach hsome

theorem applyFilters (hmore : more.Extends host) {hook : Text} {value result : ν}
    (hsome : host.applyFilters hook value args state = some (result, final)) :
    more.applyFilters hook value args state = some (result, final) := by
  rw [Host.applyFilters] at hsome ⊢
  split at hsome
  · cases hsome
  · next hnotify =>
      rw [hmore.notifyAll hnotify]
      exact hmore.passThrough hsome

end Extends

end Host

end HookAtlas
