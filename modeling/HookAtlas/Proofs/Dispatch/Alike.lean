/-
# Dispatches that go alike

Two states may be so related that every listener answers the same in both and leaves related states.  Then
every dispatch answers the same in both and leaves related states.  What a listener does is not looked into,
so this holds of all listeners, and it is the only place where dispatches are taken apart.

A property of the world that every listener keeps is a case of this: a state that has the property is
related to itself.

A dispatch that is nested without end has no answer.  `Alike` takes a parameter that says whether this is
allowed; where it is not, the statements say that there is an answer.
-/

import HookAtlas.Dispatch.Basic

namespace HookAtlas.Host

variable {ι ν σ α : Type} {host : Host ι ν σ} {endless : Prop}
  {related : Hosted ι σ → Hosted ι σ → Prop} {state other : Hosted ι σ}

/-- Two outcomes are the same answer with related states, or both none. -/
def Alike (endless : Prop) (related : Hosted ι σ → Hosted ι σ → Prop)
    (first second : Option (α × Hosted ι σ)) : Prop :=
  (endless ∧ first = none ∧ second = none) ∨
    ∃ answer state other, first = some (answer, state) ∧ second = some (answer, other) ∧
      related state other

theorem Alike.of_some {answer : α} (hrelated : related state other) :
    Alike endless related (some (answer, state)) (some (answer, other)) :=
  .inr ⟨answer, state, other, rfl, rfl, hrelated⟩

theorem Alike.of_none (hendless : endless) :
    Alike (α := α) endless related none none :=
  .inl ⟨hendless, rfl, rfl⟩

/-- Listeners answer the same in related states and leave related states. -/
structure Relates (host : Host ι ν σ) (endless : Prop)
    (related : Hosted ι σ → Hosted ι σ → Prop) : Prop where
  call : ∀ {state other}, related state other → ∀ listener args,
    Alike endless related (host.call listener args state) (host.call listener args other)
  report : ∀ {state other}, related state other → ∀ round,
    related (state.mapWorld (host.report round)) (other.mapWorld (host.report round))
  countFiring : ∀ {state other}, related state other → ∀ hook,
    related { state with dispatcher := state.dispatcher.countFiring hook }
      { other with dispatcher := other.dispatcher.countFiring hook }
  callOrder : ∀ {state other}, related state other → ∀ hook,
    state.dispatcher.callOrder hook = other.dispatcher.callOrder hook

namespace Relates

variable (hhost : host.Relates endless related)

include hhost

theorem afterCall (round : Round) (outcome : CallOutcome ν) (hrelated : related state other) :
    related (host.afterCall round outcome state) (host.afterCall round outcome other) := by
  rw [Host.afterCall, Host.afterCall]
  split
  · exact hrelated
  · exact hhost.report hrelated round

theorem callEach (round : Round) (listeners : List ι) (args : List ν)
    (hrelated : related state other) :
    Alike endless related (host.callEach round listeners args state)
      (host.callEach round listeners args other) := by
  induction listeners generalizing args state other with
  | nil => exact .of_some hrelated
  | cons listener listeners ih =>
      rw [Host.callEach, Host.callEach]
      rcases hhost.call hrelated listener args with
        ⟨hendless, hnone, hnone'⟩ | ⟨outcome, after, after', hsome, hsome', hafter⟩
      · rw [hnone, hnone']
        exact .of_none hendless
      · rw [hsome, hsome']
        exact ih outcome.args (hhost.afterCall round outcome hafter)

theorem passThrough (listeners : List ι) (value : ν) (args : List ν)
    (hrelated : related state other) :
    Alike endless related (host.passThrough listeners value args state)
      (host.passThrough listeners value args other) := by
  induction listeners generalizing value args state other with
  | nil => exact .of_some hrelated
  | cons listener listeners ih =>
      rw [Host.passThrough, Host.passThrough]
      rcases hhost.call hrelated listener (value :: args) with
        ⟨hendless, hnone, hnone'⟩ | ⟨outcome, after, after', hsome, hsome', hafter⟩
      · rw [hnone, hnone']
        exact .of_none hendless
      · rw [hsome, hsome']
        exact ih _ _ (hhost.afterCall .filter outcome hafter)

theorem notifyAll (hook : Text) (args : List ν) (hrelated : related state other) :
    Alike endless related (host.notifyAll hook args state) (host.notifyAll hook args other) := by
  rw [Host.notifyAll, Host.notifyAll, hhost.callOrder hrelated]
  rcases hhost.callEach .observing (other.dispatcher.callOrder Dispatcher.observedByAll)
      (host.nameValue hook :: args) hrelated with
    ⟨hendless, hnone, hnone'⟩ | ⟨seen, after, after', hsome, hsome', hafter⟩
  · rw [hnone, hnone']
    exact .of_none hendless
  · rw [hsome, hsome']
    exact .of_some hafter

theorem doAction (hook : Text) (args : List ν) (hrelated : related state other) :
    Alike endless related (host.doAction hook args state) (host.doAction hook args other) := by
  rw [Host.doAction, Host.doAction]
  rcases hhost.notifyAll hook args (hhost.countFiring hrelated hook) with
    ⟨hendless, hnone, hnone'⟩ | ⟨seen, after, after', hsome, hsome', hafter⟩
  · rw [hnone, hnone']
    exact .of_none hendless
  · rw [hsome, hsome']
    dsimp only
    rw [hhost.callOrder hafter]
    exact hhost.callEach .action _ seen hafter

theorem applyFilters (hook : Text) (value : ν) (args : List ν) (hrelated : related state other) :
    Alike endless related (host.applyFilters hook value args state)
      (host.applyFilters hook value args other) := by
  rw [Host.applyFilters, Host.applyFilters]
  rcases hhost.notifyAll hook (value :: args) hrelated with
    ⟨hendless, hnone, hnone'⟩ | ⟨seen, after, after', hsome, hsome', hafter⟩
  · rw [hnone, hnone']
    exact .of_none hendless
  · rw [hsome, hsome']
    dsimp only
    rw [hhost.callOrder hafter]
    exact hhost.passThrough _ _ _ hafter

end Relates

/-! ## Properties that listeners keep -/

/-- Calling a listener, and reporting one that raised, keep a property of the world. -/
structure Keeps (host : Host ι ν σ) (property : σ → Prop) : Prop where
  call : ∀ {state}, property state.world → ∀ {listener args outcome after},
    host.call listener args state = some (outcome, after) → property after.world
  report : ∀ {world}, property world → ∀ round, property (host.report round world)

namespace Keeps

variable {property : σ → Prop} (hhost : host.Keeps property)

include hhost

theorem relates :
    host.Relates True fun state other => state = other ∧ property state.world where
  call := by
    rintro state _ ⟨rfl, hproperty⟩ listener args
    cases hcall : host.call listener args state with
    | none => exact .of_none trivial
    | some result => exact .of_some ⟨rfl, hhost.call hproperty hcall⟩
  report := by
    rintro state _ ⟨rfl, hproperty⟩ round
    exact ⟨rfl, hhost.report hproperty round⟩
  countFiring := by
    rintro state _ ⟨rfl, hproperty⟩ hook
    exact ⟨rfl, hproperty⟩
  callOrder := by
    rintro state _ ⟨rfl, -⟩ hook
    rfl

omit hhost in
/-- What is related to itself has the property. -/
theorem of_alike {outcome : Option (α × Hosted ι σ)} {answer : α} {after : Hosted ι σ}
    (halike : Alike True (fun state other => state = other ∧ property state.world) outcome outcome)
    (hsome : outcome = some (answer, after)) : property after.world := by
  rcases halike with ⟨-, hnone, -⟩ | ⟨answer', state, other, hsome', -, hrelated⟩
  · rw [hnone] at hsome
    cases hsome
  · rw [hsome', Option.some.injEq, Prod.mk.injEq] at hsome
    rw [← hsome.2]
    exact hrelated.2

theorem doAction {hook : Text} {args left : List ν} {after : Hosted ι σ}
    (hproperty : property state.world) (hsome : host.doAction hook args state = some (left, after)) :
    property after.world :=
  of_alike (hhost.relates.doAction hook args ⟨rfl, hproperty⟩) hsome

theorem applyFilters {hook : Text} {value result : ν} {args : List ν} {after : Hosted ι σ}
    (hproperty : property state.world)
    (hsome : host.applyFilters hook value args state = some (result, after)) :
    property after.world :=
  of_alike (hhost.relates.applyFilters hook value args ⟨rfl, hproperty⟩) hsome

theorem applyFiltersToList {hook : Text} {args : List ν} {result : ν} {after : Hosted ι σ}
    (hproperty : property state.world)
    (hsome : host.applyFiltersToList hook args state = .ok (some (result, after))) :
    property after.world := by
  cases args with
  | nil => cases hsome
  | cons value args => exact hhost.applyFilters hproperty (Except.ok.inj hsome)

end Keeps

end HookAtlas.Host
