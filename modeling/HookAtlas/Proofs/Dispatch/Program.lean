/-
# Listeners as programs

A listener may do anything before it returns or raises: look at the world and change it, register and remove
listeners, and dispatch hooks.  A `Program` says so step by step; its next step may depend on what it has seen
and been answered.  A dispatch within a program calls listeners, which are programs again, so running one is
bounded by how deep dispatches are nested.

The world keeps a trace of the dispatches that were begun and of the listeners that were called.  It is not
seen by programs.  What they are allowed to do may be restricted by `Manners`; what every allowed step keeps
every run keeps.
-/

import HookAtlas.Proofs.Dispatch.Calls
import HookAtlas.Proofs.Dispatch.Registration

namespace HookAtlas

/-- What happens in a run. -/
inductive TraceEvent (ι ν σ : Type)
  | began (round : Round) (hook : Text)
  | called (listener : ι) (args : List ν) (world : σ)

/-- A world and what has happened in it, the latest last. -/
structure Traced (ι ν σ : Type) where
  world : σ
  events : List (TraceEvent ι ν σ)

/-- A dispatcher and a traced world. -/
abbrev TracedState (ι ν σ : Type) := Hosted ι (Traced ι ν σ)

/-- What a listener does, step by step: it looks at the registry and the world, changes the world, registers and
removes listeners, dispatches, and in the end returns a result or raises. -/
inductive Program (ι ν σ : Type)
  | finish (result : Option ν)
  | look (next : Hosted ι σ → Program ι ν σ)
  | update (change : σ → σ) (next : Program ι ν σ)
  | add (hook : Text) (listener : ι) (priority : Int) (next : Program ι ν σ)
  | remove (hook : Text) (listener : ι) (priority : Int) (next : Bool → Program ι ν σ)
  | action (hook : Text) (args : List ν) (next : Program ι ν σ)
  | filter (hook : Text) (value : ν) (args : List ν) (next : ν → Program ι ν σ)

/-- The programs of all listeners, how those that raise are reported, and the name of a hook as an argument. -/
structure Listeners (ι ν σ : Type) where
  program : ι → List ν → Program ι ν σ
  report : Round → σ → σ
  nameValue : Text → ν

variable {ι ν σ : Type}

namespace TracedState

def fresh (state : Hosted ι σ) : TracedState ι ν σ :=
  ⟨state.dispatcher, ⟨state.world, []⟩⟩

def visible (state : TracedState ι ν σ) : Hosted ι σ :=
  ⟨state.dispatcher, state.world.world⟩

def update (change : σ → σ) (state : TracedState ι ν σ) : TracedState ι ν σ :=
  state.mapWorld fun traced => { traced with world := change traced.world }

def note (event : TraceEvent ι ν σ) (state : TracedState ι ν σ) : TracedState ι ν σ :=
  state.mapWorld fun traced => { traced with events := traced.events ++ [event] }

end TracedState

/-! ## Running programs -/

section Run

variable [DecidableEq ι]

/-- Run a program.  No answer where a dispatch has none. -/
def Program.run (host : Host ι ν (Traced ι ν σ)) :
    Program ι ν σ → TracedState ι ν σ → Option (Option ν × TracedState ι ν σ)
  | .finish result, state => some (result, state)
  | .look next, state => (next (TracedState.visible state)).run host state
  | .update change next, state => next.run host (TracedState.update change state)
  | .add hook listener priority next, state =>
    next.run host { state with dispatcher := state.dispatcher.add hook listener priority }
  | .remove hook listener priority next, state =>
    let (found, dispatcher) := state.dispatcher.remove hook listener priority
    (next found).run host { state with dispatcher }
  | .action hook args next, state =>
    match host.doAction hook args (TracedState.note (.began .action hook) state) with
    | none => none
    | some (_, state) => next.run host state
  | .filter hook value args next, state =>
    match host.applyFilters hook value args (TracedState.note (.began .filter hook) state) with
    | none => none
    | some (result, state) => (next result).run host state

/-- A program that ends does so with a host that answers more, and in the same way. -/
theorem Program.run_extends {more host : Host ι ν (Traced ι ν σ)} (hmore : more.Extends host)
    {program : Program ι ν σ} {state : TracedState ι ν σ} {ended : Option ν × TracedState ι ν σ}
    (hsome : program.run host state = some ended) : program.run more state = some ended := by
  induction program generalizing state with
  | finish result => exact hsome
  | look next ih =>
      rw [Program.run] at hsome ⊢
      exact ih _ hsome
  | update change next ih =>
      rw [Program.run] at hsome ⊢
      exact ih hsome
  | add hook listener priority next ih =>
      rw [Program.run] at hsome ⊢
      exact ih hsome
  | remove hook listener priority next ih =>
      rw [Program.run] at hsome ⊢
      exact ih _ hsome
  | action hook args next ih =>
      rw [Program.run] at hsome ⊢
      split at hsome
      · cases hsome
      · next hdispatch =>
          rw [hmore.doAction hdispatch]
          exact ih hsome
  | filter hook value args next ih =>
      rw [Program.run] at hsome ⊢
      split at hsome
      · cases hsome
      · next hdispatch =>
          rw [hmore.applyFilters hdispatch]
          exact ih _ hsome

namespace Listeners

/-- How listeners are hosted, given how one is called. -/
def hostWith (listeners : Listeners ι ν σ)
    (call : ι → List ν → TracedState ι ν σ → Option (CallOutcome ν × TracedState ι ν σ)) :
    Host ι ν (Traced ι ν σ) where
  call := call
  report round traced := { traced with world := listeners.report round traced.world }
  nameValue := listeners.nameValue

/-- How listeners are hosted, given how deep dispatches may be nested. -/
def host (listeners : Listeners ι ν σ) : Nat → Host ι ν (Traced ι ν σ)
  | 0 => listeners.hostWith fun _ _ _ => none
  | depth + 1 => listeners.hostWith fun listener args state =>
    ((listeners.program listener args).run (host listeners depth)
      (TracedState.note (.called listener args state.world.world) state)).map
        fun ended => (⟨args, ended.1⟩, ended.2)

theorem call_host_succ (listeners : Listeners ι ν σ) (depth : Nat) (listener : ι) (args : List ν)
    (state : TracedState ι ν σ) :
    (listeners.host (depth + 1)).call listener args state =
      ((listeners.program listener args).run (listeners.host depth)
        (TracedState.note (.called listener args state.world.world) state)).map
          fun ended => (⟨args, ended.1⟩, ended.2) :=
  rfl

/-- Programs cannot replace the arguments that they were called with. -/
theorem passesReferences_host (listeners : Listeners ι ν σ) (depth : Nat) :
    (listeners.host depth).PassesReferences := by
  constructor
  intro listener args state outcome after hcall
  cases depth with
  | zero => cases hcall
  | succ depth =>
      obtain ⟨ended, -, hended⟩ := Option.map_eq_some_iff.mp hcall
      cases hended
      rfl

/-- Where dispatches may be nested deeper there are more answers and no others. -/
theorem extends_host_succ (listeners : Listeners ι ν σ) (depth : Nat) :
    (listeners.host (depth + 1)).Extends (listeners.host depth) := by
  induction depth with
  | zero =>
      refine ⟨?_, rfl, rfl⟩
      intro listener args state ended hcall
      cases hcall
  | succ depth ih =>
      refine ⟨?_, rfl, rfl⟩
      intro listener args state ended hcall
      obtain ⟨⟨result, after⟩, hrun, hended⟩ := Option.map_eq_some_iff.mp hcall
      exact Option.map_eq_some_iff.mpr ⟨_, Program.run_extends ih hrun, hended⟩

/-- A run that ends does not depend on how deep dispatches may be nested, as long as it is deep enough. -/
theorem run_of_le (listeners : Listeners ι ν σ) {depth deeper : Nat} (hle : depth ≤ deeper)
    {program : Program ι ν σ} {state : TracedState ι ν σ} {ended : Option ν × TracedState ι ν σ}
    (hsome : program.run (listeners.host depth) state = some ended) :
    program.run (listeners.host deeper) state = some ended := by
  induction hle with
  | refl => exact hsome
  | step _ ih => exact Program.run_extends (listeners.extends_host_succ _) ih

end Listeners

end Run

/-! ## What runs keep -/

/-- What programs are allowed to do, and what they may find when they look. -/
structure Manners (ι σ : Type) where
  sees : Hosted ι σ → Prop
  update : (σ → σ) → Prop
  add : Text → ι → Int → Prop
  remove : Text → ι → Int → Prop
  dispatch : Text → Prop

def Manners.free : Manners ι σ where
  sees _ := True
  update _ := True
  add _ _ _ := True
  remove _ _ _ := True
  dispatch _ := True

/-- Every step of a program is allowed, whatever it finds and is answered. -/
inductive Program.Obeys (manners : Manners ι σ) : Program ι ν σ → Prop
  | finish (result : Option ν) : Obeys manners (.finish result)
  | look {next : Hosted ι σ → Program ι ν σ} :
      (∀ state, manners.sees state → Obeys manners (next state)) → Obeys manners (.look next)
  | update {change : σ → σ} {next : Program ι ν σ} :
      manners.update change → Obeys manners next → Obeys manners (.update change next)
  | add {hook : Text} {listener : ι} {priority : Int} {next : Program ι ν σ} :
      manners.add hook listener priority → Obeys manners next →
      Obeys manners (.add hook listener priority next)
  | remove {hook : Text} {listener : ι} {priority : Int} {next : Bool → Program ι ν σ} :
      manners.remove hook listener priority → (∀ found, Obeys manners (next found)) →
      Obeys manners (.remove hook listener priority next)
  | action {hook : Text} {args : List ν} {next : Program ι ν σ} :
      manners.dispatch hook → Obeys manners next → Obeys manners (.action hook args next)
  | filter {hook : Text} {value : ν} {args : List ν} {next : ν → Program ι ν σ} :
      manners.dispatch hook → (∀ result, Obeys manners (next result)) →
      Obeys manners (.filter hook value args next)

theorem Program.obeys_free (program : Program ι ν σ) : program.Obeys .free := by
  induction program with
  | finish result => exact .finish result
  | look next ih => exact .look fun state _ => ih state
  | update change next ih => exact .update trivial ih
  | add hook listener priority next ih => exact .add trivial ih
  | remove hook listener priority next ih => exact .remove trivial ih
  | action hook args next ih => exact .action trivial ih
  | filter hook value args next ih => exact .filter trivial ih

section Keeps

variable [DecidableEq ι]

/-- Every allowed step of a program keeps a property. -/
structure Manners.Keep (manners : Manners ι σ) (host : Host ι ν (Traced ι ν σ))
    (property : TracedState ι ν σ → Prop) : Prop where
  sees : ∀ {state}, property state → manners.sees (TracedState.visible state)
  update : ∀ {state change}, property state → manners.update change →
    property (TracedState.update change state)
  add : ∀ {state hook listener priority}, property state → manners.add hook listener priority →
    property { state with dispatcher := state.dispatcher.add hook listener priority }
  remove : ∀ {state hook listener priority}, property state → manners.remove hook listener priority →
    property { state with dispatcher := (state.dispatcher.remove hook listener priority).2 }
  action : ∀ {state hook args left after}, property state → manners.dispatch hook →
    host.doAction hook args (TracedState.note (.began .action hook) state) = some (left, after) →
    property after
  filter : ∀ {state hook value args result after}, property state → manners.dispatch hook →
    host.applyFilters hook value args (TracedState.note (.began .filter hook) state) =
      some (result, after) →
    property after

/-- What every allowed step keeps every run keeps, by induction on the program. -/
theorem Program.Obeys.run_keeps {manners : Manners ι σ} {host : Host ι ν (Traced ι ν σ)}
    {property : TracedState ι ν σ → Prop} {program : Program ι ν σ} {state after : TracedState ι ν σ}
    {result : Option ν} (hobeys : program.Obeys manners) (hkeep : manners.Keep host property)
    (hproperty : property state) (hsome : program.run host state = some (result, after)) :
    property after := by
  induction hobeys generalizing state with
  | finish result =>
      cases hsome
      exact hproperty
  | look _ ih =>
      rw [Program.run] at hsome
      exact ih _ (hkeep.sees hproperty) hproperty hsome
  | update hallowed _ ih =>
      rw [Program.run] at hsome
      exact ih (hkeep.update hproperty hallowed) hsome
  | add hallowed _ ih =>
      rw [Program.run] at hsome
      exact ih (hkeep.add hproperty hallowed) hsome
  | remove hallowed _ ih =>
      rw [Program.run] at hsome
      exact ih _ (hkeep.remove hproperty hallowed) hsome
  | action hallowed _ ih =>
      rw [Program.run] at hsome
      split at hsome
      · cases hsome
      · next hdispatch => exact ih (hkeep.action hproperty hallowed hdispatch) hsome
  | filter hallowed _ ih =>
      rw [Program.run] at hsome
      split at hsome
      · cases hsome
      · next hdispatch => exact ih _ (hkeep.filter hproperty hallowed hdispatch) hsome

/-- A program that may dispatch nothing always ends, by induction on the program. -/
theorem Program.Obeys.run_answers {manners : Manners ι σ} {program : Program ι ν σ}
    (hobeys : program.Obeys manners) (hsees : ∀ state, manners.sees state)
    (hsilent : ∀ hook, ¬ manners.dispatch hook) (host : Host ι ν (Traced ι ν σ))
    (state : TracedState ι ν σ) : ∃ result after, program.run host state = some (result, after) := by
  induction hobeys generalizing state with
  | finish result => exact ⟨result, state, rfl⟩
  | look _ ih => exact ih _ (hsees _) state
  | update _ _ ih => exact ih _
  | add _ _ ih => exact ih _
  | remove _ _ ih => exact ih _ _
  | action hallowed _ _ => exact absurd hallowed (hsilent _)
  | filter hallowed _ _ => exact absurd hallowed (hsilent _)

end Keeps

end HookAtlas
