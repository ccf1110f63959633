/-
# Dispatching actions and filters

An action calls every listener of its hook.  A filter passes a value through them and answers what
comes out.  Before either, the listeners of the hook `all` are called with the name of the hook in
front of the arguments.  The listeners to call are fixed when their turn begins, so what a listener
registers or removes has no effect on the round it is part of.  A listener that raises is reported
and skipped.

The arguments of an action are handed from listener to listener: what one of them empties in place
the next one finds empty.

How a listener is called is a parameter, because listeners dispatch hooks themselves.  Calling one
may have no answer, namely where dispatches are nested without end; then the dispatch has none.
-/

import HookAtlas.Dispatch.Registry

namespace HookAtlas

/-- The dispatcher and the rest of the world that listeners act on. -/
structure Hosted (ι σ : Type) where
  dispatcher : Dispatcher ι
  world : σ

def Hosted.mapWorld {ι σ : Type} (f : σ → σ) (state : Hosted ι σ) : Hosted ι σ :=
  { state with world := f state.world }

/-- How a call of a listener ended: the arguments as the listener leaves them, and the result, none where it
raised. -/
structure CallOutcome (ν : Type) where
  args : List ν
  result : Option ν

inductive Round
  | observing
  | action
  | filter
deriving DecidableEq, Repr

/-- How listeners are called, how those that raise are reported, and how the name of a hook is passed. -/
structure Host (ι ν σ : Type) where
  call : ι → List ν → Hosted ι σ → Option (CallOutcome ν × Hosted ι σ)
  report : Round → σ → σ
  nameValue : Text → ν

namespace Host

variable {ι ν σ : Type}

def afterCall (host : Host ι ν σ) (round : Round) (outcome : CallOutcome ν) (state : Hosted ι σ) :
    Hosted ι σ :=
  match outcome.result with
  | some _ => state
  | none => state.mapWorld (host.report round)

/-- Call listeners one after the other.  Answers the arguments as the last one leaves them. -/
def callEach (host : Host ι ν σ) (round : Round) :
    List ι → List ν → Hosted ι σ → Option (List ν × Hosted ι σ)
  | [], args, state => some (args, state)
  | listener :: listeners, args, state =>
    match host.call listener args state with
    | none => none
    | some (outcome, state) =>
      callEach host round listeners outcome.args (host.afterCall round outcome state)

/-- Pass a value through listeners.  One that raises leaves the value as it was. -/
def passThrough (host : Host ι ν σ) :
    List ι → ν → List ν → Hosted ι σ → Option (ν × Hosted ι σ)
  | [], value, _, state => some (value, state)
  | listener :: listeners, value, args, state =>
    match host.call listener (value :: args) state with
    | none => none
    | some (outcome, state) =>
      let left := outcome.args.head?.getD value
      passThrough host listeners (outcome.result.getD left) (outcome.args.drop 1)
        (host.afterCall .filter outcome state)

/-- Call the listeners that observe every dispatch. -/
def notifyAll (host : Host ι ν σ) (hook : Text) (args : List ν) (state : Hosted ι σ) :
    Option (List ν × Hosted ι σ) :=
  (host.callEach .observing (state.dispatcher.callOrder Dispatcher.observedByAll)
    (host.nameValue hook :: args) state).map fun (args, state) => (args.drop 1, state)

/-- Dispatch an action.  Answers the arguments as the listeners leave them. -/
def doAction (host : Host ι ν σ) (hook : Text) (args : List ν) (state : Hosted ι σ) :
    Option (List ν × Hosted ι σ) :=
  let counted := { state with dispatcher := state.dispatcher.countFiring hook }
  match host.notifyAll hook args counted with
  | none => none
  | some (args, state) => host.callEach .action (state.dispatcher.callOrder hook) args state

/-- Dispatch a filter.  Answers the value that comes out. -/
def applyFilters (host : Host ι ν σ) (hook : Text) (value : ν) (args : List ν)
    (state : Hosted ι σ) : Option (ν × Hosted ι σ) :=
  match host.notifyAll hook (value :: args) state with
  | none => none
  | some (seen, state) =>
    host.passThrough (state.dispatcher.callOrder hook) (seen.head?.getD value) (seen.drop 1) state

end Host

/-- A filter dispatch without a value to filter. -/
structure FilterWithoutValue where
  hook : Text

namespace Host

variable {ι ν σ : Type}

def applyFiltersToList (host : Host ι ν σ) (hook : Text) (args : List ν) (state : Hosted ι σ) :
    Except FilterWithoutValue (Option (ν × Hosted ι σ)) :=
  match args with
  | [] => .error ⟨hook⟩
  | value :: args => .ok (host.applyFilters hook value args state)

end Host

end HookAtlas
