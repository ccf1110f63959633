/-
# Registered listeners

Listeners are registered on a hook at a priority, and one listener may be registered several times.
The registry keeps, for each hook, the priorities in use, and for each priority the listeners in the
order of their registration.  A dispatch calls the listeners of lower priorities first.

No hook is kept without priorities and no priority without listeners.
-/

import HookAtlas.Text.CodePoint

namespace HookAtlas

/-- The listeners of one hook, by priority. -/
abbrev ListenersByPriority (ι : Type) := List (Int × List ι)

/-- The listeners of all hooks, by hook and by priority, and the counts of fired actions. -/
structure Dispatcher (ι : Type) where
  listeners : List (Text × ListenersByPriority ι)
  fired : List (Text × Nat)
deriving Repr

namespace Dispatcher

variable {ι : Type}

/-- The priority of a listener that asks for none. -/
def defaultPriority : Int :=
  10

/-- The hook whose listeners observe every dispatch. -/
def observedByAll : Text :=
  "all"

def empty : Dispatcher ι :=
  ⟨[], []⟩

/-! ## Lists that associate keys with values -/

def valueOf? {κ β : Type} [DecidableEq κ] (key : κ) : List (κ × β) → Option β
  | [] => none
  | (other, value) :: entries => if other = key then some value else valueOf? key entries

/-- Give a key a value: in its old place where it has one, else at the end. -/
def setValue {κ β : Type} [DecidableEq κ] (key : κ) (value : β) : List (κ × β) → List (κ × β)
  | [] => [(key, value)]
  | (other, old) :: entries =>
    if other = key then (key, value) :: entries else (other, old) :: setValue key value entries

def dropKey {κ β : Type} [DecidableEq κ] (key : κ) : List (κ × β) → List (κ × β)
  | [] => []
  | (other, value) :: entries =>
    if other = key then entries else (other, value) :: dropKey key entries

/-- Give a key a value, or remove it where the value is an empty list. -/
def setOrDrop {κ β : Type} [DecidableEq κ] (key : κ) (value : List β) (entries : List (κ × List β)) :
    List (κ × List β) :=
  if value.isEmpty then dropKey key entries else setValue key value entries

/-! ## Registration -/

def byPriority (dispatcher : Dispatcher ι) (hook : Text) : ListenersByPriority ι :=
  (valueOf? hook dispatcher.listeners).getD []

def add (dispatcher : Dispatcher ι) (hook : Text) (listener : ι) (priority : Int) :
    Dispatcher ι :=
  let group := (valueOf? priority (dispatcher.byPriority hook)).getD []
  let groups := setValue priority (group ++ [listener]) (dispatcher.byPriority hook)
  { dispatcher with listeners := setValue hook groups dispatcher.listeners }

/-- Remove the first registration of a listener on a hook at a priority.  Answers whether there was
one. -/
def remove [DecidableEq ι] (dispatcher : Dispatcher ι) (hook : Text) (listener : ι)
    (priority : Int) : Bool × Dispatcher ι :=
  let group := (valueOf? priority (dispatcher.byPriority hook)).getD []
  if listener ∈ group then
    let groups := setOrDrop priority (group.erase listener) (dispatcher.byPriority hook)
    (true, { dispatcher with listeners := setOrDrop hook groups dispatcher.listeners })
  else (false, dispatcher)

/-- The listeners of a hook in the order in which a dispatch calls them. -/
def callOrder (dispatcher : Dispatcher ι) (hook : Text) : List ι :=
  ((dispatcher.byPriority hook).mergeSort fun first second => first.1 ≤ second.1).flatMap Prod.snd

def hasListeners (dispatcher : Dispatcher ι) (hook : Text) : Bool :=
  !(dispatcher.callOrder hook).isEmpty

/-- Whether a listener is registered on a hook at some priority. -/
def hasListener [DecidableEq ι] (dispatcher : Dispatcher ι) (hook : Text) (listener : ι) : Bool :=
  (dispatcher.callOrder hook).any fun other => other = listener

/-! ## Counts -/

def firedCount (dispatcher : Dispatcher ι) (hook : Text) : Nat :=
  (valueOf? hook dispatcher.fired).getD 0

def countFiring (dispatcher : Dispatcher ι) (hook : Text) : Dispatcher ι :=
  { dispatcher with
    fired := setValue hook (dispatcher.firedCount hook + 1) dispatcher.fired }

end Dispatcher

end HookAtlas
