/-
# The registry is a list of registrations

Listeners are kept by hook and by priority, and what is left empty by a removal is dropped.  After any history
of calls nobody can tell this from a plain list of registrations, to which registering appends and from which
removing erases the first that fits: removals answer the same, and all that is asked of the registry is said by
the list.  What a single call does to the tie between the two is said by `Dispatcher.Registers`.

The groups themselves are clean at all times: no hook is kept without priorities, no priority without
listeners.
-/

import HookAtlas.Proofs.Dispatch.Registration

namespace HookAtlas

variable {ι : Type}

namespace Registration

/-- Some registrations in the order of their priorities, and those of one priority in the order in which they
are given.  There is one such list. -/
structure SortedStably (sorted given : List (Registration ι)) : Prop where
  ascending : sorted.Pairwise fun entry other => entry.priority ≤ other.priority
  order_kept : ∀ priority, (sorted.filter fun entry => entry.priority = priority) =
    given.filter fun entry => entry.priority = priority

theorem sortedStably_mergeSort (given : List (Registration ι)) :
    SortedStably (given.mergeSort precedes) given where
  ascending := by
    apply (List.pairwise_mergeSort precedes_trans precedes_total given).imp
    intro entry other hprecedes
    simpa [precedes] using hprecedes
  order_kept := filter_mergeSort given

end Registration

namespace Dispatcher

/-! ## Groups that are not empty -/

section Entries

variable {κ β : Type} [DecidableEq κ] {key : κ} {value : β} {entry : κ × β} {entries : List (κ × β)}

theorem mem_of_valueOf? (hvalue : valueOf? key entries = some value) : (key, value) ∈ entries := by
  induction entries with
  | nil => cases hvalue
  | cons other entries ih =>
      obtain ⟨otherKey, old⟩ := other
      rw [valueOf?] at hvalue
      split at hvalue
      · next hkey =>
          cases hvalue
          simp [hkey]
      · exact List.mem_cons_of_mem _ (ih hvalue)

theorem mem_setValue (hmem : entry ∈ setValue key value entries) :
    entry = (key, value) ∨ entry ∈ entries := by
  induction entries with
  | nil => simpa [setValue] using hmem
  | cons other entries ih =>
      rw [setValue] at hmem
      split at hmem
      · rcases List.mem_cons.mp hmem with hnew | hold
        · exact .inl hnew
        · exact .inr (List.mem_cons_of_mem _ hold)
      · rcases List.mem_cons.mp hmem with hfirst | hrest
        · simp [hfirst]
        · apply (ih hrest).imp_right
          exact List.mem_cons_of_mem _

theorem setValue_ne_nil (key : κ) (value : β) (entries : List (κ × β)) :
    setValue key value entries ≠ [] := by
  cases entries with
  | nil => simp [setValue]
  | cons other entries =>
      rw [setValue]
      split
      · simp
      · simp

/-- Only a value that is not empty is given to a key. -/
theorem mem_setOrDrop {value : List β} {entry : κ × List β} {entries : List (κ × List β)}
    (hmem : entry ∈ setOrDrop key value entries) :
    (entry = (key, value) ∧ value ≠ []) ∨ entry ∈ entries := by
  rw [setOrDrop] at hmem
  split at hmem
  · exact .inr ((dropKey_sublist key entries).subset hmem)
  · next hvalue =>
      apply (mem_setValue hmem).imp_left
      intro hnew
      exact ⟨hnew, by simpa using hvalue⟩

end Entries

/-- No priority of a hook is without listeners. -/
def KeepsNoEmptyGroup (groups : ListenersByPriority ι) : Prop :=
  ∀ group ∈ groups, group.2 ≠ []

/-- No hook is kept without priorities, and no priority without listeners. -/
def KeepsNothingEmpty (dispatcher : Dispatcher ι) : Prop :=
  ∀ entry ∈ dispatcher.listeners, entry.2 ≠ [] ∧ KeepsNoEmptyGroup entry.2

namespace KeepsNothingEmpty

variable {dispatcher : Dispatcher ι}

theorem empty : (Dispatcher.empty : Dispatcher ι).KeepsNothingEmpty := by
  simp [KeepsNothingEmpty, Dispatcher.empty]

theorem byPriority (hclean : dispatcher.KeepsNothingEmpty) (hook : Text) :
    KeepsNoEmptyGroup (dispatcher.byPriority hook) := by
  rw [Dispatcher.byPriority]
  cases hvalue : valueOf? hook dispatcher.listeners with
  | none => simp [KeepsNoEmptyGroup]
  | some groups => exact (hclean _ (mem_of_valueOf? hvalue)).2

theorem add (hclean : dispatcher.KeepsNothingEmpty) (hook : Text) (listener : ι) (priority : Int) :
    (dispatcher.add hook listener priority).KeepsNothingEmpty := by
  intro entry hmem
  rcases mem_setValue hmem with rfl | hold
  · refine ⟨setValue_ne_nil _ _ _, ?_⟩
    intro group hgroup
    rcases mem_setValue hgroup with rfl | hold
    · simp
    · exact hclean.byPriority hook group hold
  · exact hclean entry hold

/-- A removal drops what it leaves empty. -/
theorem remove [DecidableEq ι] (hclean : dispatcher.KeepsNothingEmpty) (hook : Text) (listener : ι)
    (priority : Int) : (dispatcher.remove hook listener priority).2.KeepsNothingEmpty := by
  rw [Dispatcher.remove]
  dsimp only
  split
  · intro entry hmem
    rcases mem_setOrDrop hmem with ⟨rfl, hgroups⟩ | hold
    · refine ⟨hgroups, ?_⟩
      intro group hgroup
      rcases mem_setOrDrop hgroup with ⟨rfl, hlisteners⟩ | hold
      · exact hlisteners
      · exact hclean.byPriority hook group hold
    · exact hclean entry hold
  · exact hclean

end KeepsNothingEmpty

theorem Registers.hasListeners_iff {dispatcher : Dispatcher ι} {registrations : List (Registration ι)}
    (hregisters : dispatcher.Registers registrations) (hook : Text) :
    dispatcher.hasListeners hook = true ↔ ∃ entry ∈ registrations, entry.hook = hook := by
  have hperm := Registration.listenersOn_perm hook registrations
  rw [hasListeners, hregisters.callOrder_eq, hperm.isEmpty_eq]
  simp

end Dispatcher

/-! ## Histories -/

/-- A call that changes the registry: a registration or a removal. -/
inductive RegistryCall (ι : Type)
  | add (hook : Text) (listener : ι) (priority : Int)
  | remove (hook : Text) (listener : ι) (priority : Int)
deriving DecidableEq, Repr

namespace RegistryCall

variable [DecidableEq ι]

/-- Perform a call on the registry.  A removal answers whether it has found a registration. -/
def perform (call : RegistryCall ι) (dispatcher : Dispatcher ι) : Option Bool × Dispatcher ι :=
  match call with
  | .add hook listener priority => (none, dispatcher.add hook listener priority)
  | .remove hook listener priority =>
    let (found, dispatcher) := dispatcher.remove hook listener priority
    (some found, dispatcher)

/-- Perform a call on a list of registrations. -/
def performOnList (call : RegistryCall ι) (registrations : List (Registration ι)) :
    Option Bool × List (Registration ι) :=
  match call with
  | .add hook listener priority => (none, registrations ++ [⟨hook, priority, listener⟩])
  | .remove hook listener priority =>
    (some (⟨hook, priority, listener⟩ ∈ registrations), registrations.erase ⟨hook, priority, listener⟩)

/-- Perform calls one after the other.  Answers what each of them answers. -/
def performAll {σ : Type} (perform : RegistryCall ι → σ → Option Bool × σ) :
    List (RegistryCall ι) → σ → List (Option Bool) × σ
  | [], state => ([], state)
  | call :: calls, state =>
    let (answer, state) := perform call state
    let (answers, state) := performAll perform calls state
    (answer :: answers, state)

/-- A registry stands for a list of registrations, and keeps nothing that is empty. -/
structure Mirrors (dispatcher : Dispatcher ι) (registrations : List (Registration ι)) : Prop where
  registers : dispatcher.Registers registrations
  clean : dispatcher.KeepsNothingEmpty

variable {dispatcher : Dispatcher ι} {registrations : List (Registration ι)}

/-- One call answers the same on both sides and leaves them in step. -/
theorem mirrors_perform (hmirrors : Mirrors dispatcher registrations) (call : RegistryCall ι) :
    (call.perform dispatcher).1 = (call.performOnList registrations).1 ∧
      Mirrors (call.perform dispatcher).2 (call.performOnList registrations).2 := by
  cases call with
  | add hook listener priority =>
      have hregisters := hmirrors.registers.add hook listener priority
      exact ⟨rfl, hregisters, hmirrors.clean.add hook listener priority⟩
  | remove hook listener priority =>
      obtain ⟨hfound, hregisters⟩ := hmirrors.registers.remove hook listener priority
      exact ⟨congrArg some hfound, hregisters, hmirrors.clean.remove hook listener priority⟩

theorem mirrors_performAll (hmirrors : Mirrors dispatcher registrations)
    (calls : List (RegistryCall ι)) :
    (performAll perform calls dispatcher).1 = (performAll performOnList calls registrations).1 ∧
      Mirrors (performAll perform calls dispatcher).2
        (performAll performOnList calls registrations).2 := by
  induction calls generalizing dispatcher registrations with
  | nil => exact ⟨rfl, hmirrors⟩
  | cons call calls ih =>
      obtain ⟨hanswer, hafter⟩ := mirrors_perform hmirrors call
      obtain ⟨hanswers, hfinal⟩ := ih hafter
      simp only [performAll]
      exact ⟨by rw [hanswer, hanswers], hfinal⟩

/-- After any history the registry is its list of registrations: every removal has answered whether the list
held the registration, a dispatch calls the listeners of a hook in the stable order of their priorities, a hook
has listeners, or a certain one, exactly if the list has, and no group is empty. -/
theorem performAll_refines (calls : List (RegistryCall ι)) :
    let registry := performAll perform calls (Dispatcher.empty : Dispatcher ι)
    let flat := performAll performOnList calls ([] : List (Registration ι))
    registry.1 = flat.1 ∧
      (∀ hook, ∃ sorted,
        Registration.SortedStably sorted (flat.2.filter fun entry => entry.hook = hook) ∧
          registry.2.callOrder hook = sorted.map Registration.listener) ∧
      (∀ hook, registry.2.hasListeners hook = true ↔ ∃ entry ∈ flat.2, entry.hook = hook) ∧
      (∀ hook listener, registry.2.hasListener hook listener = true ↔
        ∃ entry ∈ flat.2, entry.hook = hook ∧ entry.listener = listener) ∧
      registry.2.KeepsNothingEmpty := by
  intro registry flat
  obtain ⟨hanswers, hregisters, hclean⟩ :=
    mirrors_performAll ⟨Dispatcher.Registers.empty, Dispatcher.KeepsNothingEmpty.empty⟩ calls
  refine ⟨hanswers, ?_, hregisters.hasListeners_iff, hregisters.hasListener_iff, hclean⟩
  intro hook
  refine ⟨_, Registration.sortedStably_mergeSort _, ?_⟩
  exact hregisters.callOrder_eq hook

end RegistryCall

end HookAtlas
