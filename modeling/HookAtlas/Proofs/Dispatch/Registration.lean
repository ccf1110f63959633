/-
# Registrations in the order in which they were made

The registry groups listeners by hook and by priority.  Its meaning is simpler: a list of registrations, the
latest last.  Registering appends to it, removing erases the first that fits, and the listeners of a hook are
those of its registrations, sorted by priority with a sort that is stable.  `Registers` ties the groups to
such a list, and every operation of the registry keeps the tie.
-/

import HookAtlas.Dispatch.Registry
import HookAtlas.Proofs.Sorting

namespace HookAtlas

/-- A listener that is registered on a hook at a priority; lower priorities are called first. -/
structure Registration (ι : Type) where
  hook : Text
  priority : Int
  listener : ι
deriving DecidableEq, Repr

namespace Registration

variable {ι : Type}

/-- Whether a registration is called before another, for all that their priorities say. -/
def precedes (first second : Registration ι) : Bool :=
  first.priority ≤ second.priority

/-- The listeners of a hook in the order of their priorities, and for one priority in the order of their
registration. -/
def listenersOn (hook : Text) (registrations : List (Registration ι)) : List ι :=
  ((registrations.filter fun entry => entry.hook = hook).mergeSort precedes).map listener

/-- The registrations on a hook at a priority. -/
def group (hook : Text) (priority : Int) (registrations : List (Registration ι)) :
    List (Registration ι) :=
  registrations.filter fun entry => entry.hook = hook ∧ entry.priority = priority

/-- The order aside, the listeners of a hook are those of its registrations. -/
theorem listenersOn_perm (hook : Text) (registrations : List (Registration ι)) :
    (listenersOn hook registrations).Perm
      ((registrations.filter fun entry => entry.hook = hook).map listener) :=
  (List.mergeSort_perm _ _).map listener

theorem mem_listenersOn {hook : Text} {other : ι} {registrations : List (Registration ι)} :
    other ∈ listenersOn hook registrations ↔
      ∃ entry ∈ registrations, entry.hook = hook ∧ entry.listener = other := by
  rw [(listenersOn_perm hook registrations).mem_iff]
  simp [and_assoc]

theorem precedes_trans (first second third : Registration ι) (hfirst : first.precedes second = true)
    (hsecond : second.precedes third = true) : first.precedes third = true := by
  simp only [precedes, decide_eq_true_eq] at hfirst hsecond ⊢
  exact Int.le_trans hfirst hsecond

theorem precedes_total (first second : Registration ι) :
    (first.precedes second || second.precedes first) = true := by
  simp only [precedes, Bool.or_eq_true, decide_eq_true_eq]
  exact Int.le_total first.priority second.priority

/-- Lists that are sorted by priority are the same if they are for each priority. -/
theorem eq_of_filter_eq {first second : List (Registration ι)}
    (hfirst : first.Pairwise fun entry other => entry.priority ≤ other.priority)
    (hsecond : second.Pairwise fun entry other => entry.priority ≤ other.priority)
    (hsame : ∀ priority, (first.filter fun entry => entry.priority = priority) =
      second.filter fun entry => entry.priority = priority) : first = second := by
  induction first generalizing second with
  | nil =>
      cases second with
      | nil => rfl
      | cons entry second => simpa using hsame entry.priority
  | cons entry first ih =>
      cases second with
      | nil => simpa using hsame entry.priority
      | cons other second =>
          have hmem : entry ∈ other :: second := by
            have hhere : entry ∈ (entry :: first).filter fun e => e.priority = entry.priority := by simp
            rw [hsame] at hhere
            exact (List.mem_filter.mp hhere).1
          have hmem' : other ∈ entry :: first := by
            have hhere : other ∈ (other :: second).filter fun e => e.priority = other.priority := by simp
            rw [← hsame] at hhere
            exact (List.mem_filter.mp hhere).1
          have hle : other.priority ≤ entry.priority := by
            rcases List.mem_cons.mp hmem with heq | htail
            · exact Int.le_of_eq (by rw [heq])
            · exact (List.pairwise_cons.mp hsecond).1 entry htail
          have hle' : entry.priority ≤ other.priority := by
            rcases List.mem_cons.mp hmem' with heq | htail
            · exact Int.le_of_eq (by rw [heq])
            · exact (List.pairwise_cons.mp hfirst).1 other htail
          have hpriority : other.priority = entry.priority := Int.le_antisymm hle hle'
          have hheads := hsame entry.priority
          simp only [List.filter_cons, hpriority, decide_true, if_true, List.cons.injEq] at hheads
          obtain ⟨rfl, htails⟩ := hheads
          congr 1
          apply ih hfirst.of_cons hsecond.of_cons
          intro priority
          have hboth := hsame priority
          by_cases hentry : entry.priority = priority
          · simpa [List.filter_cons, hentry] using hboth
          · simpa [List.filter_cons, hentry] using hboth

/-- Sorting by priority keeps the order of the registrations of one priority. -/
theorem filter_mergeSort (registrations : List (Registration ι)) (priority : Int) :
    ((registrations.mergeSort precedes).filter fun entry => entry.priority = priority) =
      registrations.filter fun entry => entry.priority = priority := by
  apply filter_mergeSort_of_related precedes_trans precedes_total
  intro entry other hentry hother
  rw [precedes, of_decide_eq_true hentry, of_decide_eq_true hother]
  exact decide_eq_true (Int.le_refl priority)

/-- Listeners of one group are the same exactly if their registrations are. -/
theorem map_listener_group_erase [DecidableEq ι] (entry : Registration ι)
    (registrations : List (Registration ι)) :
    (group entry.hook entry.priority (registrations.erase entry)).map listener =
      ((group entry.hook entry.priority registrations).map listener).erase entry.listener := by
  induction registrations with
  | nil => rfl
  | cons other registrations ih =>
      by_cases hsame : other = entry
      · simp [group, hsame]
      · rw [List.erase_cons_tail (by simpa using hsame)]
        by_cases hgroup : other.hook = entry.hook ∧ other.priority = entry.priority
        · have hlistener : other.listener ≠ entry.listener := by
            intro hlistener
            apply hsame
            cases other
            cases entry
            simp_all
          simpa [group, List.filter_cons, hgroup, List.erase_cons, hlistener] using ih
        · simpa [group, List.filter_cons, hgroup] using ih

/-- Erasing a registration concerns its own group only. -/
theorem group_erase_of_ne [DecidableEq ι] {entry : Registration ι} {hook : Text} {priority : Int}
    (hother : ¬ (entry.hook = hook ∧ entry.priority = priority))
    (registrations : List (Registration ι)) :
    group hook priority (registrations.erase entry) = group hook priority registrations := by
  induction registrations with
  | nil => rfl
  | cons other registrations ih =>
      by_cases hsame : other = entry
      · simp [group, hsame, hother]
      · rw [List.erase_cons_tail (by simpa using hsame)]
        simp only [group] at ih
        simp only [group, List.filter_cons, ih]

theorem mem_map_listener_group (entry : Registration ι) {registrations : List (Registration ι)} :
    entry.listener ∈ (group entry.hook entry.priority registrations).map listener ↔
      entry ∈ registrations := by
  constructor
  · intro hmem
    obtain ⟨other, hother, hlistener⟩ := List.mem_map.mp hmem
    obtain ⟨hregistered, hgroup⟩ := List.mem_filter.mp hother
    have hsame : other = entry := by
      cases other
      cases entry
      simp_all
    exact hsame ▸ hregistered
  · intro hmem
    exact List.mem_map.mpr ⟨entry, List.mem_filter.mpr ⟨hmem, by simp⟩, rfl⟩

/-- The registrations of a group are told by their listeners. -/
theorem map_mk_group (hook : Text) (priority : Int) (registrations : List (Registration ι)) :
    ((group hook priority registrations).map listener).map (mk hook priority) =
      group hook priority registrations := by
  have hsame : ∀ entry ∈ group hook priority registrations,
      (mk hook priority ∘ listener) entry = id entry := by
    intro entry hmem
    obtain ⟨rfl, rfl⟩ := of_decide_eq_true (List.mem_filter.mp hmem).2
    rfl
  rw [List.map_map, List.map_congr_left hsame, List.map_id]

end Registration

namespace Dispatcher

/-! ## Lists that associate keys with values -/

section Entries

variable {κ β : Type} [DecidableEq κ] {entries : List (κ × β)}

theorem valueOf?_setValue (key other : κ) (value : β) (entries : List (κ × β)) :
    valueOf? other (setValue key value entries) =
      if other = key then some value else valueOf? other entries := by
  induction entries with
  | nil => grind [setValue, valueOf?]
  | cons entry entries ih => grind [setValue, valueOf?]

theorem valueOf?_eq_none {key : κ} (hkey : key ∉ entries.map Prod.fst) : valueOf? key entries = none := by
  induction entries with
  | nil => rfl
  | cons entry entries ih => grind [valueOf?]

theorem valueOf?_eq_some_iff (hkeys : (entries.map Prod.fst).Nodup) {key : κ} {value : β} :
    valueOf? key entries = some value ↔ (key, value) ∈ entries := by
  induction entries with
  | nil => simp [valueOf?]
  | cons entry entries ih =>
      obtain ⟨first, old⟩ := entry
      obtain ⟨hfirst, hothers⟩ := List.nodup_cons.mp hkeys
      rw [valueOf?]
      split
      · next heq =>
          have hnew : (key, value) ∉ entries := by
            intro hmem
            exact hfirst (List.mem_map.mpr ⟨(key, value), hmem, heq.symm⟩)
          simp [heq, hnew, eq_comm]
      · next hne => simp [ih hothers, Ne.symm hne]

/-- Where keys occur once, their order does not matter. -/
theorem valueOf?_perm {others : List (κ × β)} (hkeys : (entries.map Prod.fst).Nodup)
    (hperm : entries.Perm others) (key : κ) : valueOf? key entries = valueOf? key others := by
  have hkeys' : (others.map Prod.fst).Nodup := (hperm.map Prod.fst).nodup hkeys
  apply Option.ext
  intro value
  rw [valueOf?_eq_some_iff hkeys, valueOf?_eq_some_iff hkeys', hperm.mem_iff]

theorem valueOf?_dropKey (hkeys : (entries.map Prod.fst).Nodup) (key other : κ) :
    valueOf? other (dropKey key entries) = if other = key then none else valueOf? other entries := by
  induction entries with
  | nil => simp [dropKey, valueOf?]
  | cons entry entries ih =>
      obtain ⟨first, value⟩ := entry
      obtain ⟨hfirst, hothers⟩ := List.nodup_cons.mp hkeys
      have hnone := valueOf?_eq_none hfirst
      grind [dropKey, valueOf?]

theorem keys_setValue (key : κ) (value : β) (entries : List (κ × β)) :
    (setValue key value entries).map Prod.fst =
      if key ∈ entries.map Prod.fst then entries.map Prod.fst else entries.map Prod.fst ++ [key] := by
  induction entries with
  | nil => rfl
  | cons entry entries ih => grind [setValue]

theorem nodup_keys_setValue (hkeys : (entries.map Prod.fst).Nodup) (key : κ) (value : β) :
    ((setValue key value entries).map Prod.fst).Nodup := by
  rw [keys_setValue]
  split
  · exact hkeys
  · next hnew =>
      rw [List.nodup_append]
      refine ⟨hkeys, by simp, ?_⟩
      intro old hold new hmem heq
      rw [List.mem_singleton.mp hmem] at heq
      exact hnew (heq ▸ hold)

theorem dropKey_sublist (key : κ) (entries : List (κ × β)) : (dropKey key entries).Sublist entries := by
  induction entries with
  | nil => exact .slnil
  | cons entry entries ih =>
      obtain ⟨first, value⟩ := entry
      rw [dropKey]
      split
      · exact List.sublist_cons_self _ _
      · exact ih.cons_cons _

theorem nodup_keys_setOrDrop {entries : List (κ × List β)} (hkeys : (entries.map Prod.fst).Nodup)
    (key : κ) (value : List β) : ((setOrDrop key value entries).map Prod.fst).Nodup := by
  rw [setOrDrop]
  split
  · exact hkeys.sublist ((dropKey_sublist key entries).map Prod.fst)
  · exact nodup_keys_setValue hkeys key value

/-- A key without a value has the empty list. -/
theorem getD_valueOf?_setOrDrop {entries : List (κ × List β)} (hkeys : (entries.map Prod.fst).Nodup)
    (key other : κ) (value : List β) :
    (valueOf? other (setOrDrop key value entries)).getD [] =
      if other = key then value else (valueOf? other entries).getD [] := by
  rw [setOrDrop]
  split
  · next hempty =>
      rw [valueOf?_dropKey hkeys]
      split
      · exact (List.isEmpty_iff.mp hempty).symm
      · rfl
  · rw [valueOf?_setValue]
    split
    · rfl
    · rfl

end Entries

/-! ## The registry as a list of registrations -/

variable {ι : Type} {dispatcher : Dispatcher ι} {registrations : List (Registration ι)}

/-- The groups of a registry are those of a list of registrations. -/
structure Registers (dispatcher : Dispatcher ι) (registrations : List (Registration ι)) : Prop where
  hooks_nodup : (dispatcher.listeners.map Prod.fst).Nodup
  priorities_nodup : ∀ hook, ((dispatcher.byPriority hook).map Prod.fst).Nodup
  group_eq : ∀ hook priority, (valueOf? priority (dispatcher.byPriority hook)).getD [] =
    (Registration.group hook priority registrations).map Registration.listener

namespace Registers

theorem empty : (Dispatcher.empty : Dispatcher ι).Registers [] where
  hooks_nodup := List.nodup_nil
  priorities_nodup := fun _ => List.nodup_nil
  group_eq := fun _ _ => rfl

/-- Counting a firing concerns no listener. -/
theorem countFiring (hregisters : dispatcher.Registers registrations) (hook : Text) :
    (dispatcher.countFiring hook).Registers registrations :=
  ⟨hregisters.hooks_nodup, hregisters.priorities_nodup, hregisters.group_eq⟩

/-- Registering a listener appends its registration. -/
theorem add (hregisters : dispatcher.Registers registrations) (hook : Text) (listener : ι)
    (priority : Int) :
    (dispatcher.add hook listener priority).Registers (registrations ++ [⟨hook, priority, listener⟩]) := by
  have hgroups : ∀ other, (dispatcher.add hook listener priority).byPriority other =
      if other = hook then
        setValue priority ((valueOf? priority (dispatcher.byPriority hook)).getD [] ++ [listener])
          (dispatcher.byPriority hook)
      else dispatcher.byPriority other := by
    intro other
    simp only [byPriority, Dispatcher.add, valueOf?_setValue]
    split
    · rfl
    · rfl
  constructor
  · exact nodup_keys_setValue hregisters.hooks_nodup hook _
  · intro other
    rw [hgroups]
    split
    · exact nodup_keys_setValue (hregisters.priorities_nodup hook) priority _
    · exact hregisters.priorities_nodup other
  · intro other otherPriority
    have hold := hregisters.group_eq other otherPriority
    rw [hgroups]
    by_cases hhook : other = hook
    · subst hhook
      by_cases hpriority : otherPriority = priority
      · subst hpriority
        simp [valueOf?_setValue, hold, Registration.group, List.filter_append]
      · have hpriority' : ¬ priority = otherPriority := fun heq => hpriority heq.symm
        simpa [valueOf?_setValue, hpriority, hpriority', Registration.group, List.filter_append] using hold
    · have hhook' : ¬ hook = other := fun heq => hhook heq.symm
      simpa [hhook, hhook', Registration.group, List.filter_append] using hold

/-- Removing a listener erases its first registration, and answers whether there was one. -/
theorem remove [DecidableEq ι] (hregisters : dispatcher.Registers registrations) (hook : Text)
    (listener : ι) (priority : Int) :
    (dispatcher.remove hook listener priority).1 =
        decide (⟨hook, priority, listener⟩ ∈ registrations) ∧
      (dispatcher.remove hook listener priority).2.Registers
        (registrations.erase ⟨hook, priority, listener⟩) := by
  have hmem : listener ∈ (valueOf? priority (dispatcher.byPriority hook)).getD [] ↔
      (⟨hook, priority, listener⟩ : Registration ι) ∈ registrations := by
    rw [hregisters.group_eq]
    exact Registration.mem_map_listener_group ⟨hook, priority, listener⟩
  rw [Dispatcher.remove]
  by_cases hregistered : (⟨hook, priority, listener⟩ : Registration ι) ∈ registrations
  · rw [if_pos (hmem.mpr hregistered), decide_eq_true hregistered]
    refine ⟨rfl, ?_⟩
    have hgroups : ∀ other,
        ({ dispatcher with
            listeners := setOrDrop hook
              (setOrDrop priority (((valueOf? priority (dispatcher.byPriority hook)).getD []).erase listener)
                (dispatcher.byPriority hook))
              dispatcher.listeners } : Dispatcher ι).byPriority other =
          if other = hook then
            setOrDrop priority (((valueOf? priority (dispatcher.byPriority hook)).getD []).erase listener)
              (dispatcher.byPriority hook)
          else dispatcher.byPriority other :=
      fun other => getD_valueOf?_setOrDrop hregisters.hooks_nodup hook other _
    constructor
    · exact nodup_keys_setOrDrop hregisters.hooks_nodup hook _
    · intro other
      rw [hgroups]
      split
      · exact nodup_keys_setOrDrop (hregisters.priorities_nodup hook) priority _
      · exact hregisters.priorities_nodup other
    · intro other otherPriority
      rw [hgroups]
      by_cases hhook : other = hook
      · subst hhook
        rw [if_pos rfl, getD_valueOf?_setOrDrop (hregisters.priorities_nodup other)]
        by_cases hpriority : otherPriority = priority
        · subst hpriority
          rw [if_pos rfl, hregisters.group_eq,
            Registration.map_listener_group_erase ⟨other, otherPriority, listener⟩]
        · rw [if_neg hpriority, hregisters.group_eq, Registration.group_erase_of_ne]
          exact fun hgroup => hpriority hgroup.2.symm
      · rw [if_neg hhook, hregisters.group_eq, Registration.group_erase_of_ne]
        exact fun hgroup => hhook hgroup.1.symm
  · rw [if_neg (mt hmem.mp hregistered), decide_eq_false hregistered, List.erase_of_not_mem hregistered]
    exact ⟨rfl, hregisters⟩

/-- The registrations of a hook, group by group. -/
def ofGroups (hook : Text) (groups : ListenersByPriority ι) : List (Registration ι) :=
  groups.flatMap fun entry => entry.2.map (Registration.mk hook entry.1)

theorem filter_ofGroups (hook : Text) (priority : Int) {groups : ListenersByPriority ι}
    (hkeys : (groups.map Prod.fst).Nodup) :
    ((ofGroups hook groups).filter fun entry => entry.priority = priority) =
      ((valueOf? priority groups).getD []).map (Registration.mk hook priority) := by
  induction groups with
  | nil => rfl
  | cons entry groups ih =>
      obtain ⟨first, listeners⟩ := entry
      obtain ⟨hfirst, hothers⟩ := List.nodup_cons.mp hkeys
      have hrest := ih hothers
      rw [ofGroups, List.flatMap_cons, List.filter_append, ← ofGroups, hrest, valueOf?]
      split
      · next heq =>
          subst heq
          have hall : (listeners.map (Registration.mk hook first)).filter
              (fun entry => entry.priority = first) = listeners.map (Registration.mk hook first) := by
            simp [List.filter_eq_self]
          simp [valueOf?_eq_none hfirst, hall]
      · next hne => simp [List.filter_map, Function.comp_def, hne]

theorem pairwise_ofGroups (hook : Text) {groups : ListenersByPriority ι}
    (hsorted : groups.Pairwise fun first second => first.1 ≤ second.1) :
    (ofGroups hook groups).Pairwise fun entry other => entry.priority ≤ other.priority := by
  rw [ofGroups, List.pairwise_flatMap]
  constructor
  · intro entry _
    rw [List.pairwise_map]
    exact List.pairwise_of_forall fun _ _ => Int.le_refl entry.1
  · apply hsorted.imp
    intro first second hle entry hentry other hother
    obtain ⟨_, _, rfl⟩ := List.mem_map.mp hentry
    obtain ⟨_, _, rfl⟩ := List.mem_map.mp hother
    exact hle

/-- A dispatch calls the listeners of a hook in the order of their priorities, and those of one priority in
the order of their registration. -/
theorem callOrder_eq (hregisters : dispatcher.Registers registrations) (hook : Text) :
    dispatcher.callOrder hook = Registration.listenersOn hook registrations := by
  let groups := (dispatcher.byPriority hook).mergeSort fun first second => first.1 ≤ second.1
  have hperm : groups.Perm (dispatcher.byPriority hook) := List.mergeSort_perm _ _
  have hkeys : (groups.map Prod.fst).Nodup :=
    (hperm.map Prod.fst).symm.nodup (hregisters.priorities_nodup hook)
  have hsorted : groups.Pairwise fun first second => first.1 ≤ second.1 := by
    apply (List.pairwise_mergeSort (by grind) (by grind) _).imp
    intro first second hle
    exact of_decide_eq_true hle
  have hordered : ofGroups hook groups =
      (registrations.filter fun entry => entry.hook = hook).mergeSort Registration.precedes := by
    apply Registration.eq_of_filter_eq (pairwise_ofGroups hook hsorted)
    · apply (List.pairwise_mergeSort Registration.precedes_trans Registration.precedes_total _).imp
      intro first second hle
      exact of_decide_eq_true hle
    · intro priority
      rw [filter_ofGroups hook priority hkeys, valueOf?_perm hkeys hperm, hregisters.group_eq,
        Registration.filter_mergeSort, List.filter_filter, Registration.map_mk_group]
      apply List.filter_congr
      intro entry _
      simp [and_comm]
  rw [Registration.listenersOn, ← hordered, ofGroups, List.map_flatMap, callOrder]
  simp [groups, Function.comp_def]

theorem hasListener_iff [DecidableEq ι] (hregisters : dispatcher.Registers registrations) (hook : Text)
    (listener : ι) :
    dispatcher.hasListener hook listener = true ↔
      ∃ entry ∈ registrations, entry.hook = hook ∧ entry.listener = listener := by
  rw [← Registration.mem_listenersOn, ← hregisters.callOrder_eq]
  simp [hasListener]

end Registers

end Dispatcher

end HookAtlas
