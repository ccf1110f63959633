/-
# Listeners that leave the code alone

A listener may note what it sees, register and remove listeners, dispatch hooks, insert records that were
observed at run time, drain the queue, and raise.  It may also empty in place a list or an object that it is
handed.  Settings, files and the clock stay as they are, and it gives out no generation: `SiteWorld.LeavesCode`
says this of a stretch of time, and `Host.LeavesSite` of all calls of listeners.

What such listeners do does not keep a scan from beginning.  The listeners of a site are of this kind, whatever
their scripts say and however deep they dispatch.
-/

import HookAtlas.Proofs.Site.History

namespace HookAtlas

namespace Store

/-- A store can take the records of a generation: all tables are there, and no chunk belongs to it yet. -/
structure Takes (generation : Text) (store : Store) : Prop where
  hasSchema : store.HasSchema
  isFresh : store.IsFresh generation

namespace Takes

variable {generation : Text} {store after : Store}

/-- New rows take nothing away. -/
theorem of_inserts (htakes : store.Takes generation) {group : Option Text} {records : List HookRecord}
    {rows new : List CacheRow} (hinserts : Inserts group records rows new store after) :
    after.Takes generation where
  hasSchema := by
    refine ⟨⟨_, hinserts.cache_eq⟩, ?_, ?_⟩
    · rw [hinserts.queue_eq]
      exact htakes.hasSchema.queue_eq
    · rw [hinserts.options_eq]
      exact htakes.hasSchema.options_eq
  isFresh := by
    rw [IsFresh, hinserts.queue_eq]
    exact htakes.isFresh

theorem insertBatch (htakes : store.Takes generation) (records : List HookRecord)
    (group : Option Text) : (store.insertBatch records group).state.Takes generation := by
  cases hfits : fitsBatch records with
  | false =>
      rw [insertBatch_of_overflow hfits]
      exact htakes
  | true =>
      obtain ⟨rows, hcache⟩ := htakes.hasSchema.cache_eq
      obtain ⟨new, hinserts⟩ := insertBatch_inserts hcache hfits group
      exact htakes.of_inserts hinserts

/-- Taking a chunk off the queue leaves no other chunks than before. -/
theorem popOldest (htakes : store.Takes generation) :
    (Store.popOldest store).2.Takes generation := by
  obtain ⟨chunks, hqueue⟩ := htakes.hasSchema.queue_eq
  cases chunks with
  | nil =>
      rw [popOldest_nil hqueue]
      exact htakes
  | cons chunk chunks =>
      obtain ⟨popped, hpop, hrest, hcache, hoptions, -, -⟩ := popOldest_cons hqueue
      rw [hpop]
      refine ⟨⟨?_, ⟨chunks, hrest⟩, ?_⟩, ?_⟩
      · rw [hcache]
        exact htakes.hasSchema.cache_eq
      · rw [hoptions]
        exact htakes.hasSchema.options_eq
      · intro table htable other hmem
        rw [hrest, Option.some.injEq] at htable
        rw [← htable] at hmem
        exact htakes.isFresh _ hqueue other (List.mem_cons_of_mem _ hmem)

theorem popAndWrite (htakes : store.Takes generation) :
    (HookCache.popAndWrite store).state.Takes generation := by
  have hpopped := htakes.popOldest
  rw [HookCache.popAndWrite]
  split
  · next hpop =>
      rw [hpop] at hpopped
      exact hpopped
  · next hpop =>
      rw [hpop] at hpopped
      exact hpopped
  · next hpop =>
      rw [hpop] at hpopped
      rw [HookCache.writeChunk]
      split
      · exact hpopped
      · split
        · exact hpopped
        · split
          · exact hpopped
          · dsimp only
            split
            · exact hpopped.insertBatch _ _
            · exact hpopped.insertBatch _ _

end Takes

end Store

namespace HookCache

variable {cache : HookCache} {generation : Text}

/-- Whatever happens between two replaces, the store can take the records of the next one. -/
theorem takes_perform (step : Step) (htakes : cache.store.Takes generation) :
    (step.perform cache).store.Takes generation := by
  cases hquiet : step.isQuiet with
  | true =>
      rcases store_perform hquiet cache with hstore | hstore
      · rw [hstore]
        exact htakes
      · rw [hstore]
        exact htakes.popAndWrite
  | false =>
      cases step with
      | observe observed group => exact htakes.insertBatch _ group
      | drain | runDue | runNow | schedule | cancel | restart => cases hquiet

theorem takes_run (htakes : cache.store.Takes generation) (steps : List Step) :
    (run steps cache).store.Takes generation :=
  run_of_perform (fun cache => cache.store.Takes generation)
    (fun step _ _ htakes => takes_perform step htakes) htakes

theorem run_append (first second : List Step) (cache : HookCache) :
    run (first ++ second) cache = run second (run first cache) :=
  List.foldl_append

end HookCache

namespace SiteWorld

/-- Settings, files and the clock are as before and no generation was given out.  The cache was drained, and
records that were observed at run time were inserted, any number of times. -/
structure LeavesCode (before after : SiteWorld) : Prop where
  settings_eq : after.settings = before.settings
  files_eq : after.files = before.files
  clock_eq : after.clock = before.clock
  generations_eq : after.generations = before.generations
  cache_eq : ∃ steps, after.cache = HookCache.run steps before.cache

namespace LeavesCode

variable {before after final : SiteWorld}

theorem refl (world : SiteWorld) : world.LeavesCode world :=
  ⟨rfl, rfl, rfl, rfl, [], rfl⟩

theorem trans (hfirst : before.LeavesCode after) (hsecond : after.LeavesCode final) :
    before.LeavesCode final := by
  obtain ⟨first, hcache⟩ := hfirst.cache_eq
  obtain ⟨second, hcache'⟩ := hsecond.cache_eq
  refine ⟨hsecond.settings_eq.trans hfirst.settings_eq, hsecond.files_eq.trans hfirst.files_eq,
    hsecond.clock_eq.trans hfirst.clock_eq, hsecond.generations_eq.trans hfirst.generations_eq,
    first ++ second, ?_⟩
  rw [hcache', hcache, HookCache.run_append]

/-- A world that is untouched is left alone. -/
theorem of_untouched (huntouched : before.Untouched after) : before.LeavesCode after :=
  ⟨huntouched.sameCode.settings_eq, huntouched.sameCode.files_eq, huntouched.clock_eq,
    huntouched.generations_eq, [], huntouched.cache_eq⟩

theorem now_eq (hleaves : before.LeavesCode after) : after.now = before.now := by
  rw [now, now, hleaves.clock_eq]

/-- A scan that could begin before can begin after. -/
theorem isReady (hleaves : before.LeavesCode after) (hready : before.IsReady) : after.IsReady := by
  obtain ⟨steps, hcache⟩ := hleaves.cache_eq
  have htakes := HookCache.takes_run ⟨hready.hasSchema, hready.isFresh⟩ steps
  rw [← hcache] at htakes
  refine ⟨htakes.hasSchema, ?_, ?_⟩
  · rw [hleaves.generations_eq]
    exact htakes.isFresh
  · rw [hcache]
    exact HookCache.isDraining_run hready.isDraining_eq steps

end LeavesCode

end SiteWorld

namespace Value

/-- A listener leaves an argument as it is, or empties it in place. -/
def MayBecome (value left : Value) : Prop :=
  left = value ∨ ReturnRule.emptied? value = some left

/-- Emptying a list leaves the empty list. -/
theorem mayBecome_list {items : List Value} {left : Value} (hleft : MayBecome (.list items) left) :
    left = .list items ∨ left = .list [] :=
  hleft.imp_right fun hemptied => (Option.some.inj hemptied).symm

theorem forall₂_mayBecome_refl (args : List Value) : List.Forall₂ MayBecome args args :=
  List.forall₂_same.mpr fun _ _ => .inl rfl

end Value

namespace Host

variable {ι : Type} {host : Host ι Value SiteWorld} {endless : Prop}
  {state after : Hosted ι SiteWorld} {start : SiteWorld}

/-- Every call of a listener has an answer, unless dispatches may be nested without end, and leaves the code
alone.  Of its arguments the listener at most empties some in place. -/
structure LeavesSite (host : Host ι Value SiteWorld) (endless : Prop) : Prop where
  call : ∀ listener args state, (endless ∧ host.call listener args state = none) ∨
    ∃ outcome after, host.call listener args state = some (outcome, after) ∧
      state.world.LeavesCode after.world ∧ List.Forall₂ Value.MayBecome args outcome.args
  report : ∀ round (world : SiteWorld), world.LeavesCode (host.report round world)
  nameValue_eq : host.nameValue = .text

namespace LeavesSite

/-- Since some point the code has been left alone. -/
theorem relates (hhost : host.LeavesSite endless) (start : SiteWorld) :
    host.Relates endless fun state other => state = other ∧ start.LeavesCode state.world where
  call := by
    rintro state _ ⟨rfl, hleaves⟩ listener args
    rcases hhost.call listener args state with ⟨hendless, hnone⟩ | ⟨outcome, after, hcall, hafter, -⟩
    · rw [hnone]
      exact .of_none hendless
    · rw [hcall]
      exact .of_some ⟨rfl, hleaves.trans hafter⟩
  report := by
    rintro state _ ⟨rfl, hleaves⟩ round
    exact ⟨rfl, hleaves.trans (hhost.report round _)⟩
  countFiring := by
    rintro state _ ⟨rfl, hleaves⟩ hook
    exact ⟨rfl, hleaves⟩
  callOrder := by
    rintro state _ ⟨rfl, -⟩ hook
    rfl

end LeavesSite

/-- An outcome that goes alike with itself is an answer, or it is endless. -/
theorem Alike.answers {α : Type} {outcome : Option (α × Hosted ι SiteWorld)}
    (halike : Alike endless (fun state other => state = other ∧ start.LeavesCode state.world)
      outcome outcome) :
    (endless ∧ outcome = none) ∨
      ∃ answer after, outcome = some (answer, after) ∧ start.LeavesCode after.world := by
  rcases halike with ⟨hendless, hnone, -⟩ | ⟨answer, after, _, hsome, -, -, hleaves⟩
  · exact .inl ⟨hendless, hnone⟩
  · exact .inr ⟨answer, after, hsome, hleaves⟩

end Host

namespace ReturnRule

/-- Of the arguments a rule at most empties the first one in place. -/
theorem forall₂_mayBecome_apply (rule : ReturnRule) (args : List Value) :
    List.Forall₂ Value.MayBecome args (rule.apply args).1 := by
  have hsame := Value.forall₂_mayBecome_refl args
  cases rule with
  | first | const | args | keepType | tupleReversed | addRoot | mixed => exact hsame
  | append =>
      rw [apply]
      split
      · exact hsame
      · exact hsame
  | add =>
      rw [apply]
      split
      · exact hsame
      · exact hsame
  | clear =>
      rw [apply]
      split
      · next left hemptied =>
          cases args with
          | nil => cases hemptied
          | cons value args => exact .cons (.inr hemptied) (Value.forall₂_mayBecome_refl args)
      · exact hsame

end ReturnRule

namespace Site

/-! ## The listeners of a site -/

theorem keptByListening_leavesCode (start : SiteWorld) : KeptByListening start.LeavesCode where
  noteEvent := fun hleaves event => hleaves.trans (.of_untouched (.noteEvent event _))
  noteAll := fun hleaves notices => hleaves.trans (.of_untouched (.noteAll notices _))
  setSampler := fun hleaves _ _ => hleaves.trans ⟨rfl, rfl, rfl, rfl, [], rfl⟩
  insert := fun hleaves record hruntime =>
    hleaves.trans ⟨rfl, rfl, rfl, rfl, [.observe [⟨record, hruntime⟩] none], rfl⟩

variable {host : Host ListenerId Value SiteWorld} {site after : Site} {args : List Value}
  {outcome : CallOutcome Value}

theorem mayBecome_callScript {name : Text} {script : ListenerScript}
    (hsome : callScript host name script args site = some (outcome, after)) :
    List.Forall₂ Value.MayBecome args outcome.args := by
  rw [callScript] at hsome
  dsimp only at hsome
  split at hsome
  · cases hsome
    exact Value.forall₂_mayBecome_refl args
  · split at hsome
    · cases hsome
    · cases hsome
      exact Value.forall₂_mayBecome_refl args
    · cases hsome
      exact script.rule.forall₂_mayBecome_apply args

/-- A sampler hands its arguments on. -/
theorem args_callSampler {index : Nat} {sampler : Sampler}
    (hsome : callSampler host index sampler args site = some (outcome, after)) :
    outcome.args = args := by
  cases args with
  | nil =>
      cases hsome
      rfl
  | cons hook args =>
      rw [callSampler] at hsome
      split_ifs at hsome
      · cases hsome
        rfl
      · cases hsome
        rfl
      · cases hsome
        rfl
      · dsimp only at hsome
        split at hsome
        · cases hsome
          rfl
        · split at hsome
          · cases hsome
          · cases hsome
            rfl
          · cases hsome
            rfl

theorem mayBecome_callListener {depth : Nat} {listener : ListenerId}
    (hsome : callListener depth listener args site = some (outcome, after)) :
    List.Forall₂ Value.MayBecome args outcome.args := by
  cases depth with
  | zero => cases hsome
  | succ depth =>
      cases listener with
      | scripted name =>
          rw [callListener] at hsome
          split at hsome
          · exact mayBecome_callScript hsome
          · cases hsome
            exact Value.forall₂_mayBecome_refl args
      | sampler index =>
          rw [callListener] at hsome
          split at hsome
          · rw [args_callSampler hsome]
            exact Value.forall₂_mayBecome_refl args
          · cases hsome
            exact Value.forall₂_mayBecome_refl args

/-- The listeners of a site leave the code alone. -/
theorem leavesSite_host : Site.host.LeavesSite True where
  call := by
    intro listener args site
    cases hcall : Site.host.call listener args site with
    | none => exact .inl ⟨trivial, rfl⟩
    | some ended =>
        obtain ⟨outcome, after⟩ := ended
        have hkeeps := (keptByListening_leavesCode site.world).keeps_host
        exact .inr ⟨outcome, after, rfl, hkeeps.call (.refl site.world) hcall,
          mayBecome_callListener hcall⟩
  report := fun _ _ => .of_untouched (.noteAll _ _)
  nameValue_eq := rfl

end Site

end HookAtlas
