/-
# Which roots a scan goes through

A scan takes its roots from the value that comes out of the filter, if that is a list or a tuple of source roots,
and takes the configured roots otherwise.  Then it announces these roots, and it hands the listeners of the
announcement the very list that it goes through afterwards.  A listener that empties this list in place leaves
the scan nothing to go through, so only as long as none does are the chosen roots the ones that are scanned.

As in all statements about scans, a relative root starts at the root directory.

Nothing else that listeners do has a part in what is written: the static rows are those of the call sites below
the roots that were gone through, whatever the listeners of the announcement and of the end of the scan do.
-/

import HookAtlas.Proofs.Dispatch.Calls
import HookAtlas.Proofs.Site.Attribution
import HookAtlas.Proofs.Site.Bystanders

namespace HookAtlas

namespace Value

variable {value : Value} {configured roots : List (SourceRoot Text)}

/-- The roots that a filtered value chooses: its members if it is a list or a tuple of source roots, and the
configured ones otherwise. -/
def Chooses (value : Value) (configured chosen : List (SourceRoot Text)) : Prop :=
  value = .ofRoots chosen ∨ value = .tuple (chosen.map .root) ∨
    (chosen = configured ∧ ∀ roots, value ≠ .ofRoots roots ∧ value ≠ .tuple (roots.map .root))

theorem mapM_root?_eq_some {items : List Value} (hroots : items.mapM root? = some roots) :
    items = roots.map .root := by
  induction items generalizing roots with
  | nil =>
      cases hroots
      rfl
  | cons item items ih =>
      rw [List.mapM_cons] at hroots
      obtain ⟨known, hknown, hroots⟩ := Option.bind_eq_some_iff.mp hroots
      obtain ⟨others, hothers, hroots⟩ := Option.bind_eq_some_iff.mp hroots
      cases hroots
      rw [List.map_cons, ← ih hothers]
      cases item with
      | root value =>
          cases hknown
          rfl
      | null | bool | int | float | text | list | tuple | object => cases hknown

theorem roots?_tuple (roots : List (SourceRoot Text)) : (tuple (roots.map .root)).roots? = some roots :=
  roots?_ofRoots roots

/-- What a value chooses is read off its members. -/
theorem chooses_getD (value : Value) (configured : List (SourceRoot Text)) :
    value.Chooses configured (value.roots?.getD configured) := by
  cases hroots : value.roots? with
  | none =>
      refine .inr (.inr ⟨rfl, fun roots => ⟨?_, ?_⟩⟩)
      · rintro rfl
        rw [roots?_ofRoots] at hroots
        cases hroots
      · rintro rfl
        rw [roots?_tuple] at hroots
        cases hroots
  | some roots =>
      obtain ⟨items, hitems, hmembers⟩ := Option.bind_eq_some_iff.mp hroots
      rw [mapM_root?_eq_some hmembers] at hitems
      cases value with
      | list =>
          cases hitems
          exact .inl rfl
      | tuple =>
          cases hitems
          exact .inr (.inl rfl)
      | null | bool | int | float | text | object | root => cases hitems

/-- Of arguments that end in a list, and of which no other one can be emptied, at most the list is emptied. -/
theorem eq_of_mayBecome_append_list {front items left : List Value}
    (hfront : ∀ value ∈ front, ReturnRule.emptied? value = none)
    (hleft : List.Forall₂ MayBecome (front ++ [.list items]) left) :
    left = front ++ [.list items] ∨ left = front ++ [.list []] := by
  induction front generalizing left with
  | nil =>
      obtain ⟨last, rest, hlast, hrest, rfl⟩ := List.forall₂_cons_left_iff.mp hleft
      rw [List.forall₂_nil_left_iff.mp hrest]
      rcases mayBecome_list hlast with rfl | rfl
      · exact .inl rfl
      · exact .inr rfl
  | cons value front ih =>
      obtain ⟨same, rest, hsame, hrest, rfl⟩ := List.forall₂_cons_left_iff.mp hleft
      have hvalue : same = value := by
        rcases hsame with hsame | hemptied
        · exact hsame
        · rw [hfront value List.mem_cons_self] at hemptied
          cases hemptied
      rw [hvalue]
      exact (ih (fun other hmem => hfront other (List.mem_cons_of_mem _ hmem)) hrest).imp
        (congrArg (value :: ·)) (congrArg (value :: ·))

end Value

/-- The listener left its arguments as it got them. -/
def Call.KeepsArgs {ι ν σ : Type} (call : Call ι ν σ) : Prop :=
  call.outcome.args = call.args

/-- What calls that hand a list of roots on leave of it to go through: nothing if one of them has emptied it. -/
def GoesThrough {ι : Type} (chosen : List (SourceRoot Text)) (calls : List (Call ι Value SiteWorld))
    (scanned : List (SourceRoot Text)) : Prop :=
  (scanned = chosen ∧ ∀ call ∈ calls, call.KeepsArgs) ∨ (scanned = [] ∧ ∃ call ∈ calls, ¬ call.KeepsArgs)

namespace Host

variable {ι : Type} {host : Host ι Value SiteWorld} {endless : Prop} {options : ScanOptions}
  {state middle final : Hosted ι SiteWorld} {calls : List (Call ι Value SiteWorld)}
  {roots : List (SourceRoot Text)} {front items left : List Value}

/-! ## The announcement -/

/-- The calls of the announcement of some roots: those of the listeners of `all`, and then, with the arguments
that these leave, those of the listeners of the action. -/
inductive Announces (host : Host ι Value SiteWorld) (roots : List (SourceRoot Text))
    (start : Hosted ι SiteWorld) : List (Call ι Value SiteWorld) → Hosted ι SiteWorld → Prop
  | intro {observing acting : List (Call ι Value SiteWorld)} {seen left : List Value}
      {middle final : Hosted ι SiteWorld} :
      InTurn host .observing observing [host.nameValue ScanHook.before, .ofRoots roots]
        (start.countFiring ScanHook.before) seen middle →
      observing.map Call.listener =
        (start.countFiring ScanHook.before).dispatcher.callOrder Dispatcher.observedByAll →
      InTurn host .action acting (seen.drop 1) middle left final →
      acting.map Call.listener = middle.dispatcher.callOrder ScanHook.before →
      Announces host roots start (observing ++ acting) final

/-- An action calls the listeners of `all` and then, with the arguments that these leave, its own. -/
theorem exists_inTurn_doAction {hook : Text} {args : List Value}
    (hsome : host.doAction hook args state = some (left, final)) :
    ∃ observing acting seen middle,
      InTurn host .observing observing (host.nameValue hook :: args) (state.countFiring hook) seen middle ∧
      observing.map Call.listener =
        (state.countFiring hook).dispatcher.callOrder Dispatcher.observedByAll ∧
      InTurn host .action acting (seen.drop 1) middle left final ∧
      acting.map Call.listener = middle.dispatcher.callOrder hook := by
  rw [doAction, ← Hosted.countFiring] at hsome
  split at hsome
  · cases hsome
  · next handed middle hnotify =>
      rw [notifyAll] at hnotify
      obtain ⟨⟨seen, _⟩, hobserve, hpair⟩ := Option.map_eq_some_iff.mp hnotify
      cases hpair
      obtain ⟨observing, hobservers, hobserving⟩ := exists_inTurn_callEach (by decide) hobserve
      obtain ⟨acting, hlisteners, hacting⟩ := exists_inTurn_callEach (by decide) hsome
      exact ⟨observing, acting, seen, middle, hobserving, hobservers, hacting, hlisteners⟩

namespace LeavesSite

variable (hhost : host.LeavesSite endless)

include hhost

/-- Arguments that end in a list are handed from call to call as they are, up to a call that empties the list. -/
theorem left_of_inTurn {round : Round} (hround : round ≠ .filter)
    (hfront : ∀ value ∈ front, ReturnRule.emptied? value = none)
    (hturn : InTurn host round calls (front ++ [.list items]) state left final) :
    (left = front ++ [.list items] ∧ ∀ call ∈ calls, call.KeepsArgs) ∨
      (left = front ++ [.list []] ∧ ∃ call ∈ calls, ¬ call.KeepsArgs) := by
  induction calls generalizing items state with
  | nil =>
      cases hturn
      exact .inl ⟨rfl, fun call hmem => absurd hmem List.not_mem_nil⟩
  | cons made calls ih =>
      cases hturn with
      | @cons listener _ _ outcome _ after _ _ hmade hrest =>
          rw [handOn_of_ne hround] at hrest
          have hargs : List.Forall₂ Value.MayBecome (front ++ [.list items]) outcome.args := by
            rcases hhost.call listener (front ++ [.list items]) state with
              ⟨-, hnone⟩ | ⟨_, _, hcall, -, hargs⟩
            · rw [hnone] at hmade
              cases hmade
            · rw [hcall] at hmade
              cases hmade
              exact hargs
          by_cases hkeeps : outcome.args = front ++ [.list items]
          · rw [hkeeps] at hrest
            refine (ih hrest).imp (fun ⟨hleft, hall⟩ => ⟨hleft, ?_⟩) (fun ⟨hleft, hsome⟩ => ⟨hleft, ?_⟩)
            · exact List.forall_mem_cons.mpr ⟨hkeeps, hall⟩
            · exact List.exists_mem_cons_of_exists hsome
          · -- The list is empty from here on.
            rw [(Value.eq_of_mayBecome_append_list hfront hargs).resolve_left hkeeps] at hrest
            refine .inr ⟨?_, _, List.mem_cons_self, hkeeps⟩
            rcases ih hrest with ⟨hleft, -⟩ | ⟨hleft, -⟩
            · exact hleft
            · exact hleft

/-- What an announcement leaves of the roots, and in which state. -/
theorem announceRoots (roots : List (SourceRoot Text)) (state : Hosted ι SiteWorld) :
    (endless ∧ host.announceRoots roots state = none) ∨
      ∃ calls scanned announced, host.announceRoots roots state = some (scanned, announced) ∧
        host.Announces roots state calls announced ∧ GoesThrough roots calls scanned ∧
        state.world.LeavesCode announced.world := by
  have hanswers := (hhost.relates state.world).doAction ScanHook.before [.ofRoots roots]
    ⟨rfl, .refl state.world⟩
  rcases hanswers.answers with ⟨hendless, hnone⟩ | ⟨left, announced, haction, hleaves⟩
  · refine .inl ⟨hendless, ?_⟩
    rw [Host.announceRoots, hnone]
  · obtain ⟨observing, acting, seen, middle, hobserving, hobservers, hacting, hlisteners⟩ :=
      exists_inTurn_doAction haction
    have hannounces := Announces.intro hobserving hobservers hacting hlisteners
    refine .inr ⟨observing ++ acting, (left.head?.bind Value.roots?).getD roots, announced, ?_,
      hannounces, ?_, hleaves⟩
    · rw [Host.announceRoots, haction]
    · have hname : ∀ value ∈ [host.nameValue ScanHook.before], ReturnRule.emptied? value = none := by
        rw [hhost.nameValue_eq]
        simp [ReturnRule.emptied?]
      have hnone : ∀ value ∈ ([] : List Value), ReturnRule.emptied? value = none :=
        fun value hmem => absurd hmem List.not_mem_nil
      rcases hhost.left_of_inTurn (by decide) hname hobserving with
        ⟨rfl, hobserved⟩ | ⟨rfl, call, hmem, hemptied⟩
      · rcases hhost.left_of_inTurn (by decide) hnone hacting with
          ⟨rfl, hacted⟩ | ⟨rfl, call, hmem, hemptied⟩
        · refine .inl ⟨?_, List.forall_mem_append.mpr ⟨hobserved, hacted⟩⟩
          exact congrArg (Option.getD · roots) (Value.roots?_ofRoots roots)
        · exact .inr ⟨rfl, call, List.mem_append_right _ hmem, hemptied⟩
      · -- An emptied list stays empty, whatever the listeners of the action do.
        refine .inr ⟨?_, call, List.mem_append_left _ hmem, hemptied⟩
        rcases hhost.left_of_inTurn (by decide) hnone hacting with ⟨rfl, -⟩ | ⟨rfl, -⟩
        · rfl
        · rfl

/-! ## The filter -/

/-- The roots that the filter chooses. -/
theorem filterRoots (configured : List (SourceRoot Text)) (state : Hosted ι SiteWorld) :
    (endless ∧ host.filterRoots configured state = none) ∨
      ∃ value filtered chosen begun,
        host.applyFilters ScanHook.roots (.ofRoots configured) [] state = some (value, filtered) ∧
        host.filterRoots configured state = some (chosen, begun) ∧ value.Chooses configured chosen ∧
        state.world.LeavesCode begun.world := by
  have hanswers := (hhost.relates state.world).applyFilters ScanHook.roots (.ofRoots configured) []
    ⟨rfl, .refl state.world⟩
  rcases hanswers.answers with ⟨hendless, hnone⟩ | ⟨value, filtered, hfilter, hleaves⟩
  · refine .inl ⟨hendless, ?_⟩
    rw [Host.filterRoots, hnone]
  · have hchooses := value.chooses_getD configured
    cases hroots : value.roots? with
    | none =>
        rw [hroots] at hchooses
        refine .inr ⟨value, filtered, configured, filtered.mapWorld (·.noteAll [.rootFilterIgnored]), hfilter,
          ?_, hchooses, hleaves.trans (.of_untouched (.noteAll _ _))⟩
        rw [Host.filterRoots, hfilter]
        dsimp only
        rw [hroots]
    | some roots =>
        rw [hroots] at hchooses
        refine .inr ⟨value, filtered, roots, filtered, hfilter, ?_, hchooses, hleaves⟩
        rw [Host.filterRoots, hfilter]
        dsimp only
        rw [hroots]

end LeavesSite

end Host

/-! ## The pass over the roots -/

namespace SiteWorld

variable {before after begun ended : SiteWorld} {roots : List Path} {answer : Except ScanError Nat}

/-- A scan goes through some roots, and listeners act before and after that. -/
structure Scans (before : SiteWorld) (roots : List Path) (answer : Except ScanError Nat)
    (after : SiteWorld) : Prop where
  pass : ∃ begun ended, before.LeavesCode begun ∧ begun.scanRoots roots = (answer, ended) ∧
    ended.LeavesCode after
  /-- If a scan can begin and the clock shows a time, the answer is the number of call sites below the roots, and
  the static rows together with what is queued are their records. -/
  outcome : before.IsReady → ∀ now, before.now = .ok now →
    answer = .ok (callSitesBelow before.settings before.files roots).length ∧
      ∃ rows chunks queued, after.cache.store.AccountsFor
        ((callSitesBelow before.settings before.files roots).map (recordOfFound before.settings now))
        (generationName after.generations) rows chunks queued

/-- The outcome of a pass depends on nothing that the listeners do before and after it. -/
theorem Scans.of_pass (hbegun : before.LeavesCode begun) (hscan : begun.scanRoots roots = (answer, ended))
    (hended : ended.LeavesCode after) : before.Scans roots answer after where
  pass := ⟨begun, ended, hbegun, hscan, hended⟩
  outcome := by
    intro hready now hnow
    have hbegunReady := hbegun.isReady hready
    obtain ⟨hanswer, hleaves⟩ := scanRoots_leaves hbegunReady (hbegun.now_eq.trans hnow) roots
    obtain ⟨rows, hcache⟩ := hbegunReady.hasSchema.cache_eq
    rw [hscan, hbegun.settings_eq, hbegun.files_eq] at hanswer hleaves
    obtain ⟨kept, chunks, written, queued, hholds, hrecords, -⟩ := hleaves.keeps rows hcache
    obtain ⟨steps, hsteps⟩ := hended.cache_eq
    have haccounts :=
      (HookCache.run_keeps steps ⟨kept, chunks, written, queued, hholds, hrecords⟩).accountsFor
    rw [hbegun.settings_eq] at haccounts
    refine ⟨hanswer, ?_⟩
    rw [hsteps, hended.generations_eq]
    exact haccounts

end SiteWorld

namespace Host

variable {ι : Type} {host : Host ι Value SiteWorld} {endless : Prop}

/-- A scan goes through the announced roots, and then listeners may act. -/
theorem LeavesSite.scan_of_announcedRoots (hhost : host.LeavesSite endless) {options : ScanOptions}
    {state announced : Hosted ι SiteWorld} {roots : List Path}
    (hroots : host.announcedRoots options state = some (roots, announced)) :
    (endless ∧ host.scan options state = none) ∨
      ∃ answer ended final, announced.world.scanRoots roots = (answer, ended) ∧
        host.scan options state = some (answer, final) ∧ ended.LeavesCode final.world := by
  rw [Host.scan_of_announcedRoots hroots]
  rcases announced.world.scanRoots roots with ⟨error | handled, world⟩
  · exact .inr ⟨.error error, world, { announced with world }, rfl, rfl, .refl world⟩
  · dsimp only
    let ended : Hosted ι SiteWorld := { announced with world }
    have hended : ended = ended ∧ world.LeavesCode ended.world := ⟨rfl, .refl world⟩
    have hanswers := (hhost.relates world).doAction ScanHook.complete [.int (Int.ofNat handled)] hended
    rcases hanswers.answers with ⟨hendless, hnone⟩ | ⟨left, final, haction, hfinal⟩
    · refine .inl ⟨hendless, ?_⟩
      rw [hnone]
      rfl
    · refine .inr ⟨.ok handled, world, final, rfl, ?_, hfinal⟩
      rw [haction]
      rfl

/-- A scan goes through the roots that the filtered value chooses, if no listener that is told of them empties the
list of them in place, and through none if one does.  Nothing else that listeners do concerns what is scanned and
which static rows are written. -/
theorem scan_goesThrough_chosen (hhost : host.LeavesSite endless) (options : ScanOptions)
    (state : Hosted ι SiteWorld) :
    let configured := (state.world.settings.enabledRoots options).map SourceRoot.declared
    (endless ∧ host.scan options state = none) ∨
      ∃ value filtered chosen begun calls announced scanned answer final,
        host.applyFilters ScanHook.roots (.ofRoots configured) [] state = some (value, filtered) ∧
        value.Chooses configured chosen ∧
        host.filterRoots configured state = some (chosen, begun) ∧
        host.Announces chosen begun calls announced ∧
        GoesThrough chosen calls scanned ∧
        host.scan options state = some (answer, final) ∧
        state.world.Scans (scanned.map SourceRoot.path) answer final.world := by
  intro configured
  rcases hhost.filterRoots configured state with
    ⟨hendless, hnone⟩ | ⟨value, filtered, chosen, begun, hvalue, hfilter, hchooses, hbegun⟩
  · refine .inl ⟨hendless, ?_⟩
    rw [scan, hnone]
  rcases hhost.announceRoots chosen begun with
    ⟨hendless, hnone⟩ | ⟨calls, scanned, announced, hannounce, hcalls, hgoes, hannounced⟩
  · refine .inl ⟨hendless, ?_⟩
    rw [scan, hfilter]
    dsimp only
    rw [hnone]
  have hroots : host.announcedRoots options state = some (scanned.map SourceRoot.path, announced) := by
    rw [announcedRoots, hfilter]
    dsimp only
    rw [hannounce]
    rfl
  have hleaves := hbegun.trans hannounced
  rcases hhost.scan_of_announcedRoots hroots with
    ⟨hendless, hnone⟩ | ⟨answer, ended, final, hpass, hscan, hended⟩
  · exact .inl ⟨hendless, hnone⟩
  · exact .inr ⟨value, filtered, chosen, begun, calls, announced, scanned, answer, final, hvalue, hchooses,
      hfilter, hcalls, hgoes, hscan, .of_pass hleaves hpass hended⟩

end Host

namespace Site

/-! ## A listener that keeps the plugins -/

/-- The listener makes the scan go through the root of the plugins. -/
theorem scan_goesThrough_chosen_pluginSite :
    let site := pluginSite 0 .empty (.timer none) 1
    let configured := (site.world.settings.enabledRoots .standard).map SourceRoot.declared
    Site.host.LeavesSite True ∧ site.world.IsReady ∧
      ∃ value filtered chosen begun calls announced scanned answer final,
        Site.host.applyFilters ScanHook.roots (.ofRoots configured) [] site = some (value, filtered) ∧
        value.Chooses configured chosen ∧
        Site.host.filterRoots configured site = some (chosen, begun) ∧
        Site.host.Announces chosen begun calls announced ∧
        GoesThrough chosen calls scanned ∧
        Site.host.scan .standard site = some (answer, final) ∧
        site.world.Scans (scanned.map SourceRoot.path) answer final.world := by
  intro site configured
  refine ⟨leavesSite_host, isReady_empty, ?_⟩
  rcases Host.scan_goesThrough_chosen leavesSite_host .standard site with ⟨-, hnone⟩ | hscans
  · -- The listener dispatches nothing, so the scan has an answer.
    have hignores := ignoresHistory_pluginSite 0 .empty (.timer none) 1
    obtain ⟨roots, announced, _, hroots, _, hagree⟩ :=
      hignores.exists_announcedRoots (.refl site.world) (.refl site.world) rfl .standard
    obtain ⟨answer, after, hscan, -, -⟩ :=
      hignores.exists_scan (.refl site.world) isReady_empty hroots hagree.left
    rw [hscan] at hnone
    cases hnone
  · exact hscans

end Site

/-! ## A listener that empties the announced roots -/

/-- An action that no listener hears of does no more than count its firing. -/
theorem Host.doAction_of_unheard {ι ν σ : Type} {host : Host ι ν σ} {state : Hosted ι σ} {hook : Text}
    {args : List ν} (hall : state.dispatcher.callOrder Dispatcher.observedByAll = [])
    (hhook : state.dispatcher.callOrder hook = []) :
    host.doAction hook args state = some (args, state.countFiring hook) := by
  have hcounted : ∀ other, (state.dispatcher.countFiring hook).callOrder other =
      state.dispatcher.callOrder other := fun _ => rfl
  simp [Host.doAction, Host.notifyAll, hcounted, hall, hhook, Host.callEach, Hosted.countFiring]

theorem callSitesBelow_nil (settings : Settings) (tree : FileTree) :
    callSitesBelow settings tree [] = [] :=
  rfl

namespace SiteWorld

/-- A scan that stops at its first call site gives out no generation. -/
theorem generations_scanRoots_error {world : SiteWorld} {roots : List Path} {error : ClockError}
    (hrecords : (recordsBelow world.settings world.files world.now roots).1 = .error error) :
    (world.scanRoots roots).2.generations = world.generations := by
  rw [scanRoots]
  split
  · rfl
  · next hfound =>
      rw [hfound] at hrecords
      cases hrecords

/-- A scan of no roots gives out a generation. -/
theorem generations_scanRoots_nil (world : SiteWorld) :
    (world.scanRoots []).2.generations = world.generations + 1 := by
  refine @scanRoots_keeps (fun after => after.generations = world.generations + 1) world [] ?_
    (fun _ _ _ => rfl) ?_
  · intro error notices hstops
    cases hstops
  · intro scanned hgenerations
    exact (recordScanTime_frame scanned).2.trans hgenerations

end SiteWorld

namespace Site

/-- A site with that plugin, on which a listener empties the announced roots. -/
def clearingSite : Site where
  dispatcher := Dispatcher.empty.add ScanHook.before (.scripted ScanHook.before) 10
  world := { (pluginSite 0 .empty (.timer none) 1).world with
    scripts := [(ScanHook.before, { arity := some 1, acts := [], rule := .clear })] }

theorem callOrder_clearingSite (hook : Text) : clearingSite.dispatcher.callOrder hook =
    if hook = ScanHook.before then [.scripted ScanHook.before] else [] := by
  simp only [Dispatcher.callOrder, Dispatcher.byPriority, clearingSite, Dispatcher.empty, Dispatcher.add,
    Dispatcher.valueOf?, Dispatcher.setValue, Option.getD_none, List.nil_append]
  by_cases h : hook = ScanHook.before
  · simp [h]
  · simp [h, Ne.symm h]

theorem call_clearingSite (roots : List (SourceRoot Text)) {site : Site}
    (hscripts : site.world.scripts = clearingSite.world.scripts) :
    Site.host.call (.scripted ScanHook.before) [.ofRoots roots] site =
      some (⟨[.ofRoots []], some .null⟩,
        site.mapWorld (·.noteEvent (.called ScanHook.before [.ofRoots roots]))) := by
  have hscript : Dispatcher.valueOf? ScanHook.before site.world.scripts =
      some { arity := some 1, acts := [], rule := .clear } := by
    rw [hscripts]
    rfl
  rw [Site.host, hostWith, maxDepth]
  dsimp only
  rw [callListener, hscript]
  rfl

/-- A listener that is told before a scan is not told of all hooks. -/
theorem observedByAll_ne_before : Dispatcher.observedByAll ≠ ScanHook.before := by
  decide

/-- No listener of that site hears of the filter. -/
theorem applyFilters_clearingSite (value : Value) :
    Site.host.applyFilters ScanHook.roots value [] clearingSite = some (value, clearingSite) := by
  have hroots : ScanHook.roots ≠ ScanHook.before := by decide
  simp [Host.applyFilters, Host.notifyAll, callOrder_clearingSite, observedByAll_ne_before, hroots,
    Host.callEach, Host.passThrough]

/-- The listener leaves nothing of the configured roots. -/
theorem exists_announcedRoots_clearingSite :
    ∃ announced, Site.host.announcedRoots .standard clearingSite = some ([], announced) ∧
      clearingSite.world.LeavesCode announced.world ∧
      ∀ hook, announced.dispatcher.callOrder hook = clearingSite.dispatcher.callOrder hook := by
  have hcounted : ∀ hook, (clearingSite.dispatcher.countFiring ScanHook.before).callOrder hook =
      clearingSite.dispatcher.callOrder hook := fun _ => rfl
  let configured := (clearingSite.world.settings.enabledRoots .standard).map SourceRoot.declared
  refine ⟨⟨clearingSite.dispatcher.countFiring ScanHook.before, clearingSite.world.noteEvent
    (.called ScanHook.before [.ofRoots configured])⟩, ?_, .of_untouched (.noteEvent _ _), hcounted⟩
  simp [Host.announcedRoots, Host.filterRoots, applyFilters_clearingSite, Value.roots?_ofRoots,
    Host.announceRoots, Host.doAction, Host.notifyAll, hcounted, callOrder_clearingSite,
    observedByAll_ne_before, Host.callEach, call_clearingSite, Host.afterCall, Hosted.mapWorld, configured]

/-- The file of the plugin holds one call site, and its record has a moment. -/
theorem recordsBelow_pluginFiles_error (error : ClockError) :
    (recordsBelow singleRecordSettings pluginFiles (.error error)
      (singleRecordSettings.enabledPaths .standard)).1 = .error error := by
  cbv

theorem length_callSitesBelow_pluginFiles :
    (callSitesBelow singleRecordSettings pluginFiles
      (singleRecordSettings.enabledPaths .standard)).length = 1 := by
  cbv

theorem isReady_clearingSite : clearingSite.world.IsReady where
  hasSchema := HookCache.hasSchema_emptyCache
  isFresh := HookCache.isFresh_emptyCache _
  isDraining_eq := rfl

/-- The scan has an answer: no call sites, as long as the clock shows a time. -/
theorem exists_scan_clearingSite :
    ∃ answer after, Site.scan .standard clearingSite = some (answer, after) ∧
      (∀ now, clearingSite.world.now = .ok now → answer = .ok 0) ∧ after.world.generations = 1 := by
  obtain ⟨announced, hroots, hleaves, hlisteners⟩ := exists_announcedRoots_clearingSite
  have hanswer : ∀ now, clearingSite.world.now = .ok now →
      (announced.world.scanRoots []).1 = .ok 0 := by
    intro now hnow
    have hready := hleaves.isReady isReady_clearingSite
    have hscanned := (SiteWorld.scanRoots_leaves hready (hleaves.now_eq.trans hnow) []).1
    rw [callSitesBelow_nil] at hscanned
    exact hscanned
  have hgenerations : (announced.world.scanRoots []).2.generations = 1 := by
    rw [SiteWorld.generations_scanRoots_nil, hleaves.generations_eq]
    rfl
  rw [scan, Host.scan_of_announcedRoots hroots]
  rcases hscanned : announced.world.scanRoots [] with ⟨error | handled, world⟩
  · rw [hscanned] at hanswer hgenerations
    exact ⟨_, _, rfl, hanswer, hgenerations⟩
  · rw [hscanned] at hanswer hgenerations
    let scanned : Site := { announced with world }
    have hunheard : ∀ hook ≠ ScanHook.before, announced.dispatcher.callOrder hook = [] := by
      intro hook hhook
      rw [hlisteners, callOrder_clearingSite, if_neg hhook]
    have haction : Site.host.doAction ScanHook.complete [.int (Int.ofNat handled)] scanned =
        some ([.int (Int.ofNat handled)], scanned.countFiring ScanHook.complete) :=
      Host.doAction_of_unheard (hunheard _ (by decide)) (hunheard _ (by decide))
    refine ⟨.ok handled, scanned.countFiring ScanHook.complete, ?_, hanswer, hgenerations⟩
    dsimp only
    rw [haction]
    rfl

/-- A scan of the configured roots finds a call site, or it stops before it gives out a generation. -/
theorem not_scans_enabledPaths {answer : Except ScanError Nat} {after : SiteWorld}
    (hanswer : ∀ now, clearingSite.world.now = .ok now → answer = .ok 0)
    (hgenerations : after.generations = 1) :
    ¬ clearingSite.world.Scans (singleRecordSettings.enabledPaths .standard) answer after := by
  rintro ⟨⟨begun, ended, hbegun, hpass, hended⟩, houtcome⟩
  cases hclock : clearingSite.world.now with
  | ok now =>
      have hfound := (houtcome isReady_clearingSite now hclock).1
      rw [hanswer now hclock] at hfound
      have hlength : 0 = (callSitesBelow singleRecordSettings pluginFiles
        (singleRecordSettings.enabledPaths .standard)).length := Except.ok.inj hfound
      rw [length_callSitesBelow_pluginFiles] at hlength
      cases hlength
  | error error =>
      have hrecords : (recordsBelow begun.settings begun.files begun.now
          (singleRecordSettings.enabledPaths .standard)).1 = .error error := by
        rw [hbegun.settings_eq, hbegun.files_eq, hbegun.now_eq, hclock]
        exact recordsBelow_pluginFiles_error error
      have hsame := SiteWorld.generations_scanRoots_error hrecords
      rw [hpass] at hsame
      have hstart : clearingSite.world.generations = 0 := rfl
      rw [hended.generations_eq, hsame, hbegun.generations_eq, hstart] at hgenerations
      cases hgenerations

/-- The filtered value is the list of the configured roots, below which there is one call site.  But the scan goes
through no roots, and finds none while the clock shows a time. -/
theorem exists_scan_of_emptied_roots :
    let configured := (clearingSite.world.settings.enabledRoots .standard).map SourceRoot.declared
    clearingSite.world.IsReady ∧
      (callSitesBelow singleRecordSettings pluginFiles (configured.map SourceRoot.path)).length = 1 ∧
      Site.host.applyFilters ScanHook.roots (.ofRoots configured) [] clearingSite =
        some (.ofRoots configured, clearingSite) ∧
      ∃ answer after, Site.scan .standard clearingSite = some (answer, after) ∧
        (∀ now, clearingSite.world.now = .ok now → answer = .ok 0) ∧
        ¬ clearingSite.world.Scans (configured.map SourceRoot.path) answer after.world := by
  intro configured
  have hpaths : configured.map SourceRoot.path = singleRecordSettings.enabledPaths .standard :=
    List.map_map
  obtain ⟨answer, after, hscan, hanswer, hgenerations⟩ := exists_scan_clearingSite
  rw [hpaths]
  exact ⟨isReady_clearingSite, length_callSitesBelow_pluginFiles, applyFilters_clearingSite _, answer, after,
    hscan, hanswer, not_scans_enabledPaths hanswer hgenerations⟩

end Site

end HookAtlas
