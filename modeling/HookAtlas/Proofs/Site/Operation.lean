/-
# What is done to a site that is up

A site that is up answers requests, scans, drains, dispatches hooks and is restarted.  Of all that is done
to it, few things reach the cache: records are inserted, replaced and drained, and the time of a scan is
recorded.  `KeptByCache` says of a property of the cache and of the number of generations that these keep
it; then every scan, every request and every dispatch keeps it, and a run of operations does if starting
again does.

Not every list of records may be replaced by.  Those of a scan may, and a run may name those that are
admitted.
-/

import HookAtlas.Http.Routes
import HookAtlas.Proofs.Cache.Writes
import HookAtlas.Proofs.Scan.Lines
import HookAtlas.Proofs.Site.Listeners
import HookAtlas.Site.Lifecycle

namespace HookAtlas

namespace Site

/-! ## Operations -/

/-- What may happen to a site that is up.  The time may be advanced between any two operations.  Requests scan
and drain, too; an action or a filter is fired with a given stack, so samplers may record it; arranging
registers and removes listeners, edits files and makes samplers; and a site may be stopped and started again on
its store with other settings. -/
inductive Operation
  | replace (records : List HookRecord)
  | scan (options : ScanOptions)
  | scanQuietly (options : ScanOptions)
  | request (message : HttpRequest)
  | drain
  | runDue
  | runNow
  | insert (records : List HookRecord) (generation : Option Text)
  | fire (frames : List StackFrame) (hook : Text) (args : List Value)
  | filter (frames : List StackFrame) (hook : Text) (value : Value) (args : List Value)
  | advance (seconds : Float)
  | arrange (dispatcher : Dispatcher ListenerId) (files : FileTree)
    (scripts : List (Text × ListenerScript)) (samplers : List Sampler)
  | restart (settings : Settings) (files : FileTree) (scripts : List (Text × ListenerScript))
    (clock : Float)

/-- Start a site on a store, with the scheduler that its settings ask for. -/
def startOn (settings : Settings) (files : FileTree) (scripts : List (Text × ListenerScript))
    (clock : Float) (generations : Nat) (store : Store) : Site :=
  start (openOn settings settings.queueScheduler files scripts clock generations store)

/-- The site after an operation; none where dispatches are nested without end. -/
def Operation.perform (site : Site) : Operation → Option Site
  | .replace records => some (site.mapWorld fun world => (world.replaceStatic records).2)
  | .scan options => (Site.scan options site).map Prod.snd
  | .scanQuietly options => some (Site.scanQuietly options site).2
  | .request message => (answerRequest message site).map Prod.snd
  | .drain => some (site.mapWorld fun world => world.afterCache (world.cache.drainOne world.clock))
  | .runDue => some (site.mapWorld fun world => world.afterCache (world.cache.runDue world.clock))
  | .runNow => some (site.mapWorld fun world => world.afterCache (world.cache.runNow world.clock))
  | .insert records generation =>
    some (site.mapWorld fun world => world.afterCache (world.cache.insertBatch records generation))
  | .fire frames hook args => (withFrames frames (doAction hook args) site).map Prod.snd
  | .filter frames hook value args =>
    (withFrames frames (Site.host.applyFilters hook value args) site).map Prod.snd
  | .advance seconds => some (site.mapWorld fun world => { world with clock := world.clock + seconds })
  | .arrange dispatcher files scripts samplers =>
    some { dispatcher, world := { site.world with files, scripts, samplers } }
  | .restart settings files scripts clock =>
    let world := (stop site).world
    some (startOn settings files scripts clock world.generations world.cache.store)

/-- The site after a list of operations. -/
def run (operations : List Operation) (site : Site) : Option Site :=
  operations.foldlM Operation.perform site

/-! ## What the operations keep -/

/-- Whatever is done to a cache keeps a property, where only some lists of records are replaced by. -/
structure KeptByCache (admits : List HookRecord → Prop) (property : HookCache → Nat → Prop) : Prop where
  insertBatch : ∀ {cache generations}, property cache generations → ∀ records group,
    property (cache.insertBatch records group).state generations
  drainOne : ∀ {cache generations}, property cache generations → ∀ clock,
    property (cache.drainOne clock).state generations
  runDue : ∀ {cache generations}, property cache generations → ∀ clock,
    property (cache.runDue clock).state generations
  runNow : ∀ {cache generations}, property cache generations → ∀ clock,
    property (cache.runNow clock).state generations
  setOption : ∀ {cache generations}, property cache generations → ∀ name value,
    property { cache with store := (cache.store.setOption name value).2 } generations
  /-- A replace gives out the next generation. -/
  replaceStatic : ∀ {cache generations}, property cache generations → ∀ clock {records},
    admits records → property
      (cache.replaceStatic clock records (SiteWorld.generationName (generations + 1))).state
      (generations + 1)
  admits_scanned : ∀ {settings tree clock roots records notices},
    recordsBelow settings tree clock roots = (.ok records, notices) → admits records

namespace KeptByCache

variable {admits : List HookRecord → Prop} {property : HookCache → Nat → Prop} {world : SiteWorld}
  {site after : Site} (hkept : KeptByCache admits property)

include hkept

theorem keeps_host : Site.host.Keeps (ofCache property) :=
  Site.keeps_host fun _ _ record hproperty => hkept.insertBatch hproperty [record] none

theorem recordScanTime (hproperty : ofCache property world) :
    ofCache property world.recordScanTime.2 := by
  rw [SiteWorld.recordScanTime]
  split
  · exact hproperty
  · next seconds _ =>
      have hset := hkept.setOption hproperty lastScanOption (some (Number.intText seconds))
      dsimp only
      split
      · exact hset
      · exact hset

theorem scanRoots (hproperty : ofCache property world) (roots : List Path) :
    ofCache property (world.scanRoots roots).2 := by
  refine SiteWorld.scanRoots_keeps (fun _ _ _ => hproperty) (fun records notices hrecords => ?_)
    hkept.recordScanTime
  exact hkept.replaceStatic hproperty world.clock (hkept.admits_scanned hrecords)

theorem scan {options : ScanOptions} {answer : Except ScanError Nat}
    (hproperty : ofCache property site.world)
    (hsome : Site.scan options site = some (answer, after)) : ofCache property after.world :=
  hkept.keeps_host.scan (fun hworld _ => hworld) hkept.scanRoots hproperty hsome

omit hkept in
theorem unchanged {ε : Type} {wrap : ε → RequestError} {answer : Except ε HttpResponse}
    {reply : Except RequestError HttpResponse} (hproperty : ofCache property site.world)
    (hsome : Site.unchanged wrap site answer = some (reply, after)) :
    ofCache property after.world := by
  cases answer with
  | ok response =>
      cases hsome
      exact hproperty
  | error error =>
      cases hsome
      exact hproperty

theorem answerRoute {route : Route} {request : HttpRequest}
    {reply : Except RequestError HttpResponse} (hproperty : ofCache property site.world)
    (hsome : Site.answerRoute route request site = some (reply, after)) :
    ofCache property after.world := by
  cases route with
  | health =>
      cases hsome
      exact hproperty
  | listing =>
      rw [Site.answerRoute] at hsome
      split at hsome
      · cases hsome
        exact hproperty
      · exact unchanged hproperty hsome
  | stats => exact unchanged hproperty hsome
  | document =>
      rw [Site.answerRoute] at hsome
      split at hsome
      · cases hsome
        exact hproperty
      · exact unchanged hproperty hsome
  | scan =>
      rw [Site.answerRoute] at hsome
      split at hsome
      · cases hsome
      · next hscan =>
          cases hsome
          exact hkept.scan hproperty hscan
      · next hscan =>
          cases hsome
          exact hkept.scan hproperty hscan
  | processQueue =>
      have hdrained := hkept.drainOne hproperty site.world.clock
      rw [Site.answerRoute] at hsome
      dsimp only at hsome
      split at hsome
      · cases hsome
        exact hdrained
      · cases hsome
        exact hdrained

theorem answerRequest {request : HttpRequest} {reply : Except RequestError HttpResponse}
    (hproperty : ofCache property site.world)
    (hsome : Site.answerRequest request site = some (reply, after)) :
    ofCache property after.world := by
  rw [Site.answerRequest] at hsome
  split at hsome
  · split at hsome
    · exact hkept.answerRoute hproperty hsome
    · cases hsome
      exact hproperty
  · split at hsome
    · cases hsome
      exact hproperty
    · cases hsome
      exact hproperty

omit hkept in
theorem withFrames {α : Type} {action : Site → Option (α × Site)} {result : α}
    (haction : ∀ {site result after}, ofCache property site.world →
      action site = some (result, after) → ofCache property after.world)
    {frames : List StackFrame} (hproperty : ofCache property site.world)
    (hsome : Site.withFrames frames action site = some (result, after)) :
    ofCache property after.world := by
  rw [Site.withFrames] at hsome
  split at hsome
  · cases hsome
  · next hacted =>
      have hafter := haction (by exact hproperty) hacted
      dsimp only at hsome
      split at hsome
      · cases hsome
        exact hafter
      · cases hsome
        exact hafter

/-- Every operation keeps the property, if starting a site again on its store does. -/
theorem perform
    (hrestart : ∀ {cache generations}, property cache generations →
      ∀ settings files scripts clock,
        ofCache property (startOn settings files scripts clock generations cache.store).world)
    {operation : Operation} (hadmits : ∀ records, operation = .replace records → admits records)
    (hproperty : ofCache property site.world)
    (hsome : operation.perform site = some after) : ofCache property after.world := by
  cases operation with
  | replace records =>
      cases hsome
      exact hkept.replaceStatic hproperty site.world.clock (hadmits records rfl)
  | scan options =>
      rw [Operation.perform] at hsome
      obtain ⟨⟨answer, final⟩, hscan, rfl⟩ := Option.map_eq_some_iff.mp hsome
      exact hkept.scan hproperty hscan
  | scanQuietly options =>
      cases hsome
      exact hkept.scanRoots hproperty _
  | request message =>
      rw [Operation.perform] at hsome
      obtain ⟨⟨reply, final⟩, hreply, rfl⟩ := Option.map_eq_some_iff.mp hsome
      exact hkept.answerRequest hproperty hreply
  | drain =>
      cases hsome
      exact hkept.drainOne hproperty site.world.clock
  | runDue =>
      cases hsome
      exact hkept.runDue hproperty site.world.clock
  | runNow =>
      cases hsome
      exact hkept.runNow hproperty site.world.clock
  | insert records generation =>
      cases hsome
      exact hkept.insertBatch hproperty records generation
  | fire frames hook args =>
      rw [Operation.perform] at hsome
      obtain ⟨⟨left, final⟩, hfire, rfl⟩ := Option.map_eq_some_iff.mp hsome
      exact withFrames hkept.keeps_host.doAction hproperty hfire
  | filter frames hook value args =>
      rw [Operation.perform] at hsome
      obtain ⟨⟨result, final⟩, hfilter, rfl⟩ := Option.map_eq_some_iff.mp hsome
      exact withFrames hkept.keeps_host.applyFilters hproperty hfilter
  | advance seconds =>
      cases hsome
      exact hproperty
  | arrange dispatcher files scripts samplers =>
      cases hsome
      exact hproperty
  | restart settings files scripts clock =>
      cases hsome
      exact hrestart hproperty settings files scripts clock

/-- Every run of operations keeps the property, by induction on its length. -/
theorem run
    (hrestart : ∀ {cache generations}, property cache generations →
      ∀ settings files scripts clock,
        ofCache property (startOn settings files scripts clock generations cache.store).world)
    {operations : List Operation} (hadmits : ∀ records, .replace records ∈ operations → admits records)
    (hproperty : ofCache property site.world)
    (hsome : Site.run operations site = some after) : ofCache property after.world := by
  induction operations generalizing site with
  | nil =>
      cases hsome
      exact hproperty
  | cons operation operations ih =>
      rw [Site.run, List.foldlM_cons] at hsome
      obtain ⟨middle, hperform, hrest⟩ := Option.bind_eq_some_iff.mp hsome
      have hfirst := hkept.perform hrestart
        (fun records heq => hadmits records (heq ▸ List.mem_cons_self)) hproperty hperform
      exact ih (fun records hmem => hadmits records (List.mem_cons_of_mem operation hmem)) hfirst hrest

end KeptByCache

/-! ## What every statement keeps -/

/-- What every statement of the store keeps, whatever is done to a cache keeps. -/
theorem keptByCache_of_writes {property : Store → Prop}
    (hwrites : ∀ {before after}, property before → Store.Writes before after → property after) :
    KeptByCache (fun _ => True) fun cache _ => property cache.store where
  insertBatch := by
    intro cache _ hproperty records group
    exact hwrites hproperty (HookCache.writes_insertBatch records group cache).writes
  drainOne := by
    intro cache _ hproperty clock
    exact hwrites hproperty (HookCache.writes_drainOne clock cache).writes
  runDue := by
    intro cache _ hproperty clock
    exact hwrites hproperty (HookCache.writes_runDue clock cache).writes
  runNow := by
    intro cache _ hproperty clock
    exact hwrites hproperty (HookCache.writes_runNow clock cache).writes
  setOption := by
    intro cache _ hproperty name value
    exact hwrites hproperty (.setOption name value cache.store)
  replaceStatic := by
    intro cache generations hproperty clock records _
    exact hwrites hproperty (HookCache.writes_replaceStatic clock records _ cache).writes
  admits_scanned := fun _ => trivial

/-- Starting a sampler concerns the dispatcher only. -/
theorem world_startSampler (index : Nat) (site : Site) : (startSampler index site).2.world = site.world := by
  rw [startSampler]
  split
  · rfl
  · split_ifs
    · rfl
    · rfl
    · rfl

/-- Starting a site opens its store and makes the tables that are missing. -/
theorem store_start (site : Site) :
    (start site).world.cache.store = site.world.cache.store.reopen.createMissingTables := by
  rw [start, resumeDraining]
  dsimp only
  split
  · rw [addSampler]
    simp only [Hosted.mapWorld, world_startSampler]
    rfl
  · rw [addSampler]
    simp only [Hosted.mapWorld, world_startSampler]
    rfl

/-- Whatever is done to a site that was started on a new store leaves a store that can be reached. -/
theorem isReachable_run {settings : Settings} {files : FileTree}
    {scripts : List (Text × ListenerScript)} {clock : Float} {generations : Nat}
    {operations : List Operation} {site : Site}
    (hsome : run operations (startOn settings files scripts clock generations .blank) = some site) :
    site.world.cache.store.IsReachable := by
  have hkept : KeptByCache (fun _ => True) fun cache _ => cache.store.IsReachable :=
    keptByCache_of_writes Store.IsReachable.writes
  have hstart : ∀ {store : Store}, store.IsReachable →
      ∀ settings files scripts clock generations,
        (startOn settings files scripts clock generations store).world.cache.store.IsReachable := by
    intro store hstore settings files scripts clock generations
    rw [startOn, store_start]
    exact hstore.reopen.createMissingTables
  apply hkept.run ?_ (fun _ _ => trivial) (hstart .blank settings files scripts clock generations) hsome
  intro cache generations hcache settings files scripts clock
  exact hstart hcache settings files scripts clock generations

end Site

end HookAtlas
