/-
# A running site

A site is a dispatcher and the world its listeners act on: settings, files, the clock, the cache, the
scripted listeners and the samplers.  Listeners dispatch hooks themselves, so calling a listener and
dispatching a hook are defined together, by a bound on how deep dispatches are nested.
-/

import HookAtlas.Cache.Replace
import HookAtlas.Capture.Sampler
import HookAtlas.Dispatch.Basic
import HookAtlas.Dispatch.Script
import HookAtlas.Files.Tree

namespace HookAtlas

/-- A listener of a site: a scripted one, or a sampler by its place in the order in which samplers were
made. -/
inductive ListenerId
  | scripted (name : Text)
  | sampler (index : Nat)
deriving DecidableEq, Repr

/-- What listeners do and see, as it happens.  The last event is a sampler that is still recording after a
dispatch. -/
inductive SiteEvent
  | called (listener : Text) (args : List Value)
  | removed (found : Bool)
  | filtered (result : Value)
  | stillRecording

/-- All of a site that is not its dispatcher.  The clock counts seconds from the start of the year 1970,
generations are counted as they are given out, and the frames are the stack of the dispatch that is under
way, innermost frame first. -/
structure SiteWorld where
  settings : Settings
  files : FileTree
  clock : Float
  cache : HookCache
  generations : Nat
  scripts : List (Text × ListenerScript)
  samplers : List Sampler
  frames : List StackFrame
  events : List SiteEvent
  notices : List Notice

abbrev Site := Hosted ListenerId SiteWorld

namespace SiteWorld

def now (world : SiteWorld) : Except ClockError Timestamp :=
  Clock.now world.clock

def noteEvent (event : SiteEvent) (world : SiteWorld) : SiteWorld :=
  { world with events := world.events ++ [event] }

def noteAll (notices : List Notice) (world : SiteWorld) : SiteWorld :=
  { world with notices := world.notices ++ notices }

/-- Report a listener that raised. -/
def reportRaise (round : Round) (world : SiteWorld) : SiteWorld :=
  world.noteAll
    [match round with
      | .observing => .observerRaised
      | .action => .actionListenerRaised
      | .filter => .filterListenerRaised]

def mapCache (f : HookCache → HookCache) (world : SiteWorld) : SiteWorld :=
  { world with cache := f world.cache }

/-- Take over the outcome of an operation of the cache. -/
def afterCache {α : Type} (world : SiteWorld) (result : Reported HookCache α) : SiteWorld :=
  { world with cache := result.state }.noteAll result.notices

def setSampler (index : Nat) (sampler : Sampler) (world : SiteWorld) : SiteWorld :=
  { world with samplers := world.samplers.set index sampler }

def setRecording (index : Nat) (isRecording : Bool) (world : SiteWorld) : SiteWorld :=
  match world.samplers[index]? with
  | some sampler => world.setSampler index { sampler with isRecording }
  | none => world

end SiteWorld

namespace Site

/-- How listeners of a site are hosted, given how one is called. -/
def hostWith (call : ListenerId → List Value → Site → Option (CallOutcome Value × Site)) :
    Host ListenerId Value SiteWorld where
  call := call
  report := SiteWorld.reportRaise
  nameValue := .text

/-! ## Scripted listeners -/

/-- Perform the acts of a script.  The flag tells whether all were performed; it is off where one
raised. -/
def performActs (host : Host ListenerId Value SiteWorld) :
    List ScriptAct → Site → Option (Bool × Site)
  | [], site => some (true, site)
  | .raise :: _, site => some (false, site)
  | .add hook listener priority :: acts, site =>
    performActs host acts
      { site with dispatcher := site.dispatcher.add hook (.scripted listener) priority }
  | .remove hook listener priority :: acts, site =>
    let (found, dispatcher) := site.dispatcher.remove hook (.scripted listener) priority
    let site := { site with dispatcher }.mapWorld (·.noteEvent (.removed found))
    performActs host acts site
  | .action hook args :: acts, site =>
    match host.doAction hook args site with
    | none => none
    | some (_, site) => performActs host acts site
  | .filter hook args :: acts, site =>
    match host.applyFiltersToList hook args site with
    | .error _ => some (false, site)
    | .ok none => none
    | .ok (some (result, site)) =>
      performActs host acts (site.mapWorld (·.noteEvent (.filtered result)))

def callScript (host : Host ListenerId Value SiteWorld) (name : Text) (script : ListenerScript)
    (args : List Value) (site : Site) : Option (CallOutcome Value × Site) :=
  let site := site.mapWorld (·.noteEvent (.called name args))
  if script.arity.any fun arity => arity ≠ args.length then some (⟨args, none⟩, site)
  else
    match performActs host script.acts site with
    | none => none
    | some (false, site) => some (⟨args, none⟩, site)
    | some (true, site) =>
      let (left, result) := script.rule.apply args
      some (⟨left, result⟩, site)

/-! ## Samplers -/

/-- Store the record of a dispatch, and dispatch what the sampler dispatches on storing.  The flag is
off where storing raised. -/
def storeSample (host : Host ListenerId Value SiteWorld) (sampler : Sampler) (record : HookRecord)
    (site : Site) : Option (Bool × Site) :=
  let result := site.world.cache.insertBatch [record] none
  let site := site.mapWorld (·.afterCache result)
  match result.value, sampler.dispatchedOnStore with
  | .error _, _ => some (false, site)
  | .ok _, none => some (!sampler.raisesOnStore, site)
  | .ok _, some hook =>
    match host.doAction hook [] site with
    | none => none
    | some (_, site) => some (!sampler.raisesOnStore, site)

/-- Record a dispatch of a hook.  The flag is off where recording raised. -/
def recordSample (host : Host ListenerId Value SiteWorld) (index : Nat) (sampler : Sampler)
    (hook : Value) (site : Site) : Option (Bool × Site) :=
  let record? :=
    match hook with
    | .text name =>
      sampler.recordOf? site.world.settings site.world.now name site.world.frames
    | _ => none
  match record? with
  | none => some (false, site)
  | some record =>
    match storeSample host sampler record (site.mapWorld (·.setRecording index true)) with
    | none => none
    | some (stored, site) => some (stored, site.mapWorld (·.setRecording index false))

def isIgnoredHook : Value → Bool
  | .text name => Sampler.ignoredHooks.contains name
  | _ => false

/-- Call a sampler, whose first argument is the dispatched hook. -/
def callSampler (host : Host ListenerId Value SiteWorld) (index : Nat) (sampler : Sampler)
    (args : List Value) (site : Site) : Option (CallOutcome Value × Site) :=
  let returned : CallOutcome Value := ⟨args, some .null⟩
  let raised : CallOutcome Value := ⟨args, none⟩
  match args with
  | [] => some (raised, site)
  | hook :: _ =>
    if sampler.isRecording then some (returned, site)
    else if !hook.isHashable then some (raised, site)
    else if isIgnoredHook hook then some (returned, site)
    else
      let (chosen, sampler) := sampler.decide
      let site := site.mapWorld (·.setSampler index sampler)
      if !chosen then some (returned, site)
      else
        match recordSample host index sampler hook site with
        | none => none
        | some (true, site) => some (returned, site)
        | some (false, site) => some (raised, site)

/-! ## Calling listeners -/

/-- Call a listener, given how deep dispatches may still be nested. -/
def callListener : Nat → ListenerId → List Value → Site → Option (CallOutcome Value × Site)
  | 0, _, _, _ => none
  | depth + 1, listener, args, site =>
    let host := hostWith (callListener depth)
    match listener with
    | .scripted name =>
      match Dispatcher.valueOf? name site.world.scripts with
      | some script => callScript host name script args site
      | none => some (⟨args, none⟩, site)
    | .sampler index =>
      match site.world.samplers[index]? with
      | some sampler => callSampler host index sampler args site
      | none => some (⟨args, none⟩, site)

/-- How deep dispatches may be nested. -/
def maxDepth : Nat :=
  1000

/-- How the listeners of a site are hosted. -/
def host : Host ListenerId Value SiteWorld :=
  hostWith (callListener maxDepth)

/-- Dispatch an action.  Answers the arguments as the listeners leave them; no answer where
dispatches are nested without end. -/
def doAction (hook : Text) (args : List Value) (site : Site) : Option (List Value × Site) :=
  host.doAction hook args site

/-- Dispatch a filter.  Answers the value that comes out. -/
def applyFilters (hook : Text) (args : List Value) (site : Site) :
    Except FilterWithoutValue (Option (Value × Site)) :=
  host.applyFiltersToList hook args site

end Site

end HookAtlas
