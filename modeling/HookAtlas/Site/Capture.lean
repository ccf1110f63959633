/-
# Capturing dispatches on a site

Samplers are started on the dispatcher of a site and stopped again; starting one twice registers it
once.  A hook can be fired with a given stack, from which samplers tell where it was fired.
-/

import HookAtlas.Site.Basic

namespace HookAtlas.Site

/-- Start a sampler.  Answers whether it captures; one that is not enabled is not registered. -/
def startSampler (index : Nat) (site : Site) : Bool × Site :=
  match site.world.samplers[index]? with
  | none => (false, site)
  | some sampler =>
    if !sampler.isEnabled then (false, site)
    else if site.dispatcher.hasListener Dispatcher.observedByAll (.sampler index) then (true, site)
    else
      let dispatcher :=
        site.dispatcher.add Dispatcher.observedByAll (.sampler index) Sampler.priority
      (true, { site with dispatcher })

def addSampler (sampler : Sampler) (site : Site) : Bool × Site :=
  let index := site.world.samplers.length
  startSampler index
    (site.mapWorld (fun world => { world with samplers := world.samplers ++ [sampler] }))

def stopSampler (index : Nat) (site : Site) : Site :=
  let (_, dispatcher) :=
    site.dispatcher.remove Dispatcher.observedByAll (.sampler index) Sampler.priority
  { site with dispatcher }

/-- The place of the sampler that was made last. -/
def lastSampler? (site : Site) : Option Nat :=
  if site.world.samplers = [] then none else some (site.world.samplers.length - 1)

/-- Let a sampler decide so many times. -/
def decideTimes (index times : Nat) (site : Site) : List Bool × Site :=
  match site.world.samplers[index]? with
  | none => ([], site)
  | some sampler =>
    let (chosen, sampler) := sampler.decideTimes times
    (chosen, site.mapWorld (·.setSampler index sampler))

/-- Do something with a given stack.  Afterwards the stack is empty again, and a sampler that is
still recording is an event. -/
def withFrames {α : Type} (frames : List StackFrame) (action : Site → Option (α × Site))
    (site : Site) : Option (α × Site) :=
  match action (site.mapWorld (fun world => { world with frames })) with
  | none => none
  | some (result, site) =>
    let site := site.mapWorld (fun world => { world with frames := [] })
    if site.world.samplers.any Sampler.isRecording then
      some (result, site.mapWorld (·.noteEvent .stillRecording))
    else some (result, site)

end HookAtlas.Site
