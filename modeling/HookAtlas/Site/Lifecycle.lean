/-
# Opening, starting and stopping a site

A site is made on a store and has an empty scheduler then.  Starting it as an application opens the
store, creates the tables that are missing, starts capturing if the settings say so, and schedules a
tick if an earlier run left chunks in the queue.  Stopping it cancels the pending tick and stops
capturing; the store stays as it is.
-/

import HookAtlas.Settings.Environment
import HookAtlas.Site.Capture

namespace HookAtlas

namespace SchedulerKind

def scheduler (kind : SchedulerKind) : Scheduler Float DrainTick :=
  match kind with
  | .manual => .manual none
  | .thread => .timer none

end SchedulerKind

namespace Site

def defaultChunkSize : Int :=
  500

def defaultDrainDelay : Float :=
  15.0

/-- Make a site on a store. -/
def openOn (settings : Settings) (kind : SchedulerKind) (files : FileTree)
    (scripts : List (Text × ListenerScript)) (clock : Float) (generations : Nat) (store : Store) :
    Site where
  dispatcher := Dispatcher.empty
  world := {
    settings := settings
    files := files
    clock := clock
    cache :=
      HookCache.onStore store kind.scheduler settings.queueChunkSize settings.queueDrainDelay
    generations := generations
    scripts := scripts
    samplers := []
    frames := []
    events := []
    notices := [] }

/-- Replace the write path by a new one on the same store. -/
def reopenCache (kind : SchedulerKind) (chunkSize : Int) (drainDelay : Float) (site : Site) : Site :=
  site.mapWorld (·.mapCache fun cache =>
    HookCache.onStore cache.store kind.scheduler chunkSize drainDelay)

/-- Schedule a tick if there are chunks in the queue. -/
def resumeDraining (site : Site) : Site :=
  let world := site.world
  let (pending, notices) := world.cache.pendingChunks
  let site := site.mapWorld (·.noteAll notices)
  if pending = 0 then site
  else
    site.mapWorld (·.mapCache fun cache =>
      (cache.scheduleDrain world.clock world.settings.queueDrainDelay).2)

/-- Start a site as an application. -/
def start (site : Site) : Site :=
  let site := site.mapWorld (·.mapCache fun cache =>
    { cache with store := cache.store.reopen.createMissingTables })
  let sampler := Sampler.ofOptions site.world.settings.scan [] []
  resumeDraining (addSampler sampler site).2

/-- Stop a site that was started as an application. -/
def stop (site : Site) : Site :=
  stopSampler 0
    (site.mapWorld (·.mapCache fun cache => { cache with scheduler := cache.scheduler.cancel }))

end Site

end HookAtlas
