/-
# Steps of a scheduler

A scheduler is asked to hold a task, whether it holds one, to drop it, and to run it, either when it is due or
at once.  A task that is run may take such steps itself.  Therefore how a task is run is a parameter, and so
are the clock and the report of an error, which belong to the rest of the world.

Running a task may have no answer, namely where tasks run tasks without end; then the step has none.
-/

import HookAtlas.Scheduler.Basic

namespace HookAtlas

inductive SchedulerStep (τ α : Type)
  | schedule (task : α) (delay : τ)
  | isPending
  | cancel
  | runDue
  | runNow
  | timerStatus
deriving DecidableEq

inductive StepAnswer (τ : Type)
  | nothing
  | flag (value : Bool)
  | status (value : Option (TimerStatus τ))
deriving DecidableEq

/-- A scheduler and the rest of the world that its tasks act on. -/
structure Scheduled (τ α σ : Type) where
  scheduler : Scheduler τ α
  world : σ
deriving DecidableEq

namespace Scheduled

variable {τ α σ ε : Type}

def mapWorld (f : σ → σ) (state : Scheduled τ α σ) : Scheduled τ α σ :=
  { state with world := f state.world }

/-- The outcome of a step that ran a task: an error passes on or is reported. -/
def afterTask (report : ε → σ → σ) (passesErrors : Bool) (ended : Except ε Unit × Scheduled τ α σ) :
    Except ε (StepAnswer τ) × Scheduled τ α σ :=
  match ended with
  | (.ok (), state) => (.ok (.flag true), state)
  | (.error error, state) =>
    if passesErrors then (.error error, state) else (.ok (.flag true), state.mapWorld (report error))

/-- The slot is left as the task has left it. -/
@[simp]
theorem scheduler_afterTask (report : ε → σ → σ) (passesErrors : Bool)
    (ended : Except ε Unit × Scheduled τ α σ) :
    (afterTask report passesErrors ended).2.scheduler = ended.2.scheduler := by
  obtain ⟨_ | _, state⟩ := ended
  · cases passesErrors <;> rfl
  · rfl

end Scheduled

/-- How tasks are run, what the clock shows, and how an error is reported that nobody sees. -/
structure TaskHost (τ α σ ε : Type) where
  run : α → Scheduled τ α σ → Option (Except ε Unit × Scheduled τ α σ)
  clock : σ → τ
  report : ε → σ → σ

namespace TaskHost

variable {τ α σ ε : Type}

/-- Run the task that was taken from the slot, if one was.  The slot is empty by then. -/
def runTaken (host : TaskHost τ α σ ε) (taken : Option (α × Scheduler τ α)) (state : Scheduled τ α σ) :
    Option (Except ε (StepAnswer τ) × Scheduled τ α σ) :=
  match taken with
  | none => some (.ok (.flag false), state)
  | some (task, scheduler) =>
    (host.run task { state with scheduler }).map
      (Scheduled.afterTask host.report state.scheduler.passesErrors)

def perform [OfNat τ 0] [LT τ] [DecidableLT τ] [Add τ] (host : TaskHost τ α σ ε)
    (step : SchedulerStep τ α) (state : Scheduled τ α σ) :
    Option (Except ε (StepAnswer τ) × Scheduled τ α σ) :=
  let now := host.clock state.world
  match step with
  | .schedule task delay =>
    let asked := state.scheduler.schedule now task delay
    some (.ok (.flag asked.1), { state with scheduler := asked.2 })
  | .isPending => some (.ok (.flag state.scheduler.isPending), state)
  | .cancel => some (.ok .nothing, { state with scheduler := state.scheduler.cancel })
  | .runDue => host.runTaken (state.scheduler.takeDue? now) state
  | .runNow => host.runTaken state.scheduler.takeNow? state
  | .timerStatus => some (.ok (.status state.scheduler.timerStatus?), state)

end TaskHost

end HookAtlas
