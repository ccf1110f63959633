/-
# Named tasks

A task is a name and a list of acts: raising, letting time pass, and steps of the scheduler that runs it,
among them scheduling another task.  Running a task therefore may run another one inside it.  A task can only
schedule tasks that it contains, so the tasks contained in the pending one and in the rest of the acts bound
how deep this goes; `Task.weight` counts them and serves as the fuel of the runner.

The trace of a run lists the tasks as they start and the acts of tasks as they end.
-/

import HookAtlas.Notice
import HookAtlas.Scheduler.Step

namespace HookAtlas

/-- What a task does: raise, let time pass, or take a step of its scheduler. -/
inductive TaskAct (α : Type)
  | raise
  | advance (seconds : Float)
  | step (step : SchedulerStep Float α)

/-- A named task with its acts. -/
inductive Task
  | mk (name : Text) (acts : List (TaskAct Task))

namespace Task

instance : Inhabited Task := ⟨.mk [] []⟩

def name : Task → Text
  | .mk name _ => name

def acts : Task → List (TaskAct Task)
  | .mk _ acts => acts

mutual

/-- The number of tasks in a task, itself included. -/
def weight : Task → Nat
  | .mk _ acts => 1 + weightOfActs acts

def weightOfActs : List (TaskAct Task) → Nat
  | [] => 0
  | act :: acts => weightOfAct act + weightOfActs acts

def weightOfAct : TaskAct Task → Nat
  | .raise | .advance _ => 0
  | .step step => weightOfStep step

def weightOfStep : SchedulerStep Float Task → Nat
  | .schedule task _ => weight task
  | _ => 0

end

end Task

/-- The answer of an act: what the clock shows after some time has passed, or what a step has answered. -/
inductive ActAnswer
  | time (clock : Float)
  | step (answer : StepAnswer Float)

/-- An entry of the trace of a run: a task starts, with whether a task was pending then, or an act of it has
ended. -/
inductive TraceEntry
  | began (task : Text) (isPending : Bool)
  | did (act : TaskAct Task) (answer : ActAnswer)

/-- The world in which named tasks act, with what happened and what was reported so far. -/
structure TaskWorld where
  clock : Float
  trace : List TraceEntry
  notices : List Notice

namespace TaskWorld

def note (entry : TraceEntry) (world : TaskWorld) : TaskWorld :=
  { world with trace := world.trace ++ [entry] }

def advance (seconds : Float) (world : TaskWorld) : TaskWorld :=
  { world with clock := world.clock + seconds }

end TaskWorld

structure TaskRaised where
  task : Text

/-- The state in which steps are performed. -/
abbrev Runner := Scheduled Float Task TaskWorld

namespace Runner

/-- Perform the acts of a task in order.  An error ends the task. -/
def performActs (host : TaskHost Float Task TaskWorld TaskRaised) (name : Text) :
    List (TaskAct Task) → Runner → Option (Except TaskRaised Unit × Runner)
  | [], runner => some (.ok (), runner)
  | .raise :: _, runner => some (.error ⟨name⟩, runner)
  | .advance seconds :: acts, runner =>
    let later := runner.mapWorld (TaskWorld.advance seconds)
    performActs host name acts
      (later.mapWorld (TaskWorld.note (.did (.advance seconds) (.time later.world.clock))))
  | .step step :: acts, runner =>
    match host.perform step runner with
    | none => none
    | some (.error raised, after) => some (.error raised, after)
    | some (.ok answer, after) =>
      performActs host name acts (after.mapWorld (TaskWorld.note (.did (.step step) (.step answer))))

/-- How named tasks are hosted, given how one is run. -/
def hostWith (run : Task → Runner → Option (Except TaskRaised Unit × Runner)) :
    TaskHost Float Task TaskWorld TaskRaised where
  run := run
  clock := TaskWorld.clock
  report _ world := { world with notices := world.notices ++ [.taskRaised] }

/-- How named tasks are hosted, given how many may run inside each other. -/
def host : Nat → TaskHost Float Task TaskWorld TaskRaised
  | 0 => hostWith fun _ _ => none
  | fuel + 1 => hostWith fun task runner =>
    performActs (host fuel) task.name task.acts
      (runner.mapWorld (TaskWorld.note (.began task.name runner.scheduler.isPending)))

/-- The number of tasks that a step can set in motion. -/
def reach (step : SchedulerStep Float Task) (runner : Runner) : Nat :=
  runner.scheduler.task?.elim 0 Task.weight + Task.weightOfStep step

def perform (step : SchedulerStep Float Task) (runner : Runner) :
    Option (Except TaskRaised (StepAnswer Float) × Runner) :=
  (host (reach step runner)).perform step runner

end Runner

end HookAtlas
