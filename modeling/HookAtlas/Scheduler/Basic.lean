/-
# One deferred task

A scheduler holds at most one pending task.  Asking for another one while one is pending is refused
and changes nothing, which keeps the work that it drives in sequence.  The slot is emptied before the
task runs, so a task may schedule its own successor.

There are two schedulers with this contract.  The manual one holds the task with the time it is due
and leaves it to the host to run it.  The timer one holds a running timer, which runs the task by
itself when it fires.  Both take any type of tasks and any type of times.
-/

namespace HookAtlas

/-- A task that waits, and the time from which it may run. -/
structure PendingTask (τ α : Type) where
  task : α
  due : τ
deriving Repr, DecidableEq

/-- A timer that runs its task when it fires, after an interval. -/
structure Timer (τ α : Type) where
  task : α
  interval : τ
deriving Repr, DecidableEq

/-- What can be seen of a timer.  A timer is a daemon and is started when it is made; cancelling it
takes it out of its slot. -/
structure TimerStatus (τ : Type) where
  interval : τ
  isDaemon : Bool
  isStarted : Bool
  isCancelled : Bool
deriving DecidableEq

/-- A scheduler with its slot: the host runs the pending task, or a timer does. -/
inductive Scheduler (τ α : Type)
  | manual (slot : Option (PendingTask τ α))
  | timer (slot : Option (Timer τ α))
deriving Repr, DecidableEq

namespace Scheduler

variable {τ α : Type}

def isPending : Scheduler τ α → Bool
  | .manual slot => slot.isSome
  | .timer slot => slot.isSome

def task? : Scheduler τ α → Option α
  | .manual slot => slot.map PendingTask.task
  | .timer slot => slot.map Timer.task

def cancel : Scheduler τ α → Scheduler τ α
  | .manual _ => .manual none
  | .timer _ => .timer none

/-- A delay below zero counts as none. -/
def delayFrom [OfNat τ 0] [LT τ] [DecidableLT τ] (delay : τ) : τ :=
  if 0 < delay then delay else 0

/-- Put a task into the slot.  Refused where a task is pending. -/
def schedule [OfNat τ 0] [LT τ] [DecidableLT τ] [Add τ] (now : τ) (task : α) (delay : τ)
    (scheduler : Scheduler τ α) : Bool × Scheduler τ α :=
  match scheduler with
  | .manual none => (true, .manual (some ⟨task, now + delayFrom delay⟩))
  | .timer none => (true, .timer (some ⟨task, delayFrom delay⟩))
  | scheduler => (false, scheduler)

/-- Take the pending task of a manual scheduler if its time has come.  A timer is not run by the
host. -/
def takeDue? [LT τ] [DecidableLT τ] (now : τ) :
    Scheduler τ α → Option (α × Scheduler τ α)
  | .manual (some waiting) => if now < waiting.due then none else some (waiting.task, .manual none)
  | _ => none

/-- Take the pending task whatever its time: the host runs it at once, or the timer fires. -/
def takeNow? : Scheduler τ α → Option (α × Scheduler τ α)
  | .manual (some waiting) => some (waiting.task, .manual none)
  | .timer (some current) => some (current.task, .timer none)
  | _ => none

def timerStatus? : Scheduler τ α → Option (TimerStatus τ)
  | .timer (some current) => some ⟨current.interval, true, true, false⟩
  | _ => none

/-- Whether the host sees the error of a task that raises.  The error of a task that a timer runs is
only reported. -/
def passesErrors : Scheduler τ α → Bool
  | .manual _ => true
  | .timer _ => false

end Scheduler

end HookAtlas
