/-
# Tasks as programs

A task may do anything before it returns or raises: look at the world and change it, and take steps of the
scheduler that runs it.  A `TaskProgram` says so step by step; what it does next may depend on what it has
seen and been answered, and it may go on where a step has raised.  A sequence of steps that the host of a
scheduler takes is such a program too.  The clock is read off the world, so it may show anything at any time.

Steps of tasks run other tasks, so performing a step is bounded by how deep tasks may run inside each other.
What happens to the slot and what every step answers is noted in a log, which programs do not see.
-/

import HookAtlas.Scheduler.Step
import Mathlib.Control.Monad.Basic

namespace HookAtlas

/-- What a task does, step by step: it looks at the world and changes it, asks the scheduler for steps, which
answer or raise, and in the end returns or raises. -/
inductive TaskProgram (τ α σ ε : Type)
  | finish (result : Except ε Unit)
  | look (next : σ → TaskProgram τ α σ ε)
  | update (change : σ → σ) (next : TaskProgram τ α σ ε)
  | ask (step : SchedulerStep τ α) (next : Except ε (StepAnswer τ) → TaskProgram τ α σ ε)

/-- The programs of all tasks, what the clock shows, and how an error is reported. -/
structure TaskPrograms (τ α σ ε : Type) where
  program : α → TaskProgram τ α σ ε
  clock : σ → τ
  report : ε → σ → σ

/-- A call that asks a scheduler to hold a task for some time from now. -/
structure ScheduleCall (τ α : Type) where
  task : α
  now : τ
  delay : τ
deriving DecidableEq

/-- What happens to a scheduler: a call is accepted, the pending task is dropped, a step starts a task with
another one pending or with none, or a step has ended with a task pending or with none. -/
inductive SchedulerEvent (τ α ε : Type)
  | accepted (call : ScheduleCall τ α)
  | dropped
  | began (task : α) (step : SchedulerStep τ α) (now : τ) (isPending : Bool)
  | did (step : SchedulerStep τ α) (answer : Except ε (StepAnswer τ)) (isPending : Bool)
deriving DecidableEq

/-- A world and what has happened to the scheduler in it, the latest last. -/
structure Logged (τ α σ ε : Type) where
  world : σ
  log : List (SchedulerEvent τ α ε)
deriving DecidableEq

/-- A scheduler and a logged world. -/
abbrev LoggedState (τ α σ ε : Type) := Scheduled τ α (Logged τ α σ ε)

variable {τ α σ ε : Type}

namespace LoggedState

def fresh (scheduler : Scheduler τ α) (world : σ) : LoggedState τ α σ ε :=
  ⟨scheduler, ⟨world, []⟩⟩

def update (change : σ → σ) (state : LoggedState τ α σ ε) : LoggedState τ α σ ε :=
  state.mapWorld fun logged => { logged with world := change logged.world }

def note (events : List (SchedulerEvent τ α ε)) (state : LoggedState τ α σ ε) : LoggedState τ α σ ε :=
  state.mapWorld fun logged => { logged with log := logged.log ++ events }

/-- The state in which a task starts that a step has taken from the slot. -/
def start (task : α) (step : SchedulerStep τ α) (now : τ) (state : LoggedState τ α σ ε) :
    LoggedState τ α σ ε :=
  note [.began task step now state.scheduler.isPending] state

@[simp]
theorem log_note (events : List (SchedulerEvent τ α ε)) (state : LoggedState τ α σ ε) :
    (note events state).world.log = state.world.log ++ events :=
  rfl

theorem note_append (events more : List (SchedulerEvent τ α ε)) (state : LoggedState τ α σ ε) :
    note (events ++ more) state = note more (note events state) := by
  simp [note, Scheduled.mapWorld]

end LoggedState

/-- Run a program, given how a step is performed.  No answer where a step has none. -/
def TaskProgram.run (perform : SchedulerStep τ α → LoggedState τ α σ ε →
      Option (Except ε (StepAnswer τ) × LoggedState τ α σ ε)) :
    TaskProgram τ α σ ε → LoggedState τ α σ ε → Option (Except ε Unit × LoggedState τ α σ ε)
  | .finish result, state => some (result, state)
  | .look next, state => (next state.world.world).run perform state
  | .update change next, state => next.run perform (LoggedState.update change state)
  | .ask step next, state =>
    match perform step state with
    | none => none
    | some (answer, after) => (next answer).run perform after

theorem TaskProgram.run_ask (perform : SchedulerStep τ α → LoggedState τ α σ ε →
      Option (Except ε (StepAnswer τ) × LoggedState τ α σ ε)) (step : SchedulerStep τ α)
    (next : Except ε (StepAnswer τ) → TaskProgram τ α σ ε) (state : LoggedState τ α σ ε) :
    (TaskProgram.ask step next).run perform state =
      (perform step state).bind fun ended => (next ended.1).run perform ended.2 := by
  rw [TaskProgram.run]
  cases perform step state with
  | none | some => rfl

namespace TaskPrograms

/-- Report an error in a logged world. -/
def reportLogged (programs : TaskPrograms τ α σ ε) (error : ε) (logged : Logged τ α σ ε) :
    Logged τ α σ ε :=
  { logged with world := programs.report error logged.world }

@[simp]
theorem log_afterTask (programs : TaskPrograms τ α σ ε) (passesErrors : Bool)
    (ended : Except ε Unit × LoggedState τ α σ ε) :
    (Scheduled.afterTask programs.reportLogged passesErrors ended).2.world.log = ended.2.world.log := by
  obtain ⟨_ | _, state⟩ := ended
  · cases passesErrors <;> rfl
  · rfl

/-- The end of a step that ran a task. -/
def endRun (programs : TaskPrograms τ α σ ε) (step : SchedulerStep τ α) (passesErrors : Bool)
    (ended : Except ε Unit × LoggedState τ α σ ε) : Except ε (StepAnswer τ) × LoggedState τ α σ ε :=
  let outcome := Scheduled.afterTask programs.reportLogged passesErrors ended
  (outcome.1, LoggedState.note [.did step outcome.1 outcome.2.scheduler.isPending] outcome.2)

@[simp]
theorem log_endRun (programs : TaskPrograms τ α σ ε) (step : SchedulerStep τ α) (passesErrors : Bool)
    (ended : Except ε Unit × LoggedState τ α σ ε) :
    (programs.endRun step passesErrors ended).2.world.log = ended.2.world.log ++
      [.did step (programs.endRun step passesErrors ended).1 ended.2.scheduler.isPending] := by
  simp [endRun]

/-- How tasks are hosted during a step, given how a task is run. -/
def hostFor (programs : TaskPrograms τ α σ ε)
    (run : α → LoggedState τ α σ ε → Option (Except ε Unit × LoggedState τ α σ ε))
    (step : SchedulerStep τ α) (now : τ) : TaskHost τ α (Logged τ α σ ε) ε where
  run task state := run task (LoggedState.start task step now state)
  clock logged := programs.clock logged.world
  report := programs.reportLogged

/-- What a step has done to the slot, beside starting a task. -/
def changes (step : SchedulerStep τ α) (now : τ) (wasPending : Bool)
    (answer : Except ε (StepAnswer τ)) : List (SchedulerEvent τ α ε) :=
  match step, answer with
  | .schedule task delay, .ok (.flag true) => [.accepted ⟨task, now, delay⟩]
  | .cancel, _ => if wasPending then [.dropped] else []
  | _, _ => []

variable [OfNat τ 0] [LT τ] [DecidableLT τ] [Add τ]

/-- Perform a step and note what it did, given how a task is run. -/
def performWith (programs : TaskPrograms τ α σ ε)
    (run : α → LoggedState τ α σ ε → Option (Except ε Unit × LoggedState τ α σ ε))
    (step : SchedulerStep τ α) (state : LoggedState τ α σ ε) :
    Option (Except ε (StepAnswer τ) × LoggedState τ α σ ε) :=
  let now := programs.clock state.world.world
  ((programs.hostFor run step now).perform step state).map fun ended =>
    (ended.1, LoggedState.note (changes step now state.scheduler.isPending ended.1 ++
      [.did step ended.1 ended.2.scheduler.isPending]) ended.2)

/-- Perform a step, given how deep tasks may run inside each other. -/
def perform (programs : TaskPrograms τ α σ ε) :
    Nat → SchedulerStep τ α → LoggedState τ α σ ε →
      Option (Except ε (StepAnswer τ) × LoggedState τ α σ ε)
  | 0 => programs.performWith fun _ _ => none
  | depth + 1 => programs.performWith fun task => (programs.program task).run (perform programs depth)

/-- The task that a step takes from the slot, and the slot without it. -/
def taken? (step : SchedulerStep τ α) (now : τ) (scheduler : Scheduler τ α) :
    Option (α × Scheduler τ α) :=
  match step with
  | .runDue => scheduler.takeDue? now
  | .runNow => scheduler.takeNow?
  | _ => none

/-- A step that may run a task runs the one that it takes. -/
theorem perform_eq_runTaken {host : TaskHost τ α σ ε} {step : SchedulerStep τ α} {state : Scheduled τ α σ}
    (hrun : step = .runDue ∨ step = .runNow) :
    host.perform step state =
      host.runTaken (taken? step (host.clock state.world) state.scheduler) state := by
  obtain rfl | rfl := hrun
  · rfl
  · rfl

section Steps

variable {programs : TaskPrograms τ α σ ε} {step : SchedulerStep τ α} {state : LoggedState τ α σ ε}
  {run : α → LoggedState τ α σ ε → Option (Except ε Unit × LoggedState τ α σ ε)}

/-- A step that takes no task from the slot to run it ends at once. -/
theorem performWith_of_not_taken (hrun : step = .runDue ∨ step = .runNow)
    (htaken : taken? step (programs.clock state.world.world) state.scheduler = none) :
    programs.performWith run step state =
      some (.ok (.flag false),
        LoggedState.note [.did step (.ok (.flag false)) state.scheduler.isPending] state) := by
  have hended : (programs.hostFor run step (programs.clock state.world.world)).perform step state =
      some (.ok (.flag false), state) := by
    rw [perform_eq_runTaken hrun]
    exact congrArg (TaskHost.runTaken _ · state) htaken
  rw [performWith, hended]
  obtain rfl | rfl := hrun
  · rfl
  · rfl

/-- A step that takes a task from the slot runs it in the state without it. -/
theorem performWith_of_taken {task : α} {left : Scheduler τ α} (hrun : step = .runDue ∨ step = .runNow)
    (htaken : taken? step (programs.clock state.world.world) state.scheduler = some (task, left)) :
    programs.performWith run step state =
      (run task (LoggedState.start task step (programs.clock state.world.world)
        { state with scheduler := left })).map
          (programs.endRun step state.scheduler.passesErrors) := by
  have hended : (programs.hostFor run step (programs.clock state.world.world)).perform step state =
      (run task (LoggedState.start task step (programs.clock state.world.world)
        { state with scheduler := left })).map
          (Scheduled.afterTask programs.reportLogged state.scheduler.passesErrors) := by
    rw [perform_eq_runTaken hrun]
    exact congrArg (TaskHost.runTaken _ · state) htaken
  rw [performWith, hended, Option.map_map]
  obtain rfl | rfl := hrun
  · rfl
  · rfl

/-- A step that has an answer has ended at once, or has taken a task from the slot and run it. -/
theorem performWith_cases {answer : Except ε (StepAnswer τ)} {after : LoggedState τ α σ ε}
    (hsome : programs.performWith run step state = some (answer, after)) :
    (∃ value scheduler events, answer = .ok value ∧
      after = LoggedState.note events { state with scheduler }) ∨
    ∃ task left ended,
      taken? step (programs.clock state.world.world) state.scheduler = some (task, left) ∧
      run task (LoggedState.start task step (programs.clock state.world.world)
        { state with scheduler := left }) = some ended ∧
      programs.endRun step state.scheduler.passesErrors ended = (answer, after) := by
  by_cases hrun : step = .runDue ∨ step = .runNow
  · cases htaken : taken? step (programs.clock state.world.world) state.scheduler with
    | none =>
        rw [performWith_of_not_taken hrun htaken] at hsome
        cases hsome
        exact .inl ⟨_, state.scheduler, _, rfl, rfl⟩
    | some taken =>
        obtain ⟨task, left⟩ := taken
        rw [performWith_of_taken hrun htaken] at hsome
        obtain ⟨ended, hended, houtcome⟩ := Option.map_eq_some_iff.mp hsome
        exact .inr ⟨task, left, ended, rfl, hended, houtcome⟩
  · cases step with
    | runDue | runNow => simp at hrun
    | schedule | isPending | cancel | timerStatus =>
        cases hsome
        exact .inl ⟨_, _, _, rfl, rfl⟩

end Steps

end TaskPrograms

/-! ## What runs keep -/

section Keeps

variable {property : LoggedState τ α σ ε → Prop}

/-- What updates and steps keep a program keeps, by induction on the program. -/
theorem TaskProgram.run_keeps
    {perform : SchedulerStep τ α → LoggedState τ α σ ε →
      Option (Except ε (StepAnswer τ) × LoggedState τ α σ ε)}
    (hupdate : ∀ change state, property state → property (LoggedState.update change state))
    (hperform : ∀ step state answer after, property state →
      perform step state = some (answer, after) → property after)
    {program : TaskProgram τ α σ ε} {state after : LoggedState τ α σ ε} {result : Except ε Unit}
    (hproperty : property state) (hrun : program.run perform state = some (result, after)) :
    property after := by
  induction program generalizing state with
  | finish result =>
      cases hrun
      exact hproperty
  | look next ih =>
      rw [TaskProgram.run] at hrun
      exact ih _ hproperty hrun
  | update change next ih =>
      rw [TaskProgram.run] at hrun
      exact ih (hupdate change state hproperty) hrun
  | ask step next ih =>
      rw [TaskProgram.run_ask] at hrun
      obtain ⟨⟨answer, mid⟩, hstep, hrest⟩ := Option.bind_eq_some_iff.mp hrun
      exact ih answer (hperform step state answer mid hproperty hstep) hrest

variable [OfNat τ 0] [LT τ] [DecidableLT τ] [Add τ]

/-- What updates keep, and steps as long as running a task does, is kept at every depth. -/
theorem TaskPrograms.perform_keeps {programs : TaskPrograms τ α σ ε}
    (hupdate : ∀ change state, property state → property (LoggedState.update change state))
    (hwith : ∀ run : α → LoggedState τ α σ ε → Option (Except ε Unit × LoggedState τ α σ ε),
      (∀ task state result after, property state → run task state = some (result, after) →
        property after) →
      ∀ step state answer after, property state →
        programs.performWith run step state = some (answer, after) → property after)
    (depth : Nat) :
    ∀ step state answer after, property state →
      programs.perform depth step state = some (answer, after) → property after := by
  induction depth with
  | zero => exact hwith _ fun _ _ _ _ _ hrun => nomatch hrun
  | succ depth ih =>
      refine hwith _ fun task state result after hproperty hrun => ?_
      exact TaskProgram.run_keeps hupdate ih hproperty hrun

end Keeps

end HookAtlas
