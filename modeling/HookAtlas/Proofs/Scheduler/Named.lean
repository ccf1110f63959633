/-
# Named tasks

Named tasks are programs of a special form: `Task.program` says which.  A log is only noted, so forgetting it
turns what the programs do into what the runner of named tasks does.

A named task can only set tasks in motion that it contains.  So the pending task and the rest of the acts weigh
less with every task that starts inside another one, and the runner always has an answer.
-/

import HookAtlas.Proofs.Scheduler.Program
import HookAtlas.Scheduler.Task

namespace HookAtlas

/-! ## Forgetting the log -/

section Forget

variable {τ α σ ε β : Type}

namespace LoggedState

/-- A state without its log. -/
def forget (state : LoggedState τ α σ ε) : Scheduled τ α σ :=
  ⟨state.scheduler, state.world.world⟩

/-- The end of a run without the log. -/
def forgetEnd (ended : β × LoggedState τ α σ ε) : β × Scheduled τ α σ :=
  (ended.1, ended.2.forget)

end LoggedState

open LoggedState

variable {programs : TaskPrograms τ α σ ε} {host : TaskHost τ α σ ε}
  {run : α → LoggedState τ α σ ε → Option (Except ε Unit × LoggedState τ α σ ε)}

/-- Without the log an error passes on or is reported as it is with it. -/
theorem forgetEnd_endRun (hreport : host.report = programs.report) (step : SchedulerStep τ α)
    (passesErrors : Bool) (ended : Except ε Unit × LoggedState τ α σ ε) :
    forgetEnd (programs.endRun step passesErrors ended) =
      Scheduled.afterTask host.report passesErrors (forgetEnd ended) := by
  obtain ⟨_ | _, state⟩ := ended
  · rw [hreport]
    cases passesErrors <;> rfl
  · rfl

variable [OfNat τ 0] [LT τ] [DecidableLT τ] [Add τ]

/-- A step does the same without the log if running a task does. -/
theorem TaskPrograms.performWith_forget (hclock : host.clock = programs.clock)
    (hreport : host.report = programs.report)
    (hrun : ∀ task state, (run task state).map forgetEnd = host.run task state.forget)
    (step : SchedulerStep τ α) (state : LoggedState τ α σ ε) :
    (programs.performWith run step state).map forgetEnd = host.perform step state.forget := by
  by_cases hisRun : step = .runDue ∨ step = .runNow
  · have hhost : host.perform step state.forget = host.runTaken
        (taken? step (programs.clock state.world.world) state.scheduler) state.forget := by
      rw [perform_eq_runTaken hisRun, hclock]
      rfl
    cases htaken : taken? step (programs.clock state.world.world) state.scheduler with
    | none =>
        rw [performWith_of_not_taken hisRun htaken, hhost, htaken]
        rfl
    | some taken =>
        obtain ⟨task, left⟩ := taken
        have hended := hrun task (LoggedState.start task step (programs.clock state.world.world)
          { state with scheduler := left })
        have hoption := congrArg
          (Option.map (Scheduled.afterTask host.report state.scheduler.passesErrors)) hended
        rw [performWith_of_taken hisRun htaken, hhost, htaken, Option.map_map]
        rw [Option.map_map] at hoption
        refine Eq.trans (Option.map_congr fun ended _ => ?_) hoption
        exact forgetEnd_endRun hreport step state.scheduler.passesErrors ended
  · cases step with
    | runDue | runNow => simp at hisRun
    | schedule | isPending | cancel | timerStatus =>
        simp only [performWith, TaskHost.perform, hostFor, ← hclock]
        rfl

end Forget

/-! ## Named tasks as programs -/

namespace Task

open LoggedState

/-- The program of the acts of a task. -/
def programOfActs (name : Text) : List (TaskAct Task) → TaskProgram Float Task TaskWorld TaskRaised
  | [] => .finish (.ok ())
  | .raise :: _ => .finish (.error ⟨name⟩)
  | .advance seconds :: acts =>
    .update (TaskWorld.advance seconds) <| .look fun world =>
      .update (TaskWorld.note (.did (.advance seconds) (.time world.clock))) (programOfActs name acts)
  | .step step :: acts =>
    .ask step fun
      | .ok answer => .update (TaskWorld.note (.did (.step step) (.step answer))) (programOfActs name acts)
      | .error raised => .finish (.error raised)

/-- The program of a task.  It notes whether a task is pending when it starts. -/
def program (task : Task) : TaskProgram Float Task TaskWorld TaskRaised :=
  .ask .isPending fun
    | .ok (.flag isPending) =>
      .update (TaskWorld.note (.began task.name isPending)) (programOfActs task.name task.acts)
    | _ => .finish (.ok ())

/-- The programs of all named tasks. -/
def programs : TaskPrograms Float Task TaskWorld TaskRaised where
  program := program
  clock := TaskWorld.clock
  report _ world := { world with notices := world.notices ++ [.taskRaised] }

/-- Without the log the program of the acts of a task does what the runner does, by induction on the acts. -/
theorem run_programOfActs_forget {perform : SchedulerStep Float Task →
      LoggedState Float Task TaskWorld TaskRaised →
      Option (Except TaskRaised (StepAnswer Float) × LoggedState Float Task TaskWorld TaskRaised)}
    {host : TaskHost Float Task TaskWorld TaskRaised}
    (hperform : ∀ step state, (perform step state).map forgetEnd = host.perform step state.forget)
    (name : Text) (acts : List (TaskAct Task)) (state : LoggedState Float Task TaskWorld TaskRaised) :
    ((programOfActs name acts).run perform state).map forgetEnd =
      Runner.performActs host name acts state.forget := by
  induction acts generalizing state with
  | nil => rfl
  | cons act acts ih =>
      cases act with
      | raise => rfl
      | advance seconds => exact ih _
      | step step =>
          rw [programOfActs, TaskProgram.run_ask, Runner.performActs, ← hperform step state]
          rcases perform step state with _ | ⟨_ | answer, after⟩
          · rfl
          · rfl
          · exact ih _

/-- Without the log the programs of named tasks do what the runner does, however deep they run inside each
other. -/
theorem perform_forget (depth : Nat) (step : SchedulerStep Float Task)
    (state : LoggedState Float Task TaskWorld TaskRaised) :
    (programs.perform depth step state).map forgetEnd = (Runner.host depth).perform step state.forget := by
  induction depth generalizing step state with
  | zero => exact TaskPrograms.performWith_forget rfl rfl (fun _ _ => rfl) step state
  | succ depth ih =>
      refine TaskPrograms.performWith_forget rfl rfl (fun task state => ?_) step state
      have hasked : programs.perform depth .isPending state = some (.ok (.flag state.scheduler.isPending),
          LoggedState.note [.did .isPending (.ok (.flag state.scheduler.isPending)) state.scheduler.isPending]
            state) := by
        cases depth with
        | zero | succ => rfl
      have hrun : (program task).run (programs.perform depth) state =
          (programOfActs task.name task.acts).run (programs.perform depth)
            (LoggedState.update (TaskWorld.note (.began task.name state.scheduler.isPending))
              (LoggedState.note
                [.did .isPending (.ok (.flag state.scheduler.isPending)) state.scheduler.isPending] state)) := by
        rw [program, TaskProgram.run_ask, hasked]
        rfl
      exact (congrArg (Option.map forgetEnd) hrun).trans
        (run_programOfActs_forget ih task.name task.acts _)

end Task

/-! ## The runner has an answer -/

/-- A task that is taken from the slot was pending, and none is then. -/
theorem TaskPrograms.task?_of_taken {τ α : Type} [LT τ] [DecidableLT τ] {step : SchedulerStep τ α} {now : τ}
    {scheduler left : Scheduler τ α} {task : α} (htaken : taken? step now scheduler = some (task, left)) :
    scheduler.task? = some task ∧ left.task? = none := by
  cases step with
  | schedule | isPending | cancel | timerStatus => cases htaken
  | runNow =>
      rcases scheduler with (_ | waiting) | (_ | timer) <;> cases htaken <;> exact ⟨rfl, rfl⟩
  | runDue =>
      rcases scheduler with (_ | waiting) | timer
      · cases htaken
      · simp only [taken?, Scheduler.takeDue?] at htaken
        split at htaken
        · cases htaken
        · cases htaken
          exact ⟨rfl, rfl⟩
      · cases htaken

namespace Runner

variable {β : Type} {host : TaskHost Float Task TaskWorld TaskRaised} {fuel : Nat}

/-- The number of tasks in the pending one. -/
def pendingWeight (scheduler : Scheduler Float Task) : Nat :=
  scheduler.task?.elim 0 Task.weight

/-- There is an answer, and the task that is pending then has no more tasks than a bound. -/
def Answers (bound : Nat) (ended : Option (Except TaskRaised β × Runner)) : Prop :=
  ∃ result after, ended = some (result, after) ∧ pendingWeight after.scheduler ≤ bound

theorem Answers.mono {bound higher : Nat} {ended : Option (Except TaskRaised β × Runner)}
    (hanswers : Answers bound ended) (hle : bound ≤ higher) : Answers higher ended := by
  obtain ⟨result, after, hended, hbound⟩ := hanswers
  exact ⟨result, after, hended, Nat.le_trans hbound hle⟩

/-- A step has an answer if running the tasks that it can set in motion has one. -/
theorem perform_answers
    (hrun : ∀ (task : Task) (runner : Runner), runner.scheduler.task? = none → task.weight ≤ fuel →
      Answers task.weight (host.run task runner))
    (step : SchedulerStep Float Task) (runner : Runner) (hreach : reach step runner ≤ fuel) :
    Answers (reach step runner) (host.perform step runner) := by
  have hisRun : step = .runDue ∨ step = .runNow →
      Answers (reach step runner) (host.perform step runner) := by
    intro hisRun
    rw [TaskPrograms.perform_eq_runTaken hisRun]
    cases htaken : TaskPrograms.taken? step (host.clock runner.world) runner.scheduler with
    | none => exact ⟨_, _, rfl, Nat.le_add_right _ _⟩
    | some taken =>
        obtain ⟨task, left⟩ := taken
        obtain ⟨htask, hleft⟩ := TaskPrograms.task?_of_taken htaken
        have hweight : task.weight ≤ reach step runner := by
          unfold reach
          rw [htask]
          exact Nat.le_add_right _ _
        obtain ⟨result, after, hended, hbound⟩ :=
          hrun task { runner with scheduler := left } hleft (Nat.le_trans hweight hreach)
        have hslot := Scheduled.scheduler_afterTask host.report runner.scheduler.passesErrors (result, after)
        refine ⟨_, _, congrArg (Option.map _) hended, ?_⟩
        exact Nat.le_trans (Nat.le_of_eq (congrArg pendingWeight hslot)) (Nat.le_trans hbound hweight)
  cases step with
  | isPending | timerStatus => exact ⟨_, _, rfl, Nat.le_add_right _ _⟩
  | cancel =>
      obtain ⟨(_ | _), world⟩ := runner
      · exact ⟨_, _, rfl, Nat.zero_le _⟩
      · exact ⟨_, _, rfl, Nat.zero_le _⟩
  | schedule task delay =>
      obtain ⟨(_ | _) | (_ | _), world⟩ := runner
      · exact ⟨_, _, rfl, Nat.le_add_left _ _⟩
      · exact ⟨_, _, rfl, Nat.le_add_right _ _⟩
      · exact ⟨_, _, rfl, Nat.le_add_left _ _⟩
      · exact ⟨_, _, rfl, Nat.le_add_right _ _⟩
  | runDue => exact hisRun (.inl rfl)
  | runNow => exact hisRun (.inr rfl)

/-- The acts of a task have an answer if steps do, by induction on the acts. -/
theorem performActs_answers
    (hperform : ∀ step runner, reach step runner ≤ fuel →
      Answers (reach step runner) (host.perform step runner))
    (name : Text) (acts : List (TaskAct Task)) (runner : Runner)
    (hreach : pendingWeight runner.scheduler + Task.weightOfActs acts ≤ fuel) :
    Answers (pendingWeight runner.scheduler + Task.weightOfActs acts)
      (performActs host name acts runner) := by
  induction acts generalizing runner with
  | nil => exact ⟨_, _, rfl, Nat.le_add_right _ _⟩
  | cons act acts ih =>
      rw [Task.weightOfActs] at hreach ⊢
      cases act with
      | raise => exact ⟨_, _, rfl, Nat.le_add_right _ _⟩
      | advance seconds =>
          rw [Task.weightOfAct, Nat.zero_add] at hreach ⊢
          exact ih _ hreach
      | step step =>
          rw [Task.weightOfAct, ← Nat.add_assoc] at hreach ⊢
          -- what the step leaves pending weighs no more than what it could set in motion
          obtain ⟨answer, mid, hstep, hmid⟩ := hperform step runner (Nat.le_trans (Nat.le_add_right _ _) hreach)
          have hbound : pendingWeight mid.scheduler + Task.weightOfActs acts ≤
              reach step runner + Task.weightOfActs acts := Nat.add_le_add_right hmid _
          rw [performActs, hstep]
          cases answer with
          | error raised => exact ⟨_, _, rfl, Nat.le_trans (Nat.le_add_right _ _) hbound⟩
          | ok answer =>
              let noted := mid.mapWorld (TaskWorld.note (.did (.step step) (.step answer)))
              exact (ih noted (Nat.le_trans hbound hreach)).mono hbound

/-- The tasks that a step can set in motion bound how deep they run inside each other, by induction on the
bound. -/
theorem host_answers (fuel : Nat) (step : SchedulerStep Float Task) (runner : Runner)
    (hreach : reach step runner ≤ fuel) : Answers (reach step runner) ((Runner.host fuel).perform step runner) := by
  induction fuel generalizing step runner with
  | zero =>
      refine perform_answers (fun task runner _ hweight => ?_) step runner hreach
      cases task
      simp [Task.weight] at hweight
  | succ fuel ih =>
      refine perform_answers (fun task runner hnone hweight => ?_) step runner hreach
      obtain ⟨name, acts⟩ := task
      rw [Task.weight] at hweight ⊢
      have hempty : pendingWeight runner.scheduler = 0 := by rw [pendingWeight, hnone, Option.elim_none]
      let began := runner.mapWorld (TaskWorld.note (.began name runner.scheduler.isPending))
      have hacts : pendingWeight began.scheduler + Task.weightOfActs acts ≤ fuel := by
        change pendingWeight runner.scheduler + _ ≤ fuel
        omega
      refine (performActs_answers ih name acts began hacts).mono ?_
      change pendingWeight runner.scheduler + _ ≤ _
      omega

/-- A step of named tasks always has an answer. -/
theorem exists_perform (step : SchedulerStep Float Task) (runner : Runner) :
    ∃ answer after, perform step runner = some (answer, after) := by
  obtain ⟨answer, after, hperform, -⟩ := host_answers _ step runner (Nat.le_refl _)
  exact ⟨answer, after, hperform⟩

end Runner

end HookAtlas
