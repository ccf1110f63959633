/-
# One contract for both schedulers

A manual scheduler keeps its task with the time it is due, a timer scheduler keeps a running timer, and neither
shows which.  So tasks that take only the steps that both have cannot tell them apart, however deep they run inside
each other, until a task raises: then the manual scheduler passes the error to its caller, and the timer
scheduler reports it and answers that the task was run.

`Alike` relates the states of the two, and `Lockstep` what their runs come to.
-/

import HookAtlas.Proofs.Scheduler.Program

namespace HookAtlas

variable {τ α σ ε β : Type}

/-- Whether both schedulers have a step.  The host of a manual scheduler may ask it for what is due; a timer
scheduler shows its timer. -/
def SchedulerStep.isShared : SchedulerStep τ α → Bool
  | .runDue | .timerStatus => false
  | _ => true

namespace TaskProgram

/-- A program that takes only steps that both schedulers have. -/
def IsShared : TaskProgram τ α σ ε → Prop
  | .finish _ => True
  | .look next => ∀ world, (next world).IsShared
  | .update _ next => next.IsShared
  | .ask step next => step.isShared = true ∧ ∀ answer, (next answer).IsShared

/-- A program that does not raise where its steps do not. -/
def NeverRaises : TaskProgram τ α σ ε → Prop
  | .finish result => result = .ok ()
  | .look next => ∀ world, (next world).NeverRaises
  | .update _ next => next.NeverRaises
  | .ask _ next => ∀ answer, (next (.ok answer)).NeverRaises

end TaskProgram

namespace TaskPrograms

/-- All tasks take only steps that both schedulers have. -/
def AreShared (programs : TaskPrograms τ α σ ε) : Prop :=
  ∀ task, (programs.program task).IsShared

/-- No task raises. -/
def NeverRaise (programs : TaskPrograms τ α σ ε) : Prop :=
  ∀ task, (programs.program task).NeverRaises

end TaskPrograms

/-- A state of a manual scheduler and one of a timer scheduler that hold the same task in the same world, with
the same past. -/
inductive LoggedState.Alike : LoggedState τ α σ ε → LoggedState τ α σ ε → Prop
  | empty (logged : Logged τ α σ ε) : Alike ⟨.manual none, logged⟩ ⟨.timer none, logged⟩
  | pending (task : α) (due interval : τ) (logged : Logged τ α σ ε) :
      Alike ⟨.manual (some ⟨task, due⟩), logged⟩ ⟨.timer (some ⟨task, interval⟩), logged⟩

namespace LoggedState.Alike

variable {manual timer : LoggedState τ α σ ε}

theorem task?_eq (halike : Alike manual timer) : manual.scheduler.task? = timer.scheduler.task? := by
  cases halike with
  | empty | pending => rfl

theorem isPending_eq (halike : Alike manual timer) :
    manual.scheduler.isPending = timer.scheduler.isPending := by
  cases halike with
  | empty | pending => rfl

theorem world_eq (halike : Alike manual timer) : manual.world = timer.world := by
  cases halike with
  | empty | pending => rfl

theorem mapWorld (halike : Alike manual timer) (f : Logged τ α σ ε → Logged τ α σ ε) :
    Alike (manual.mapWorld f) (timer.mapWorld f) := by
  cases halike with
  | empty logged => exact .empty _
  | pending task due interval logged => exact .pending task due interval _

end LoggedState.Alike

/-! ## What runs come to -/

namespace TaskPrograms

/-- Two runs have come to the same result in states that are alike, or neither has come to an end. -/
def Agree (first second : Option (Except ε β × LoggedState τ α σ ε)) : Prop :=
  Option.Rel (fun manual timer => manual.1 = timer.1 ∧ LoggedState.Alike manual.2 timer.2) first second

/-- What is seen of the end of a run: its result, the world with what has happened, and the pending task. -/
def seen (ended : Except ε β × LoggedState τ α σ ε) : Except ε β × Logged τ α σ ε × Option α :=
  (ended.1, ended.2.world, ended.2.scheduler.task?)

theorem Agree.seen_eq {first second : Option (Except ε β × LoggedState τ α σ ε)}
    (hagree : Agree first second) : first.map seen = second.map seen := by
  match first, second, hagree with
  | none, none, _ => rfl
  | some (result, manual), some (_, timer), .some ⟨rfl, halike⟩ =>
      have hworld : manual.world = timer.world := halike.world_eq
      have htask : manual.scheduler.task? = timer.scheduler.task? := halike.task?_eq
      simp only [Option.map_some, seen, hworld, htask]

/-- What has happened in a run starts with these events, if the run has come to an end. -/
def StartsWith (events : List (SchedulerEvent τ α ε))
    (ended : Option (Except ε β × LoggedState τ α σ ε)) : Prop :=
  ∀ result after, ended = some (result, after) → events <+: after.world.log

/-- Two runs have parted where a task had raised that was run.  The same had happened in both until then, and
both had a task pending or both had none, but the first one passed the error and the second one did not. -/
def Parted (first second : Option (Except ε β × LoggedState τ α σ ε)) : Prop :=
  ∃ (common : List (SchedulerEvent τ α ε)) (error : ε) (isPending : Bool),
    StartsWith (common ++ [.did .runNow (.error error) isPending]) first ∧
      StartsWith (common ++ [.did .runNow (.ok (.flag true)) isPending]) second

/-- Two runs agree, or they have parted, which takes a task that may raise. -/
def Lockstep (programs : TaskPrograms τ α σ ε)
    (first second : Option (Except ε β × LoggedState τ α σ ε)) : Prop :=
  Agree first second ∨ ¬ programs.NeverRaise ∧ Parted first second

section Bind

variable {γ : Type} {programs : TaskPrograms τ α σ ε}
  {first second : Option (Except ε β × LoggedState τ α σ ε)}
  {f g : Except ε β × LoggedState τ α σ ε → Option (Except ε γ × LoggedState τ α σ ε)}

theorem StartsWith.bind {events : List (SchedulerEvent τ α ε)} (hstarts : StartsWith events first)
    (hgrows : ∀ ended, StartsWith ended.2.world.log (f ended)) : StartsWith events (first.bind f) := by
  intro result after hsome
  obtain ⟨⟨mid, ended⟩, hfirst, hrest⟩ := Option.bind_eq_some_iff.mp hsome
  exact (hstarts mid ended hfirst).trans (hgrows _ _ _ hrest)

/-- Runs that have parted stay so, since what has happened is not undone. -/
theorem Parted.bind (hparted : Parted first second) (hf : ∀ ended, StartsWith ended.2.world.log (f ended))
    (hg : ∀ ended, StartsWith ended.2.world.log (g ended)) : Parted (first.bind f) (second.bind g) := by
  obtain ⟨common, error, isPending, hfirst, hsecond⟩ := hparted
  exact ⟨common, error, isPending, hfirst.bind hf, hsecond.bind hg⟩

/-- What goes on in lockstep from each common result does so from runs in lockstep. -/
theorem Lockstep.bind (hlockstep : programs.Lockstep first second)
    (hnext : ∀ result manual timer, first = some (result, manual) → LoggedState.Alike manual timer →
      programs.Lockstep (f (result, manual)) (g (result, timer)))
    (hf : ∀ ended, StartsWith ended.2.world.log (f ended))
    (hg : ∀ ended, StartsWith ended.2.world.log (g ended)) :
    programs.Lockstep (first.bind f) (second.bind g) := by
  obtain hagree | ⟨hraise, hparted⟩ := hlockstep
  · match first, second, hagree with
    | none, none, _ => exact .inl .none
    | some (result, manual), some (_, timer), .some ⟨rfl, halike⟩ =>
        exact hnext result manual timer rfl halike
  · exact .inr ⟨hraise, hparted.bind hf hg⟩

end Bind

end TaskPrograms

namespace TaskProgram

open TaskPrograms

variable {perform : SchedulerStep τ α → LoggedState τ α σ ε →
  Option (Except ε (StepAnswer τ) × LoggedState τ α σ ε)}

/-- A program undoes nothing of what has happened where steps do not. -/
theorem run_startsWith (hgrows : ∀ step state, StartsWith state.world.log (perform step state))
    (program : TaskProgram τ α σ ε) (state : LoggedState τ α σ ε) :
    StartsWith state.world.log (program.run perform state) := by
  intro result after hrun
  have hperform : ∀ step mid answer (later : LoggedState τ α σ ε), state.world.log <+: mid.world.log →
      perform step mid = some (answer, later) → state.world.log <+: later.world.log :=
    fun step mid answer later hkept hstep => hkept.trans (hgrows step mid answer later hstep)
  refine TaskProgram.run_keeps ?_ hperform (List.prefix_refl state.world.log) hrun
  exact fun _ _ hkept => hkept

/-- A program that never raises ends well where its steps do. -/
theorem run_ok
    (hperform : ∀ step state result after, perform step state = some (result, after) →
      ∃ answer, result = .ok answer)
    {program : TaskProgram τ α σ ε} (hnever : program.NeverRaises) {state after : LoggedState τ α σ ε}
    {result : Except ε Unit} (hrun : program.run perform state = some (result, after)) :
    result = .ok () := by
  induction program generalizing state with
  | finish result =>
      cases hrun
      exact hnever
  | look next ih => exact ih _ (hnever _) hrun
  | update change next ih => exact ih hnever hrun
  | ask step next ih =>
      rw [TaskProgram.run_ask] at hrun
      obtain ⟨⟨result, mid⟩, hstep, hrest⟩ := Option.bind_eq_some_iff.mp hrun
      obtain ⟨answer, rfl⟩ := hperform step state result mid hstep
      exact ih (.ok answer) (hnever answer) hrest

/-- Programs run in lockstep where steps do, by induction on the program. -/
theorem run_lockstep {programs : TaskPrograms τ α σ ε}
    (hperform : ∀ step manual timer, step.isShared = true → LoggedState.Alike manual timer →
      programs.Lockstep (perform step manual) (perform step timer))
    (hgrows : ∀ step state, StartsWith state.world.log (perform step state))
    {program : TaskProgram τ α σ ε} (hshared : program.IsShared) {manual timer : LoggedState τ α σ ε}
    (halike : LoggedState.Alike manual timer) :
    programs.Lockstep (program.run perform manual) (program.run perform timer) := by
  induction program generalizing manual timer with
  | finish result => exact .inl (.some ⟨rfl, halike⟩)
  | look next ih =>
      simp only [TaskProgram.run, halike.world_eq]
      exact ih _ (hshared _) halike
  | update change next ih => exact ih hshared (halike.mapWorld _)
  | ask step next ih =>
      obtain ⟨hstep, hnext⟩ := hshared
      have hrest : ∀ ended : Except ε (StepAnswer τ) × LoggedState τ α σ ε,
          StartsWith ended.2.world.log ((next ended.1).run perform ended.2) :=
        fun ended => run_startsWith hgrows _ _
      rw [TaskProgram.run_ask, TaskProgram.run_ask]
      refine (hperform step manual timer hstep halike).bind ?_ hrest hrest
      exact fun answer manual timer _ halike => ih answer (hnext answer) halike

end TaskProgram

/-! ## Steps -/

namespace TaskPrograms

section Steps

variable {programs : TaskPrograms τ α σ ε}
  {run : α → LoggedState τ α σ ε → Option (Except ε Unit × LoggedState τ α σ ε)}

theorem endRun_startsWith (step : SchedulerStep τ α) (passesErrors : Bool)
    (ended : Except ε Unit × LoggedState τ α σ ε) :
    StartsWith ended.2.world.log (some (programs.endRun step passesErrors ended)) := by
  intro answer after hsome
  have hlog := log_endRun programs step passesErrors ended
  rw [Option.some.inj hsome] at hlog
  exact hlog ▸ List.prefix_append _ _

/-- The ends of steps that ran a task agree if it has returned, and part if it has raised. -/
theorem endRun_lockstep {manual timer : LoggedState τ α σ ε} {result : Except ε Unit}
    (halike : LoggedState.Alike manual timer) (hok : programs.NeverRaise → result = .ok ()) :
    programs.Lockstep (some (programs.endRun .runNow true (result, manual)))
      (some (programs.endRun .runNow false (result, timer))) := by
  cases result with
  | ok value =>
      refine .inl (.some ⟨rfl, ?_⟩)
      simp only [endRun, Scheduled.afterTask, halike.isPending_eq]
      exact halike.mapWorld _
  | error error =>
      have hraise : ¬ programs.NeverRaise := by
        intro hnever
        cases hok hnever
      refine .inr ⟨hraise, manual.world.log, error, manual.scheduler.isPending, ?_, ?_⟩
      · rintro _ _ ⟨⟩
        exact List.prefix_refl _
      · rintro _ _ ⟨⟩
        rw [halike.isPending_eq, halike.world_eq]
        exact List.prefix_refl _

variable [OfNat τ 0] [LT τ] [DecidableLT τ] [Add τ]

theorem performWith_startsWith (hrun : ∀ task state, StartsWith state.world.log (run task state))
    (step : SchedulerStep τ α) (state : LoggedState τ α σ ε) :
    StartsWith state.world.log (programs.performWith run step state) := by
  intro answer after hsome
  obtain ⟨_, _, events, _, rfl⟩ | ⟨task, left, ⟨result, ended⟩, -, hended, houtcome⟩ :=
    performWith_cases hsome
  · exact List.prefix_append _ events
  · have hstarted := (List.prefix_append _ _).trans (hrun _ _ _ _ hended)
    exact hstarted.trans (endRun_startsWith step _ (result, ended) answer after (congrArg some houtcome))

/-- A step does not raise where tasks do not. -/
theorem performWith_ok
    (hrun : ∀ task state result after, run task state = some (result, after) → result = .ok ())
    {step : SchedulerStep τ α} {state after : LoggedState τ α σ ε} {result : Except ε (StepAnswer τ)}
    (hsome : programs.performWith run step state = some (result, after)) :
    ∃ answer, result = .ok answer := by
  obtain ⟨value, _, _, rfl, _⟩ | ⟨task, left, ⟨result, ended⟩, -, hended, houtcome⟩ :=
    performWith_cases hsome
  · exact ⟨value, rfl⟩
  · obtain rfl := hrun _ _ _ _ hended
    cases houtcome
    exact ⟨_, rfl⟩

/-- Steps are in lockstep where tasks are. -/
theorem performWith_lockstep
    (hrun : ∀ task manual timer, LoggedState.Alike manual timer →
      programs.Lockstep (run task manual) (run task timer))
    (hok : programs.NeverRaise → ∀ task state result after, run task state = some (result, after) →
      result = .ok ())
    (step : SchedulerStep τ α) (manual timer : LoggedState τ α σ ε) (hshared : step.isShared = true)
    (halike : LoggedState.Alike manual timer) :
    programs.Lockstep (programs.performWith run step manual) (programs.performWith run step timer) := by
  cases step with
  | runDue | timerStatus => cases hshared
  | isPending =>
      cases halike with
      | empty logged => exact .inl (.some ⟨rfl, .empty _⟩)
      | pending task due interval logged => exact .inl (.some ⟨rfl, .pending task due interval _⟩)
  | cancel =>
      cases halike with
      | empty | pending => exact .inl (.some ⟨rfl, .empty _⟩)
  | schedule task delay =>
      cases halike with
      | empty logged => exact .inl (.some ⟨rfl, .pending task _ _ _⟩)
      | pending other due interval logged => exact .inl (.some ⟨rfl, .pending other due interval _⟩)
  | runNow =>
      cases halike with
      | empty logged => exact .inl (.some ⟨rfl, .empty _⟩)
      | pending task due interval logged =>
          rw [performWith_of_taken (.inr rfl) rfl, performWith_of_taken (.inr rfl) rfl,
            Option.map_eq_bind, Option.map_eq_bind]
          have hstart := (LoggedState.Alike.empty logged).mapWorld fun past =>
            { past with log := past.log ++ [.began task .runNow (programs.clock logged.world) false] }
          refine (hrun task _ _ hstart).bind ?_ (endRun_startsWith .runNow true)
            (endRun_startsWith .runNow false)
          exact fun result manual timer hresult halike =>
            endRun_lockstep halike fun hnever => hok hnever _ _ _ _ hresult

end Steps

variable [OfNat τ 0] [LT τ] [DecidableLT τ] [Add τ]

/-- Run a task that was taken from the slot at once. -/
def runTaken (programs : TaskPrograms τ α σ ε) (depth : Nat) (task : α) (emptied : Scheduler τ α)
    (logged : Logged τ α σ ε) : Option (Except ε Unit × LoggedState τ α σ ε) :=
  (programs.program task).run (programs.perform depth)
    (LoggedState.start task .runNow (programs.clock logged.world) ⟨emptied, logged⟩)

section Depth

variable {programs : TaskPrograms τ α σ ε}

theorem perform_startsWith (depth : Nat) :
    ∀ step state, StartsWith state.world.log (programs.perform depth step state) := by
  induction depth with
  | zero => exact performWith_startsWith fun _ _ => nofun
  | succ depth ih => exact performWith_startsWith fun _ => TaskProgram.run_startsWith ih _

theorem perform_ok (hnever : programs.NeverRaise) (depth : Nat) :
    ∀ step state result after, programs.perform depth step state = some (result, after) →
      ∃ answer, result = .ok answer := by
  induction depth with
  | zero => exact fun _ _ _ _ => performWith_ok nofun
  | succ depth ih =>
      exact fun _ _ _ _ => performWith_ok fun task _ _ _ => TaskProgram.run_ok ih (hnever task)

/-- Steps are in lockstep however deep tasks run inside each other, by induction on the depth. -/
theorem perform_lockstep (hshared : programs.AreShared) (depth : Nat) :
    ∀ step manual timer, step.isShared = true → LoggedState.Alike manual timer →
      programs.Lockstep (programs.perform depth step manual) (programs.perform depth step timer) := by
  induction depth with
  | zero => exact performWith_lockstep (fun _ _ _ _ => .inl .none) (fun _ => nofun)
  | succ depth ih =>
      have hrun : ∀ task manual timer, LoggedState.Alike manual timer → programs.Lockstep
          ((programs.program task).run (programs.perform depth) manual)
          ((programs.program task).run (programs.perform depth) timer) :=
        fun task _ _ => TaskProgram.run_lockstep ih (perform_startsWith depth) (hshared task)
      exact performWith_lockstep hrun fun hnever task _ _ _ =>
        TaskProgram.run_ok (perform_ok hnever depth) (hnever task)

end Depth

/-- Where the host and all tasks take only steps that both schedulers have, what is seen of a manual scheduler
is what is seen of a timer scheduler if no task raises, and otherwise the same until a task has raised.  After
any task that raises both leave the slot as the task has left it, while the manual scheduler passes the error
and the timer scheduler reports it. -/
theorem schedulers_agree (programs : TaskPrograms τ α σ ε) :
    (programs.AreShared → ∀ host : TaskProgram τ α σ ε, host.IsShared → ∀ (depth : Nat) (world : σ),
      let manual := host.run (programs.perform depth) (LoggedState.fresh (.manual none) world)
      let timer := host.run (programs.perform depth) (LoggedState.fresh (.timer none) world)
      (programs.NeverRaise → manual.map seen = timer.map seen) ∧ (Agree manual timer ∨ Parted manual timer)) ∧
    ∀ (depth : Nat) (logged : Logged τ α σ ε) (error : ε) (left : LoggedState τ α σ ε),
      (∀ waiting : PendingTask τ α,
        programs.runTaken depth waiting.task (.manual none) logged = some (.error error, left) →
        programs.perform (depth + 1) .runNow ⟨.manual (some waiting), logged⟩ = some (.error error,
          LoggedState.note [.did .runNow (.error error) left.scheduler.isPending] left)) ∧
      ∀ timer : Timer τ α,
        programs.runTaken depth timer.task (.timer none) logged = some (.error error, left) →
        programs.perform (depth + 1) .runNow ⟨.timer (some timer), logged⟩ = some (.ok (.flag true),
          LoggedState.note [.did .runNow (.ok (.flag true)) left.scheduler.isPending]
            (LoggedState.update (programs.report error) left)) := by
  refine ⟨fun hshared host hhost depth world => ?_, fun depth logged error left => ⟨?_, ?_⟩⟩
  · have hlockstep := TaskProgram.run_lockstep (perform_lockstep hshared depth) (perform_startsWith depth)
      hhost (.empty ⟨world, []⟩)
    obtain hagree | ⟨hraise, hparted⟩ := hlockstep
    · exact ⟨fun _ => hagree.seen_eq, .inl hagree⟩
    · exact ⟨fun hnever => absurd hnever hraise, .inr hparted⟩
  · intro waiting hrun
    rw [perform, performWith_of_taken (.inr rfl) rfl]
    exact congrArg (Option.map (programs.endRun .runNow true)) hrun
  · intro timer hrun
    rw [perform, performWith_of_taken (.inr rfl) rfl]
    exact congrArg (Option.map (programs.endRun .runNow false)) hrun

/-- Task 0 schedules and runs task 1, drops what task 1 has scheduled, and schedules task 2.  Task 1 schedules
task 2, and may then raise.  The world is what the clock shows, and reporting an error takes time. -/
def nestedTasks (raises : Bool) : TaskPrograms Nat Nat Nat Unit where
  program
    | 0 => .ask (.schedule 1 0) fun _ => .ask .runNow fun _ => .ask .cancel fun _ =>
        .ask (.schedule 2 5) fun _ => .finish (.ok ())
    | 1 => .ask (.schedule 2 0) fun _ => .finish (if raises then .error () else .ok ())
    | _ => .finish (.ok ())
  clock now := now
  report _ now := now + 1

/-- A host that schedules task 0, runs it, and asks whether a task is pending. -/
def nestedHost : TaskProgram Nat Nat Nat Unit :=
  .ask (.schedule 0 10) fun _ => .ask .runNow fun _ => .ask .isPending fun _ => .finish (.ok ())

theorem areShared_nestedTasks (raises : Bool) : (nestedTasks raises).AreShared := by
  rintro (_ | _ | _) <;> simp [nestedTasks, TaskProgram.IsShared, SchedulerStep.isShared]

/-- A run without errors, and the ends of one that raises, with what has happened in it. -/
theorem schedulers_agree_nested :
    let manual := nestedHost.run ((nestedTasks false).perform 2) (LoggedState.fresh (.manual none) 0)
    let timer := nestedHost.run ((nestedTasks false).perform 2) (LoggedState.fresh (.timer none) 0)
    (manual.isSome = true ∧ manual.map seen = timer.map seen) ∧
      (nestedTasks true).perform 1 .runNow ⟨.manual (some ⟨1, 0⟩), ⟨0, []⟩⟩ = some (.error (),
        ⟨.manual (some ⟨2, 0⟩), ⟨0, [
          .began 1 .runNow 0 false,
          .accepted ⟨2, 0, 0⟩,
          .did (.schedule 2 0) (.ok (.flag true)) true,
          .did .runNow (.error ()) true]⟩⟩) ∧
      (nestedTasks true).perform 1 .runNow ⟨.timer (some ⟨1, 0⟩), ⟨0, []⟩⟩ = some (.ok (.flag true),
        ⟨.timer (some ⟨2, 0⟩), ⟨1, [
          .began 1 .runNow 0 false,
          .accepted ⟨2, 0, 0⟩,
          .did (.schedule 2 0) (.ok (.flag true)) true,
          .did .runNow (.ok (.flag true)) true]⟩⟩) := by
  have hnever : (nestedTasks false).NeverRaise := by
    rintro (_ | _ | _) <;> simp [nestedTasks, TaskProgram.NeverRaises]
  have hhost : nestedHost.IsShared := by simp [nestedHost, TaskProgram.IsShared, SchedulerStep.isShared]
  have hraising := (schedulers_agree (nestedTasks true)).2
  refine ⟨⟨by decide +kernel, ?_⟩, ?_, ?_⟩
  · exact ((schedulers_agree _).1 (areShared_nestedTasks false) nestedHost hhost 2 0).1 hnever
  · exact (hraising 0 ⟨0, []⟩ () _).1 ⟨1, 0⟩ rfl
  · exact (hraising 0 ⟨0, []⟩ () _).2 ⟨1, 0⟩ rfl

end TaskPrograms

end HookAtlas
