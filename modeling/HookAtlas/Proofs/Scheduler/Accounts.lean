/-
# What becomes of an accepted call

A manual scheduler holds one task at most, whoever asks it: its host, a task that it runs, or a task that runs
inside that one.  So what happens to its slot is a single sequence, in which every accepted call is followed
by what became of it, a start or a drop, before the next call is accepted.

`Accounts` says so of a state.  A step keeps it as long as running a task does, so runs keep it however deep
tasks run inside each other and whether they raise or not.
-/

import HookAtlas.Proofs.Scheduler.Program

namespace HookAtlas

variable {τ α σ ε : Type}

/-- How an accepted call was settled: a step started its task, or the task was dropped. -/
inductive Ending (τ α : Type)
  | began (step : SchedulerStep τ α) (now : τ)
  | dropped

/-- The event of an ending.  A task starts while no task is pending. -/
def Ending.event (call : ScheduleCall τ α) : Ending τ α → SchedulerEvent τ α ε
  | .began step now => .began call.task step now false
  | .dropped => .dropped

/-- An accepted call and how it was settled. -/
structure SettledCall (τ α : Type) where
  call : ScheduleCall τ α
  ending : Ending τ α

/-- A call is accepted and then settled. -/
def SettledCall.events (settled : SettledCall τ α) : List (SchedulerEvent τ α ε) :=
  [.accepted settled.call, settled.ending.event settled.call]

/-- What happens to the slot: the events other than the ends of steps. -/
def SchedulerEvent.isSlotEvent : SchedulerEvent τ α ε → Bool
  | .did _ _ _ => false
  | _ => true

/-- The task and the delay of a call that is answered to be accepted. -/
def SchedulerEvent.granted? : SchedulerEvent τ α ε → Option (α × τ)
  | .did (.schedule task delay) (.ok (.flag true)) _ => some (task, delay)
  | _ => none

section

variable [OfNat τ 0] [LT τ] [DecidableLT τ] [Add τ]

/-- The time from which the task of a call may run. -/
def ScheduleCall.due (call : ScheduleCall τ α) : τ :=
  call.now + Scheduler.delayFrom call.delay

/-- The task of an accepted call as it waits. -/
def ScheduleCall.waiting (call : ScheduleCall τ α) : PendingTask τ α :=
  ⟨call.task, call.due⟩

/-- The accounts of a state.  The calls that were answered to be accepted are the settled ones and then the
pending one.  What happened to the slot is that each of them was accepted and then settled by one start or one
drop before the next one was accepted.  The slot holds the pending one with its time, and no task was run as
being due before its time. -/
structure Accounts (state : LoggedState τ α σ ε) (settled : List (SettledCall τ α))
    (pending : Option (ScheduleCall τ α)) : Prop where
  granted_eq : state.world.log.filterMap SchedulerEvent.granted? =
    (settled.map SettledCall.call ++ pending.toList).map fun call => (call.task, call.delay)
  slotEvents_eq : state.world.log.filter SchedulerEvent.isSlotEvent =
    settled.flatMap SettledCall.events ++ (pending.map SchedulerEvent.accepted).toList
  scheduler_eq : state.scheduler = .manual (pending.map ScheduleCall.waiting)
  not_early : ∀ call now, ⟨call, .began .runDue now⟩ ∈ settled → ¬ now < call.due

/-- All calls of a state are accounted for. -/
def IsAccounted (state : LoggedState τ α σ ε) : Prop :=
  ∃ settled pending, Accounts state settled pending

namespace Accounts

variable {state : LoggedState τ α σ ε} {settled : List (SettledCall τ α)}
  {pending : Option (ScheduleCall τ α)} {call : ScheduleCall τ α}

theorem fresh (world : σ) :
    Accounts (LoggedState.fresh (.manual none) world : LoggedState τ α σ ε) [] none where
  granted_eq := rfl
  slotEvents_eq := rfl
  scheduler_eq := rfl
  not_early _ _ hmem := nomatch hmem

/-- The accounts are those of the slot and of the log, whatever becomes of the world. -/
theorem of_eq {after : LoggedState τ α σ ε} (haccounts : Accounts state settled pending)
    (hscheduler : after.scheduler = state.scheduler) (hlog : after.world.log = state.world.log) :
    Accounts after settled pending where
  granted_eq := hlog ▸ haccounts.granted_eq
  slotEvents_eq := hlog ▸ haccounts.slotEvents_eq
  scheduler_eq := hscheduler.trans haccounts.scheduler_eq
  not_early := haccounts.not_early

/-- The end of a step that accepted no call. -/
theorem did (haccounts : Accounts state settled pending) (step : SchedulerStep τ α)
    (answer : Except ε (StepAnswer τ)) (isPending : Bool)
    (hgranted : SchedulerEvent.granted? (.did step answer isPending) = none) :
    Accounts (LoggedState.note [.did step answer isPending] state) settled pending where
  granted_eq := by simp [hgranted, haccounts.granted_eq]
  slotEvents_eq := by simp [SchedulerEvent.isSlotEvent, haccounts.slotEvents_eq]
  scheduler_eq := haccounts.scheduler_eq
  not_early := haccounts.not_early

/-- A call that is accepted is pending. -/
theorem accept (haccounts : Accounts state settled none) (call : ScheduleCall τ α) :
    Accounts
      (LoggedState.note [.accepted call, .did (.schedule call.task call.delay) (.ok (.flag true)) true]
        { state with scheduler := .manual (some call.waiting) })
      settled (some call) where
  granted_eq := by
    simp only [LoggedState.log_note, List.filterMap_append, haccounts.granted_eq, Option.toList_none,
      List.append_nil, List.map_append]
    rfl
  slotEvents_eq := by
    simp only [LoggedState.log_note, List.filter_append, haccounts.slotEvents_eq, Option.map_none,
      Option.toList_none, List.append_nil]
    rfl
  scheduler_eq := rfl
  not_early := haccounts.not_early

/-- The pending call is settled when its event is noted and the slot is emptied. -/
theorem settle (haccounts : Accounts state settled (some call)) (ending : Ending τ α)
    (hdue : ∀ now, ending = .began .runDue now → ¬ now < call.due) :
    Accounts (LoggedState.note [ending.event call] { state with scheduler := .manual none })
      (settled ++ [⟨call, ending⟩]) none where
  granted_eq := by
    have hother : SchedulerEvent.granted? (ending.event call : SchedulerEvent τ α ε) = none := by
      cases ending with
      | began step now => rfl
      | dropped => rfl
    simp [hother, haccounts.granted_eq]
  slotEvents_eq := by
    have hslot : (ending.event call : SchedulerEvent τ α ε).isSlotEvent = true := by
      cases ending with
      | began step now => rfl
      | dropped => rfl
    simp [haccounts.slotEvents_eq, SettledCall.events, hslot]
  scheduler_eq := rfl
  not_early := by
    intro earlier now hmem
    obtain hmem | hmem := List.mem_append.mp hmem
    · exact haccounts.not_early earlier now hmem
    · cases List.mem_singleton.mp hmem
      exact hdue now rfl

end Accounts

/-! ## Steps and runs -/

open TaskPrograms

/-- A step that takes the task of a pending call leaves an empty slot, and waits until it is due if it is asked
to. -/
theorem taken?_waiting {call : ScheduleCall τ α} {step : SchedulerStep τ α} {now : τ} {task : α}
    {left : Scheduler τ α} (htaken : taken? step now (.manual (some call.waiting)) = some (task, left)) :
    task = call.task ∧ left = .manual none ∧ (step = .runDue → ¬ now < call.due) := by
  cases step with
  | schedule | isPending | cancel | timerStatus => cases htaken
  | runNow =>
      cases htaken
      exact ⟨rfl, rfl, nofun⟩
  | runDue =>
      simp only [taken?, Scheduler.takeDue?] at htaken
      split at htaken
      · cases htaken
      · next hdue =>
          cases htaken
          exact ⟨rfl, rfl, fun _ => hdue⟩

namespace IsAccounted

variable {programs : TaskPrograms τ α σ ε} {step : SchedulerStep τ α} {state after : LoggedState τ α σ ε}
  {answer : Except ε (StepAnswer τ)}
  {run : α → LoggedState τ α σ ε → Option (Except ε Unit × LoggedState τ α σ ε)}

/-- A step that may run a task keeps the accounts, as long as running a task does. -/
theorem performWith_of_isRun
    (hkeeps : ∀ task state result after, IsAccounted state → run task state = some (result, after) →
      IsAccounted after)
    (hrun : step = .runDue ∨ step = .runNow) (haccounted : IsAccounted state)
    (hsome : programs.performWith run step state = some (answer, after)) : IsAccounted after := by
  have hgranted : ∀ (answer : Except ε (StepAnswer τ)) (isPending : Bool),
      SchedulerEvent.granted? (.did step answer isPending) = none := by
    obtain rfl | rfl := hrun
    · exact fun _ _ => rfl
    · exact fun _ _ => rfl
  obtain ⟨settled, pending, haccounts⟩ := haccounted
  cases htaken : taken? step (programs.clock state.world.world) state.scheduler with
  | none =>
      rw [performWith_of_not_taken hrun htaken] at hsome
      cases hsome
      exact ⟨settled, pending, haccounts.did _ _ _ (hgranted _ _)⟩
  | some taken =>
      obtain ⟨task, left⟩ := taken
      rw [performWith_of_taken hrun htaken] at hsome
      obtain ⟨⟨result, ended⟩, hended, houtcome⟩ := Option.map_eq_some_iff.mp hsome
      rw [haccounts.scheduler_eq] at htaken
      cases pending with
      | none => obtain rfl | rfl := hrun <;> cases htaken
      | some call =>
          obtain ⟨rfl, rfl, hdue⟩ := taken?_waiting htaken
          -- the call is settled by the start already, whatever the task does and however it ends
          have hstarted := haccounts.settle (.began step (programs.clock state.world.world))
            (by rintro now ⟨⟩; exact hdue rfl)
          obtain ⟨settled, pending, haccounts⟩ := hkeeps _ _ _ _ ⟨_, _, hstarted⟩ hended
          cases houtcome
          refine ⟨settled, pending, (haccounts.of_eq ?_ ?_).did _ _ _ (hgranted _ _)⟩
          · exact Scheduled.scheduler_afterTask _ _ _
          · exact log_afterTask _ _ _

/-- A step keeps the accounts, as long as running a task does. -/
theorem performWith
    (hkeeps : ∀ task state result after, IsAccounted state → run task state = some (result, after) →
      IsAccounted after)
    (haccounted : IsAccounted state)
    (hsome : programs.performWith run step state = some (answer, after)) : IsAccounted after := by
  cases step with
  | runDue => exact performWith_of_isRun hkeeps (.inl rfl) haccounted hsome
  | runNow => exact performWith_of_isRun hkeeps (.inr rfl) haccounted hsome
  | isPending | timerStatus =>
      obtain ⟨settled, pending, haccounts⟩ := haccounted
      cases hsome
      exact ⟨settled, pending, haccounts.did _ _ _ rfl⟩
  | cancel =>
      obtain ⟨scheduler, logged⟩ := state
      obtain ⟨settled, pending, haccounts⟩ := haccounted
      obtain rfl := haccounts.scheduler_eq
      cases pending with
      | none =>
          cases hsome
          exact ⟨settled, none, haccounts.did _ _ _ rfl⟩
      | some call =>
          cases hsome
          rw [LoggedState.note_append]
          exact ⟨_, none, (haccounts.settle .dropped nofun).did _ _ _ rfl⟩
  | schedule task delay =>
      obtain ⟨scheduler, logged⟩ := state
      obtain ⟨settled, pending, haccounts⟩ := haccounted
      obtain rfl := haccounts.scheduler_eq
      cases pending with
      | none =>
          cases hsome
          exact ⟨settled, _, haccounts.accept ⟨task, _, delay⟩⟩
      | some call =>
          cases hsome
          exact ⟨settled, some call, haccounts.did _ _ _ rfl⟩

end IsAccounted

/-- A call that is refused finds a task pending and leaves the slot as it is. -/
theorem scheduler_of_refused {programs : TaskPrograms τ α σ ε} {depth : Nat} {task : α} {delay : τ}
    {state after : LoggedState τ α σ ε}
    (hrefused : programs.perform depth (.schedule task delay) state = some (.ok (.flag false), after)) :
    state.scheduler.isPending = true ∧ after.scheduler = state.scheduler := by
  obtain ⟨scheduler, logged⟩ := state
  have hanswer : ∀ run : α → LoggedState τ α σ ε → Option (Except ε Unit × LoggedState τ α σ ε),
      programs.performWith run (.schedule task delay) ⟨scheduler, logged⟩ =
        some (.ok (.flag false), after) →
      scheduler.isPending = true ∧ after.scheduler = scheduler := by
    intro run hwith
    match scheduler with
    | .manual none | .timer none => cases hwith
    | .manual (some _) | .timer (some _) =>
        cases hwith
        exact ⟨rfl, rfl⟩
  cases depth with
  | zero => exact hanswer _ hrefused
  | succ depth => exact hanswer _ hrefused

/-- Whatever the host of a manual scheduler and its tasks do, in a run that ends all accepted calls are accounted
for, and a refused call leaves the pending task and its time alone.  The clock may show anything at any time. -/
theorem run_accounts (programs : TaskPrograms τ α σ ε) (depth : Nat) (host : TaskProgram τ α σ ε)
    (world : σ) {result : Except ε Unit} {after : LoggedState τ α σ ε}
    (hrun : host.run (programs.perform depth) (LoggedState.fresh (.manual none) world) =
      some (result, after)) :
    (∃ (settled : List (SettledCall τ α)) (pending : Option (ScheduleCall τ α)),
      Accounts after settled pending) ∧
      ∀ (depth : Nat) (task : α) (delay : τ) (state refused : LoggedState τ α σ ε),
        programs.perform depth (.schedule task delay) state = some (.ok (.flag false), refused) →
          state.scheduler.isPending = true ∧ refused.scheduler = state.scheduler := by
  refine ⟨?_, fun _ _ _ _ _ => scheduler_of_refused⟩
  have hupdate : ∀ (change : σ → σ) (state : LoggedState τ α σ ε), IsAccounted state →
      IsAccounted (LoggedState.update change state) :=
    fun change state ⟨settled, pending, haccounts⟩ => ⟨settled, pending, haccounts.of_eq rfl rfl⟩
  have hperform := programs.perform_keeps hupdate
    (fun run hkeeps step state answer after => IsAccounted.performWith hkeeps) depth
  exact TaskProgram.run_keeps hupdate hperform ⟨[], none, .fresh world⟩ hrun

end

/-- Task 0 schedules and runs task 1, schedules task 2, asks in vain for task 3, and raises.  Task 1 raises.  The
world is what the clock shows. -/
def reschedulingTasks : TaskPrograms Nat Nat Nat Unit where
  program
    | 0 => .ask (.schedule 1 0) fun _ => .ask .runNow fun _ => .ask (.schedule 2 5) fun _ =>
        .ask (.schedule 3 0) fun _ => .finish (.error ())
    | 1 => .finish (.error ())
    | _ => .finish (.ok ())
  clock now := now
  report _ now := now

/-- A host that schedules task 0 and asks to run what is due, once too early, once in time and once more. -/
def reschedulingHost : TaskProgram Nat Nat Nat Unit :=
  .ask (.schedule 0 10) fun _ => .ask .runDue fun _ => .update (· + 10) <| .ask .runDue fun _ =>
    .ask .runDue fun _ => .finish (.ok ())

/-- The end of that run.  Of the three accepted calls two are settled, although both tasks have raised. -/
def rescheduledState : LoggedState Nat Nat Nat Unit where
  scheduler := .manual (some ⟨2, 15⟩)
  world := {
    world := 10
    log := [
      .accepted ⟨0, 0, 10⟩,
      .did (.schedule 0 10) (.ok (.flag true)) true,
      .did .runDue (.ok (.flag false)) true,
      .began 0 .runDue 10 false,
      .accepted ⟨1, 10, 0⟩,
      .did (.schedule 1 0) (.ok (.flag true)) true,
      .began 1 .runNow 10 false,
      .did .runNow (.error ()) false,
      .accepted ⟨2, 10, 5⟩,
      .did (.schedule 2 5) (.ok (.flag true)) true,
      .did (.schedule 3 0) (.ok (.flag false)) true,
      .did .runDue (.error ()) true,
      .did .runDue (.ok (.flag false)) true] }

theorem run_accounts_rescheduling :
    reschedulingHost.run (reschedulingTasks.perform 2) (LoggedState.fresh (.manual none) 0) =
        some (.ok (), rescheduledState) ∧
      ∃ settled pending, Accounts rescheduledState settled pending := by
  have hrun : reschedulingHost.run (reschedulingTasks.perform 2) (LoggedState.fresh (.manual none) 0) =
      some (.ok (), rescheduledState) := by
    decide +kernel
  exact ⟨hrun, (run_accounts _ _ _ _ hrun).1⟩

end HookAtlas
