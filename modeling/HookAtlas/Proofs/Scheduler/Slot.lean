/-
# The slot of a scheduler

After a task was asked for one is pending, whether the request was accepted or not.  A task that is taken
leaves an empty slot.  Both schedulers are alike in this.
-/

import HookAtlas.Scheduler.Basic

namespace HookAtlas.Scheduler

variable {τ α : Type} {scheduler after : Scheduler τ α} {task : α}

theorem isPending_schedule [OfNat τ 0] [LT τ] [DecidableLT τ] [Add τ] (now : τ) (task : α)
    (delay : τ) (scheduler : Scheduler τ α) :
    (scheduler.schedule now task delay).2.isPending = true := by
  match scheduler with
  | .manual none | .manual (some _) | .timer none | .timer (some _) => rfl

/-- A pending task can be taken, and leaves an empty slot. -/
theorem takeNow?_of_isPending (hpending : scheduler.isPending = true) :
    ∃ task after, scheduler.takeNow? = some (task, after) ∧ after.isPending = false := by
  match scheduler with
  | .manual (some waiting) => exact ⟨waiting.task, .manual none, rfl, rfl⟩
  | .timer (some current) => exact ⟨current.task, .timer none, rfl, rfl⟩

theorem takeNow?_of_not_isPending (hempty : scheduler.isPending = false) :
    scheduler.takeNow? = none := by
  match scheduler with
  | .manual none | .timer none => rfl

end HookAtlas.Scheduler
