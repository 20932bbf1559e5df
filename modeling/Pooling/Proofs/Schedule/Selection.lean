import Pooling.Schedule.Queue

/-!
What the worker of a schedule does with its queue: which task it takes, what is left, and when a
task that has run is due again.
-/

namespace Pooling.Schedule

variable {tasks : List Task} {task : Task} {place : Nat} {due now : Moment}

theorem earliest?_eq_none_iff : earliest? tasks = none ↔ ∀ task ∈ tasks, task.due? = none := by
  induction tasks with
  | nil => simp [earliest?]
  | cons first tasks ih =>
      rw [List.forall_mem_cons, ← ih, earliest?]
      cases first.due? with
      | none => simp
      | some due =>
          cases earliest? tasks with
          | none => simp
          | some found =>
              dsimp only [Option.map_some]
              split <;> simp

/-- The task of the place that is found is due when it is found to be, and no other before. -/
theorem exists_of_earliest? (hfound : earliest? tasks = some (place, due)) :
    ∃ task, tasks[place]? = some task ∧ task.due? = some due ∧
      ∀ other ∈ tasks, ∀ moment, other.due? = some moment → due ≤ moment := by
  induction tasks generalizing place due with
  | nil => cases hfound
  | cons first tasks ih =>
      rw [earliest?] at hfound
      cases hfirst : first.due? with
      | none =>
          rw [hfirst] at hfound
          obtain ⟨⟨place, due⟩, hrest, heq⟩ := Option.map_eq_some_iff.mp hfound
          cases heq
          obtain ⟨task, htask, hdue, hle⟩ := ih hrest
          refine ⟨task, htask, hdue, List.forall_mem_cons.mpr ⟨fun moment hmoment => ?_, hle⟩⟩
          rw [hfirst] at hmoment
          cases hmoment
      | some early =>
          rw [hfirst] at hfound
          cases hrest : earliest? tasks with
          | none =>
              rw [hrest] at hfound
              cases hfound
              have hnever := earliest?_eq_none_iff.mp hrest
              refine ⟨first, rfl, hfirst, List.forall_mem_cons.mpr ⟨fun moment hmoment => ?_, ?_⟩⟩
              · exact Nat.le_of_eq (Option.some.inj (hfirst.symm.trans hmoment))
              · intro other hother moment hmoment
                rw [hnever other hother] at hmoment
                cases hmoment
          | some found =>
              obtain ⟨later, moment⟩ := found
              obtain ⟨task, htask, hdue, hle⟩ := ih hrest
              rw [hrest] at hfound
              dsimp only [Option.map_some] at hfound
              split at hfound
              next hearly =>
                cases hfound
                refine ⟨first, rfl, hfirst,
                  List.forall_mem_cons.mpr ⟨fun moment hmoment => ?_, ?_⟩⟩
                · exact Nat.le_of_eq (Option.some.inj (hfirst.symm.trans hmoment))
                · exact fun other hother moment hmoment =>
                    Nat.le_trans hearly (hle other hother moment hmoment)
              next hlate =>
                cases hfound
                refine ⟨task, htask, hdue, List.forall_mem_cons.mpr ⟨fun moment hmoment => ?_, hle⟩⟩
                cases hfirst.symm.trans hmoment
                exact Nat.le_of_not_le hlate

theorem takeOut_perm (htask : tasks[place]? = some task) :
    (task :: takeOut place tasks).Perm tasks := by
  rcases List.eq_nil_or_concat tasks with rfl | ⟨front, last, rfl⟩
  · cases htask
  · rw [List.concat_eq_append] at htask ⊢
    have hswap := (List.perm_append_singleton last front).symm
    unfold takeOut
    rw [List.getLast?_concat]
    dsimp only
    rw [List.dropLast_concat, List.length_append, List.length_singleton]
    split
    next hlast =>
      rw [Nat.add_right_cancel hlast, List.getElem?_concat_length] at htask
      cases htask
      exact hswap
    next hinside =>
      have hbound := (List.getElem?_eq_some_iff.mp htask).1
      rw [List.length_append, List.length_singleton] at hbound
      have hplace : place < front.length := by omega
      rw [List.getElem?_append_left hplace] at htask
      obtain ⟨-, rfl⟩ := List.getElem?_eq_some_iff.mp htask
      refine List.Perm.trans ?_ hswap
      -- The last task takes the place of the one taken out, which goes to the front.
      rw [List.set_eq_take_append_cons_drop, if_pos hplace]
      refine ((List.perm_middle.cons _).trans (.swap _ _ _)).trans (List.Perm.cons _ ?_)
      refine List.perm_middle.symm.trans ?_
      rw [List.getElem_cons_drop, List.take_append_drop]

theorem mem_takeOut {other : Task} (htask : tasks[place]? = some task)
    (hother : other ∈ takeOut place tasks) : other ∈ tasks :=
  (takeOut_perm htask).subset (List.mem_cons_of_mem task hother)

namespace Queue

variable {queue : Queue}

theorem pick_of_none (hnone : earliest? queue.waiting = none) : queue.pick now = (.sleep, queue) := by
  rw [pick, hnone]

theorem pick_early (hfound : earliest? queue.waiting = some (place, due)) (hearly : now < due) :
    queue.pick now = (.sleepUntil due, queue) := by
  rw [pick, hfound]
  exact if_pos hearly

theorem pick_due (hfound : earliest? queue.waiting = some (place, due)) (hlate : due ≤ now)
    (htask : queue.waiting[place]? = some task) : queue.pick now =
      (.run task,
        { queue with waiting := takeOut place queue.waiting, running? := some task }) := by
  rw [pick, hfound]
  dsimp only
  rw [if_neg (Nat.not_lt.mpr hlate), take, htask]

@[simp] theorem serial_renew : (renew task now).serial = task.serial := rfl

/-- A task that has run is due again no earlier than now. -/
theorem le_of_due_renew {moment : Moment} (hdue : (renew task now).due? = some moment) :
    now ≤ moment := by
  obtain ⟨earlier, -, rfl⟩ := Option.map_eq_some_iff.mp hdue
  exact Nat.le_max_right _ _

theorem isCancelled_iff {serial : Nat} :
    queue.isCancelled serial = true ↔ serial ∈ queue.cancelled := by
  rw [isCancelled, List.contains_iff_mem]

end Queue

end Pooling.Schedule
