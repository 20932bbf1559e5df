import Pooling.Proofs.Elastic.Errands
import Pooling.Proofs.Raises
import Pooling.Proofs.Tables

/-!
How a caller comes by a resource of an elastic pool at which nobody else is at work. It tries the
available resources in their turn until one passes its check; where none does, another is made if
there is room for it.
-/

namespace Pooling

section Order

variable {α : Type u}

/-- The resources in the order in which they are handed out. -/
def Selection.order (selection : Selection) (resources : List α) : List α :=
  match selection with
  | .lifo => resources
  | .fifo => resources.reverse

@[simp] theorem Selection.order_order (selection : Selection) (resources : List α) :
    selection.order (selection.order resources) = resources := by
  cases selection with
  | lifo => rfl
  | fifo => exact List.reverse_reverse resources

theorem Selection.order_perm (selection : Selection) (resources : List α) :
    (selection.order resources).Perm resources := by
  cases selection with
  | lifo => exact List.Perm.refl _
  | fifo => exact List.reverse_perm resources

end Order

namespace Elastic

variable {R : Type} [DecidableEq R]

namespace Pool

/-- The available resources in the order in which they are handed out. -/
def queue (pool : Pool R) : List R := pool.selection.order pool.available

omit [DecidableEq R] in
theorem choose?_order_cons (selection : Selection) (resource : R) (left : List R) :
    choose? selection (selection.order (resource :: left)) =
      some (resource, selection.order left) := by
  cases selection with
  | lifo => rfl
  | fifo => simp [choose?, Selection.order]

theorem takeSlot_of_queue {pool : Pool R} (hopen : pool.closed = false) {resource : R}
    {left : List R} (hqueue : pool.queue = resource :: left) :
    pool.takeSlot = (.pooled resource, pool.checkOut resource (pool.selection.order left)) := by
  have hchoose := choose?_order_cons pool.selection resource left
  rw [← hqueue, queue, Selection.order_order] at hchoose
  exact takeSlot_of_choose? hopen hchoose

/-- The pool once the first resources of its queue have failed their checks, and others are left. -/
def discard (pool : Pool R) (failed left : List R) : Pool R :=
  { pool with
    available := pool.selection.order left
    tracked := failed.foldl Table.erase pool.tracked
    counter := { pool.counter with downs := pool.counter.downs + failed.length }
    totals := { pool.totals with
      unhealthy := pool.totals.unhealthy + .ofNat failed.length } }

theorem discard_nil {pool : Pool R} {left : List R} (hqueue : pool.queue = left) :
    pool.discard [] left = pool := by
  subst hqueue
  have hzero : pool.totals.unhealthy + .ofNat 0 = pool.totals.unhealthy := UInt64.add_zero _
  simp only [discard, queue, Selection.order_order, List.foldl_nil, List.length_nil, hzero]
  rfl

@[simp] theorem queue_discard (pool : Pool R) (failed left : List R) :
    (pool.discard failed left).queue = left :=
  Selection.order_order _ _

theorem discard_cons (pool : Pool R) (resource : R) (failed between left : List R) :
    (pool.discard [resource] between).discard failed left =
      pool.discard (resource :: failed) left := by
  have hdowns : pool.counter.downs + 1 + failed.length =
      pool.counter.downs + (resource :: failed).length := by
    rw [List.length_cons]
    omega
  have hunhealthy : pool.totals.unhealthy + .ofNat (resource :: failed).length =
      pool.totals.unhealthy + 1 + .ofNat failed.length := Word.add_ofNat_succ _ _
  rw [discard, discard, discard, ← hdowns, hunhealthy]
  rfl

theorem checkedOut?_discard (pool : Pool R) (failed left : List R) (other : R) :
    (pool.discard failed left).checkedOut? other =
      if other ∈ failed then none else pool.checkedOut? other := by
  rw [checkedOut?, discard, Table.get?_foldl_erase, checkedOut?]
  split <;> rfl

theorem size_discard {pool : Pool R} (hkeys : pool.tracked.keys.Nodup) {failed : List R}
    (hnodup : failed.Nodup) (htracked : ∀ resource ∈ failed, (pool.checkedOut? resource).isSome)
    (left : List R) : (pool.discard failed left).size + failed.length = pool.size := by
  have hsize := size_foldl_untrack hkeys hnodup htracked
  rwa [foldl_untrack] at hsize

/-- A resource that is taken out, and given up because its check fails. -/
theorem untrack_checkOut (pool : Pool R) (resource : R) (left : List R) :
    ((pool.checkOut resource (pool.selection.order left)).untrack resource).record
        .countUnhealthy = pool.discard [resource] left := by
  simp only [record, untrack, checkOut, discard, Table.erase_modify, Totals.countUnhealthy,
    Counter.down]
  rfl

end Pool

/-- What comes of a resource that is made for a caller while the pool is open: the outcome of the
call, and the pool. -/
inductive Enrolled (pool : Pool R) (now : Reading) : Made R → Outcome R → Pool R → Prop
  | kept (resource : R) (hnew : pool.checkedOut? resource = none) :
      Enrolled pool now (.ok resource) (.acquired resource) (pool.track resource now)
  | duplicate (resource : R) (hknown : (pool.checkedOut? resource).isSome) :
      Enrolled pool now (.ok resource) (.failed (.invalidArgument .alreadyTracked)) pool
  | failed (source : String) :
      Enrolled pool now (.failed source) (.failed (.creation source)) pool

theorem Enrolled.ne_nothing {pool after : Pool R} {now : Reading} {answer : Made R}
    {outcome : Outcome R} (henrolled : Enrolled pool now answer outcome after) :
    outcome ≠ .nothing := by
  cases henrolled <;> simp

theorem Enrolled.inUse {pool after : Pool R} {now : Reading} {answer : Made R} {resource : R}
    (henrolled : Enrolled pool now answer (.acquired resource) after) :
    after.checkedOut? resource = some true := by
  cases henrolled with
  | kept resource hnew => exact (Pool.checkedOut?_track _ _ _ _).trans (if_pos rfl)

theorem exists_enrolled {pool : Pool R} (hopen : pool.closed = false) (now : Reading)
    (answer : Made R) : ∃ wake outcome after, Enrolled pool now answer outcome after ∧
      Call.enroll answer now { pool with creating := pool.creating + 1 } =
        { pool := after, wake, call := .done outcome } := by
  cases answer with
  | failed source => exact ⟨.one, _, pool, .failed source, rfl⟩
  | ok resource =>
      have hcontains := pool.contains_eq_isSome resource
      have hshut : ¬ pool.closed = true := by simp [hopen]
      cases hsome : (pool.checkedOut? resource).isSome with
      | true =>
          rw [hsome] at hcontains
          refine ⟨.one, _, pool, .duplicate resource hsome, ?_⟩
          simp only [Call.enroll, Pool.register, if_neg hshut, if_pos hcontains,
            Nat.add_sub_cancel]
      | false =>
          rw [hsome] at hcontains
          rw [Option.isSome_eq_false_iff, Option.isNone_iff_eq_none] at hsome
          refine ⟨.nobody, _, _, .kept resource hsome, ?_⟩
          simp [Call.enroll, Pool.register, Pool.track, hshut, hcontains]

/-- A call that waits for ever, if it has to wait at all, or not at any price. -/
def Patience.Untimed (patience : Patience) : Prop := patience = .never ∨ patience = .forever

omit [DecidableEq R] in
theorem Call.retry_of_untimed {patience : Patience} (huntimed : patience.Untimed) (now : Reading)
    (pool : Pool R) : Call.retry patience now pool = { pool, call := .seeking patience false } := by
  rcases huntimed with rfl | rfl <;> rfl

namespace Errand

variable {answers : Answers R} {errand last : Errand R} {patience : Patience}

theorem advance_pooled (hopen : errand.pool.closed = false) {resource : R} {left : List R}
    (hqueue : errand.pool.queue = resource :: left) (now : Reading) (patience : Patience) :
    (Call.seeking patience false).advance now errand.pool =
      { pool := errand.pool.checkOut resource (errand.pool.selection.order left)
        call := .checking patience resource } := by
  rw [Call.advance, Call.seek, Pool.takeSlot_of_queue hopen hqueue]

/-- A resource whose check fails is given up and closed, and the call looks again. -/
theorem mem_run_rejecting (huntimed : patience.Untimed) (hopen : errand.pool.closed = false)
    (hcall : errand.call = .seeking patience false) {resource : R} {left : List R}
    (hqueue : errand.pool.queue = resource :: left)
    (htracked : (errand.pool.checkedOut? resource).isSome)
    (hunhealthy : answers.healthy errand.checks = false) :
    last ∈ run answers { errand with
      pool := errand.pool.discard [resource] left
      turns := errand.turns + 3
      looks := errand.looks + 1
      checks := errand.checks + 1
      disposed := errand.disposed ++ [resource] } ↔ last ∈ run answers errand := by
  obtain ⟨pool, call, turns, looks, checks, makings, disposed⟩ := errand
  subst hcall
  have hcontains : (pool.checkOut resource (pool.selection.order left)).tracked.contains resource =
      true := by
    rw [Pool.contains_eq_isSome, Pool.checkedOut?_checkOut, if_pos rfl, Option.isSome_map]
    exact htracked
  have hcondemn : Call.condemn patience resource
      (pool.checkOut resource (pool.selection.order left)) =
        { pool := pool.discard [resource] left
          wake := .one
          call := .closing resource (.retry patience) } := by
    rw [Call.condemn, Pool.forget, if_pos hcontains, ← Pool.untrack_checkOut]
  have hretry := Call.retry_of_untimed huntimed (answers.reading (turns + 1 + 1))
    (pool.discard [resource] left)
  -- It takes the resource, has it checked, gives it up, has it closed, and is to look again.
  refine Iff.trans ?_ (mem_run_of_step? (step?_turn rfl (advance_pooled hopen hqueue _ _)))
  refine Iff.trans ?_ (mem_run_of_step? (step?_check rfl hunhealthy))
  refine Iff.trans ?_ (mem_run_of_step? (step?_turn rfl hcondemn))
  refine Iff.trans ?_ (mem_run_of_step? rfl)
  refine Iff.trans ?_ (mem_run_of_step? (step?_turn rfl hretry))
  simp only [follow, Move.disposes, Call.checked, List.append_nil]
  rfl

/-- The call goes through its queue as long as the checks fail. -/
theorem mem_run_discarding (huntimed : patience.Untimed) (failed left : List R)
    {errand : Errand R} (hopen : errand.pool.closed = false)
    (hcall : errand.call = .seeking patience false) (hqueue : errand.pool.queue = failed ++ left)
    (hnodup : failed.Nodup)
    (htracked : ∀ resource ∈ failed, (errand.pool.checkedOut? resource).isSome)
    (hunhealthy : ∀ index < failed.length, answers.healthy (errand.checks + index) = false) :
    last ∈ run answers { errand with
      pool := errand.pool.discard failed left
      turns := errand.turns + 3 * failed.length
      looks := errand.looks + failed.length
      checks := errand.checks + failed.length
      disposed := errand.disposed ++ failed } ↔ last ∈ run answers errand := by
  induction failed generalizing errand with
  | nil =>
      have hsame : errand.pool.discard [] left = errand.pool := Pool.discard_nil hqueue
      rw [hsame, List.append_nil]
      rfl
  | cons resource failed ih =>
      obtain ⟨hnew, hnodup⟩ := List.nodup_cons.mp hnodup
      rw [List.cons_append] at hqueue
      rw [← mem_run_rejecting huntimed hopen hcall hqueue (htracked resource List.mem_cons_self)
        (hunhealthy 0 (Nat.succ_pos _))]
      have hothers : ∀ other ∈ failed,
          ((errand.pool.discard [resource] (failed ++ left)).checkedOut? other).isSome := by
        intro other hother
        have hne : other ∉ [resource] := fun heq => hnew (List.mem_singleton.mp heq ▸ hother)
        rw [Pool.checkedOut?_discard, if_neg hne]
        exact htracked other (List.mem_cons_of_mem _ hother)
      have hlater : ∀ index < failed.length,
          answers.healthy (errand.checks + 1 + index) = false := by
        intro index hindex
        rw [Nat.add_assoc, Nat.add_comm 1]
        exact hunhealthy (index + 1) (Nat.succ_lt_succ hindex)
      have hrest := @ih { errand with
        pool := errand.pool.discard [resource] (failed ++ left)
        turns := errand.turns + 3
        looks := errand.looks + 1
        checks := errand.checks + 1
        disposed := errand.disposed ++ [resource] } hopen hcall (Pool.queue_discard _ _ _) hnodup
          hothers hlater
      have hturns : errand.turns + 3 * (resource :: failed).length =
          errand.turns + 3 + 3 * failed.length := by
        rw [List.length_cons]
        omega
      have hcount (count : Nat) :
          count + (resource :: failed).length = count + 1 + failed.length := by
        rw [List.length_cons]
        omega
      rw [← hrest, hturns, hcount, hcount, List.append_cons, Pool.discard_cons]

theorem mem_run_handed (hopen : errand.pool.closed = false)
    (hcall : errand.call = .seeking patience false) {resource : R} {left : List R}
    (hqueue : errand.pool.queue = resource :: left)
    (hhealthy : answers.healthy errand.checks = true) :
    { errand with
      pool := (errand.pool.checkOut resource (errand.pool.selection.order left)).record
        .countAcquired
      call := .done (.acquired resource)
      turns := errand.turns + 1
      looks := errand.looks + 1
      checks := errand.checks + 1 } ∈ run answers errand := by
  have hlook := advance_pooled hopen hqueue (answers.reading errand.turns) patience
  rw [← hcall] at hlook
  refine Iff.mp (mem_run_of_step? (step?_turn (by rw [hcall]; rfl) hlook)) ?_
  refine Iff.mp (mem_run_of_step? (step?_check rfl hhealthy)) ?_
  simp only [follow, hcall, Move.disposes, Call.checked, List.append_nil, if_true]
  exact mem_run_self (step?_done rfl)

theorem advance_empty (hopen : errand.pool.closed = false) (hnone : errand.pool.available = [])
    (now : Reading) (patience : Patience) :
    (Call.seeking patience false).advance now errand.pool =
      if errand.pool.size + errand.pool.creating < errand.pool.maxCapacity then
        { pool := { errand.pool with creating := errand.pool.creating + 1 }, call := .making }
      else Call.sleepOrGiveUp patience now errand.pool := by
  rw [Call.advance, Call.seek]
  by_cases hroom : errand.pool.size + errand.pool.creating < errand.pool.maxCapacity
  · rw [Pool.takeSlot_of_room hopen hnone hroom, if_pos hroom]
  · rw [Pool.takeSlot_of_full hopen hnone (Nat.not_lt.mp hroom), if_neg hroom]

theorem mem_run_made (hopen : errand.pool.closed = false)
    (hcall : errand.call = .seeking patience false) (hnone : errand.pool.available = [])
    (hroom : errand.pool.size + errand.pool.creating < errand.pool.maxCapacity) {wake : Wake}
    {outcome : Outcome R} {after : Pool R}
    (henroll : Call.enroll answers.made (answers.reading (errand.turns + 1))
      { errand.pool with creating := errand.pool.creating + 1 } =
        { pool := after, wake, call := .done outcome }) :
    { errand with
      pool := after
      call := .done outcome
      turns := errand.turns + 2
      looks := errand.looks + 1
      makings := errand.makings + 1 } ∈ run answers errand := by
  have hlook := advance_empty hopen hnone (answers.reading errand.turns) patience
  rw [← hcall, if_pos hroom] at hlook
  refine Iff.mp (mem_run_of_step? (step?_turn (by rw [hcall]; rfl) hlook)) ?_
  refine Iff.mp (mem_run_of_step? rfl) ?_
  refine Iff.mp (mem_run_of_step? (step?_turn rfl henroll)) ?_
  simp only [follow, hcall, Move.disposes, List.append_nil]
  exact mem_run_self (step?_done rfl)

theorem mem_run_full (huntimed : patience.Untimed) (hopen : errand.pool.closed = false)
    (hcall : errand.call = .seeking patience false) (hnone : errand.pool.available = [])
    (hfull : errand.pool.maxCapacity ≤ errand.pool.size + errand.pool.creating) :
    { errand with
      call := if patience = .never then .done .nothing else .parked patience
      turns := errand.turns + 1
      looks := errand.looks + 1 } ∈ run answers errand := by
  have hlook := advance_empty hopen hnone (answers.reading errand.turns) patience
  rw [← hcall, if_neg (Nat.not_lt.mpr hfull)] at hlook
  refine Iff.mp (mem_run_of_step? (step?_turn (by rw [hcall]; rfl) hlook)) ?_
  rcases huntimed with rfl | rfl
  · simp only [follow, hcall, Move.disposes, List.append_nil, Call.sleepOrGiveUp, if_true]
    exact mem_run_self (step?_done rfl)
  · simp only [follow, hcall, Move.disposes, List.append_nil, Call.sleepOrGiveUp, reduceCtorEq,
      if_false]
    exact mem_run_self (step?_parked rfl)

end Errand

/-- What a call comes to that wants a resource, where nobody else is at work on the pool. Each check
takes it three turns if it fails. -/
inductive Served (answers : Answers R) (before : Pool R) : Errand R → Prop
  | handed (failed : List R) (resource : R) (left : List R)
      (hqueue : before.queue = failed ++ resource :: left)
      (hfailed : ∀ index < failed.length, answers.healthy index = false)
      (hhealthy : answers.healthy failed.length = true) :
      Served answers before
        { pool := ((before.discard failed (resource :: left)).checkOut resource
            (before.selection.order left)).record .countAcquired
          call := .done (.acquired resource)
          turns := 3 * failed.length + 1
          looks := failed.length + 1
          checks := failed.length + 1
          disposed := failed }
  | made (outcome : Outcome R) (after : Pool R)
      (hfailed : ∀ index < before.queue.length, answers.healthy index = false)
      (hroom : (before.discard before.queue []).size + before.creating < before.maxCapacity)
      (henrolled : Enrolled (before.discard before.queue [])
        (answers.reading (3 * before.queue.length + 1)) answers.made outcome after) :
      Served answers before
        { pool := after
          call := .done outcome
          turns := 3 * before.queue.length + 2
          looks := before.queue.length + 1
          checks := before.queue.length
          makings := 1
          disposed := before.queue }
  | full (hnone : before.available = [])
      (hfull : before.size + before.creating = before.maxCapacity) :
      Served answers before { pool := before, call := .done .nothing, turns := 1, looks := 1 }

omit [DecidableEq R] in
theorem Answers.exists_healthy (answers : Answers R) (queue : List R) :
    (∀ index < queue.length, answers.healthy index = false) ∨
      ∃ failed resource left, queue = failed ++ resource :: left ∧
        (∀ index < failed.length, answers.healthy index = false) ∧
        answers.healthy failed.length = true := by
  by_cases hall : ∀ index < queue.length, answers.healthy index = false
  · exact .inl hall
  · right
    have hsome : ∃ index, index < queue.length ∧ answers.healthy index = true := by
      simpa using hall
    obtain ⟨hbound, hhealthy⟩ := Nat.find_spec hsome
    have hlength : (queue.take (Nat.find hsome)).length = Nat.find hsome := by
      rw [List.length_take]
      omega
    refine ⟨queue.take (Nat.find hsome), queue[Nat.find hsome],
      queue.drop (Nat.find hsome + 1), ?_, ?_, by rwa [hlength]⟩
    · rw [← List.drop_eq_getElem_cons hbound, List.take_append_drop]
    · intro index hindex
      rw [hlength] at hindex
      have hnot := Nat.find_min hsome hindex
      simpa [Nat.lt_trans hindex hbound] using hnot

namespace Pool

variable {pool : Pool R}

theorem Consistent.nodup_queue (hconsistent : pool.Consistent) : pool.queue.Nodup :=
  (pool.selection.order_perm pool.available).nodup_iff.mpr hconsistent.nodup_available

theorem Consistent.isSome_of_queue (hconsistent : pool.Consistent) {resource : R}
    (hmem : resource ∈ pool.queue) : (pool.checkedOut? resource).isSome := by
  have havailable := (pool.selection.order_perm pool.available).mem_iff.mp hmem
  rw [(hconsistent.mem_available_iff resource).mp havailable]
  rfl

end Pool

/-- A call that begins comes to the end of those that fail, and goes on from there. -/
theorem mem_run_seeking (answers : Answers R) {pool : Pool R} (hconsistent : pool.Consistent)
    (hopen : pool.closed = false) {failed left : List R} (hqueue : pool.queue = failed ++ left)
    (hfailed : ∀ index < failed.length, answers.healthy index = false) {patience : Patience}
    (huntimed : patience.Untimed) {last : Errand R}
    (hlast : last ∈ Errand.run answers
      { pool := pool.discard failed left
        call := .seeking patience false
        turns := 3 * failed.length
        looks := failed.length
        checks := failed.length
        disposed := failed }) :
    last ∈ Errand.run answers { pool, call := .seeking patience false } := by
  have hnodup := hconsistent.nodup_queue
  rw [hqueue, List.nodup_append] at hnodup
  have htracked : ∀ resource ∈ failed, (pool.checkedOut? resource).isSome := by
    intro resource hmem
    apply hconsistent.isSome_of_queue
    rw [hqueue]
    exact List.mem_append_left left hmem
  refine (Errand.mem_run_discarding huntimed failed left hopen rfl hqueue hnodup.1 htracked
    ?_).mp ?_
  · simpa only [Nat.zero_add] using hfailed
  · simpa only [Nat.zero_add, List.nil_append] using hlast

theorem exists_served (answers : Answers R) {pool : Pool R} (hwithin : pool.Within)
    (hconsistent : pool.Consistent) (hopen : pool.closed = false) :
    ∃ last, Served answers pool last ∧ ∀ patience : Patience, patience.Untimed →
      (last.call ≠ .done .nothing →
        last ∈ Errand.run answers { pool, call := .seeking patience false }) ∧
      (last.call = .done .nothing →
        { last with call := if patience = .never then .done .nothing else .parked patience } ∈
          Errand.run answers { pool, call := .seeking patience false }) := by
  rcases answers.exists_healthy pool.queue with hall | hsome
  · have hqueue : pool.queue = pool.queue ++ [] := (List.append_nil _).symm
    have hempty : (pool.discard pool.queue []).available = [] :=
      (pool.selection.order_perm []).eq_nil
    by_cases hroom : (pool.discard pool.queue []).size + pool.creating < pool.maxCapacity
    · have hopen' : (pool.discard pool.queue []).closed = false := hopen
      obtain ⟨wake, outcome, after, henrolled, henroll⟩ :=
        exists_enrolled hopen' (answers.reading (3 * pool.queue.length + 1)) answers.made
      refine ⟨_, .made outcome after hall hroom henrolled, fun patience huntimed => ⟨?_, ?_⟩⟩
      · intro _
        apply mem_run_seeking answers hconsistent hopen hqueue hall huntimed
        exact Errand.mem_run_made hopen rfl hempty hroom henroll
      · intro hnothing
        exact absurd (Call.done.inj hnothing) henrolled.ne_nothing
    · -- What was discarded would have left room, so that nothing was.
      have hsize := Pool.size_discard hwithin.nodup_keys hconsistent.nodup_queue
        (fun resource => hconsistent.isSome_of_queue) []
      have hle := hwithin.size_le
      have hnone : pool.queue = [] := List.eq_nil_of_length_eq_zero (by omega)
      have hfull : pool.size + pool.creating = pool.maxCapacity := by
        rw [hnone, List.length_nil] at hsize
        rw [hnone] at hroom
        omega
      have hnobody : pool.available = [] := by
        rw [← pool.selection.order_order pool.available]
        exact (congrArg pool.selection.order hnone).trans (pool.selection.order_perm []).eq_nil
      refine ⟨_, .full hnobody hfull, fun patience huntimed => ⟨fun hnot => absurd rfl hnot, ?_⟩⟩
      intro _
      exact Errand.mem_run_full huntimed hopen rfl hnobody (Nat.le_of_eq hfull.symm)
  · obtain ⟨failed, resource, left, hqueue, hfailed, hhealthy⟩ := hsome
    refine ⟨_, .handed failed resource left hqueue hfailed hhealthy,
      fun patience huntimed => ⟨?_, fun hnothing => by cases hnothing⟩⟩
    intro _
    apply mem_run_seeking answers hconsistent hopen hqueue hfailed huntimed
    exact Errand.mem_run_handed hopen rfl (Pool.queue_discard _ _ _) hhealthy

namespace Served

variable {answers : Answers R} {before : Pool R} {last : Errand R}

theorem looks_le (hserved : Served answers before last) :
    last.looks ≤ before.available.length + 1 := by
  rw [← (before.selection.order_perm before.available).length_eq]
  cases hserved with
  | handed failed resource left hqueue =>
      have hlength := congrArg List.length hqueue
      rw [Pool.queue, List.length_append, List.length_cons] at hlength
      show failed.length + 1 ≤ _
      omega
  | made => exact Nat.le_refl _
  | full => exact Nat.le_add_left _ _

theorem nodup_disposed (hserved : Served answers before last) (hconsistent : before.Consistent) :
    last.disposed.Nodup := by
  have hnodup := hconsistent.nodup_queue
  cases hserved with
  | handed failed resource left hqueue =>
      rw [hqueue, List.nodup_append] at hnodup
      exact hnodup.1
  | made => exact hnodup
  | full => exact List.nodup_nil

theorem inUse (hserved : Served answers before last) (hconsistent : before.Consistent)
    {resource : R} (hacquired : last.call = .done (.acquired resource)) :
    last.pool.checkedOut? resource = some true := by
  cases hserved with
  | handed failed handed left hqueue =>
      cases hacquired
      have hnodup := hconsistent.nodup_queue
      have hpresent : (before.checkedOut? resource).isSome := by
        apply hconsistent.isSome_of_queue
        rw [hqueue]
        exact List.mem_append_right _ List.mem_cons_self
      rw [hqueue, List.nodup_append] at hnodup
      have hspared : resource ∉ failed :=
        fun hmem => hnodup.2.2 resource hmem resource List.mem_cons_self rfl
      obtain ⟨inUse, hfound⟩ := Option.isSome_iff_exists.mp hpresent
      refine (Pool.checkedOut?_checkOut _ _ _ (before.selection.order left)).trans ?_
      rw [if_pos rfl, Pool.checkedOut?_discard, if_neg hspared, hfound]
      rfl
  | made outcome after hfailed hroom henrolled =>
      rw [Call.done.inj hacquired] at henrolled
      exact henrolled.inUse
  | full => cases hacquired

theorem of_nothing (hserved : Served answers before last) (hnothing : last.call = .done .nothing) :
    last.pool = before ∧ last.makings = 0 ∧ before.available = [] ∧
      before.size + before.creating = before.maxCapacity := by
  cases hserved with
  | handed => cases hnothing
  | made outcome after hfailed hroom henrolled =>
      exact absurd (Call.done.inj hnothing) henrolled.ne_nothing
  | full hnone hfull => exact ⟨rfl, rfl, hnone, hfull⟩

end Served

namespace System

/-- Nothing is given back while a call vets it, and the factory never raises. -/
def steady : Law R := fun system event => careful system event && !event.move.raises

theorem Reaches.creating_eq_zero {options : ElasticOptions} {counter : Counter} {count : Nat}
    {system : System R} (hreaches : Reaches steady (start options counter count) system)
    (hidle : system.Idle) : system.pool.creating = 0 := by
  have hreserved : system.Bounded ∧ system.pool.creating = system.reserved := by
    refine hreaches.stepwise (fun system => system.Bounded ∧ system.pool.creating = system.reserved)
      ⟨bounded_start options counter count, ?_⟩ ?_
    · refine (Idle.nothing ?_).1.symm
      intro caller hcaller
      exact ⟨.nothing, by rw [eq_of_mem_start hcaller]⟩
    · intro system next event caller advanced hholds hsteady hstepped
      have hunraised : ∀ text, event.move ≠ .raise text := by
        intro text hraise
        simp [steady, hraise, Move.raises] at hsteady
      exact ⟨hstepped.bounded hholds.1, hstepped.creating_eq hholds.1 hunraised hholds.2⟩
  rw [hreserved.2, hidle.nothing.1]

/-- How a caller is served where nobody else is at work on the pool: one that would sooner do
without, and one that waits for its turn. It gets nothing only where all is reserved or in use, and
nothing is reserved then unless the factory has raised. -/
theorem serves_of_reaches {options : ElasticOptions} {counter : Counter} {count : Nat}
    {system : System R} (hreaches : Reaches careful (start options counter count) system)
    (hidle : system.Idle) (hopen : system.pool.closed = false) (answers : Answers R) :
    ∃ last, last ∈ Errand.run answers { pool := system.pool, call := .tryAcquire } ∧
      Served answers system.pool last ∧
      last.looks ≤ system.pool.available.length + 1 ∧ last.disposed.Nodup ∧
      (∀ resource, last.call = .done (.acquired resource) →
        last.pool.checkedOut? resource = some true) ∧
      (last.call ≠ .done .nothing →
        last ∈ Errand.run answers { pool := system.pool, call := .acquire }) ∧
      (last.call = .done .nothing →
        last.pool = system.pool ∧ last.makings = 0 ∧
          system.pool.inUse = .ok (options.maxCapacity - system.pool.creating) ∧
          { last with call := .parked .forever } ∈
            Errand.run answers { pool := system.pool, call := .acquire }) ∧
      (Reaches steady (start options counter count) system → system.pool.creating = 0) := by
  have hsound := hreaches.sound
  obtain ⟨last, hserved, hruns⟩ :=
    exists_served answers hsound.bounded.within hsound.consistent hopen
  obtain ⟨hsome, hnothing⟩ := hruns .never (.inl rfl)
  obtain ⟨hsome', hnothing'⟩ := hruns .forever (.inr rfl)
  refine ⟨last, ?_, hserved, hserved.looks_le, hserved.nodup_disposed hsound.consistent,
    fun resource => hserved.inUse hsound.consistent, hsome', ?_,
    fun hsteady => hsteady.creating_eq_zero hidle⟩
  · by_cases hcall : last.call = .done .nothing
    · have hsame := hnothing hcall
      rw [if_pos rfl, ← hcall] at hsame
      exact hsame
    · exact hsome hcall
  · intro hcall
    obtain ⟨hpool, hmakings, hnone, hfull⟩ := hserved.of_nothing hcall
    have hmax : system.pool.maxCapacity = options.maxCapacity := hreaches.maxCapacity_eq
    have hsize : system.pool.size = options.maxCapacity - system.pool.creating := by omega
    refine ⟨hpool, hmakings, ?_, hnothing' hcall⟩
    rw [Pool.inUse, hnone, List.length_nil, if_pos (Nat.zero_le _), Nat.sub_zero, hsize]

/-- After one raise a pool of one has nothing available, nothing checked out, and no room. -/
theorem unserved_of_makingRaises : ∃ system : System Nat,
    run? upright makingRaises (start { maxCapacity := 1 } .silent 1) = some system ∧
      system.Idle ∧ system.pool.closed = false ∧ system.pool.inUse = .ok 0 ∧
      system.pool.size = 0 ∧ system.pool.maxCapacity = 1 ∧
      ∀ answers, ∃ last, last ∈ Errand.run answers { pool := system.pool, call := .tryAcquire } ∧
        last.call = .done .nothing ∧ last.makings = 0 := by
  let shown (system : System Nat) : (Bool × List (Caller Nat)) × List Nat × Nat × Nat × Nat :=
    ((system.pool.closed, system.callers), system.pool.available, system.pool.size,
      system.pool.creating, system.pool.maxCapacity)
  have hruns : (run? upright makingRaises (start { maxCapacity := 1 } .silent 1)).map shown =
      some ((false, [⟨.done (.aborted (.raised "out of order")), []⟩]), [], 0, 1, 1) := by decide
  obtain ⟨system, hrun, hshown⟩ := Option.map_eq_some_iff.mp hruns
  simp only [shown, Prod.mk.injEq] at hshown
  obtain ⟨⟨hopen, hcallers⟩, hnone, hsize, hcreating, hmax⟩ := hshown
  refine ⟨system, hrun, ?idle, hopen, ?unused, hsize, hmax, fun answers => ?nothing⟩
  case idle =>
    intro caller hcaller
    rw [hcallers, List.mem_singleton] at hcaller
    exact ⟨_, congrArg Caller.call hcaller⟩
  case unused => simp [Pool.inUse, hnone, hsize]
  case nothing =>
    refine ⟨_, Errand.mem_run_full (.inl rfl) hopen rfl hnone ?_, by simp, rfl⟩
    simp only [hmax, hsize, hcreating]
    decide

/-- A caller has three resources made and gives them back. -/
def shelved : List (Event Nat) :=
  [1, 2, 3].flatMap (fun resource =>
      [⟨0, .begin .acquire 0, 0⟩, ⟨0, .turn 0, 0⟩, ⟨0, .make (.ok resource), 0⟩,
        ⟨0, .turn 0, 0⟩]) ++
    [1, 2, 3].flatMap fun resource =>
      [⟨0, .begin (.release resource) 1, 0⟩, ⟨0, .turn 1, 0⟩]

def afterTwo : Answers Nat where
  healthy := fun index => 2 ≤ index
  made := .failed "none left"
  reading := fun turn => .ofNat (turn + 2)

theorem serves_of_shelved : ∃ (system : System Nat) (last : Errand Nat),
    run? steady shelved (start { maxCapacity := 3, selection := .fifo } .silent 1) = some system ∧
      system.Idle ∧ system.pool.closed = false ∧ system.pool.available = [3, 2, 1] ∧
      last ∈ Errand.run afterTwo { pool := system.pool, call := .tryAcquire } ∧
      Served afterTwo system.pool last ∧ last.call = .done (.acquired 3) ∧
      last.pool.checkedOut? 3 = some true ∧ last.disposed = [1, 2] ∧ last.looks ≤ 4 ∧
      last ∈ Errand.run afterTwo { pool := system.pool, call := .acquire } ∧
      system.pool.creating = 0 := by
  let shown (system : System Nat) : Bool × List (Caller Nat) × List Nat × Selection :=
    (system.pool.closed, system.callers, system.pool.available, system.pool.selection)
  have hruns : (run? steady shelved
      (start { maxCapacity := 3, selection := .fifo } .silent 1)).map shown =
        some (false, [⟨.done .released, []⟩], [3, 2, 1], .fifo) := by decide
  obtain ⟨system, hrun, hshown⟩ := Option.map_eq_some_iff.mp hruns
  simp only [shown, Prod.mk.injEq] at hshown
  obtain ⟨hopen, hcallers, havailable, hselection⟩ := hshown
  have hsteady : Reaches steady (start { maxCapacity := 3, selection := .fifo } .silent 1) system :=
    Runs.reaches_of_run? hrun
  have hcareful : Reaches careful (start { maxCapacity := 3, selection := .fifo } .silent 1)
      system := hsteady.mono fun _ _ hlaw => (Bool.and_eq_true_iff.mp hlaw).1
  have hidle : system.Idle := by
    intro caller hcaller
    rw [hcallers, List.mem_singleton] at hcaller
    exact ⟨_, congrArg Caller.call hcaller⟩
  obtain ⟨last, hlast, hserved, hlooks, -, hinUse, hsame, -, hcreating⟩ :=
    serves_of_reaches hcareful hidle hopen afterTwo
  have hqueue : system.pool.queue = [1, 2, 3] := by
    rw [Pool.queue, havailable, hselection]
    rfl
  have hends : last.call = .done (.acquired 3) ∧ last.disposed = [1, 2] := by
    cases hserved with
    | handed failed resource left hsplit hfailed hhealthy =>
        rcases failed with _ | ⟨first, _ | ⟨second, _ | ⟨third, failed⟩⟩⟩
        · simp [afterTwo] at hhealthy
        · simp [afterTwo] at hhealthy
        · rw [hqueue] at hsplit
          simp only [List.cons_append, List.nil_append, List.cons.injEq] at hsplit
          obtain ⟨rfl, rfl, rfl, rfl⟩ := hsplit
          exact ⟨rfl, rfl⟩
        · have hthird := hfailed 2 (by simp)
          simp [afterTwo] at hthird
    | made outcome after hfailed =>
        have hthird := hfailed 2 (by simp [hqueue])
        simp [afterTwo] at hthird
    | full hnone => simp [havailable] at hnone
  rw [havailable] at hlooks
  exact ⟨system, last, hrun, hidle, hopen, havailable, hlast, hserved, hends.1,
    hinUse 3 hends.1, hends.2, hlooks, hsame (by rw [hends.1]; nofun), hcreating hsteady⟩

end System

end Elastic

end Pooling
