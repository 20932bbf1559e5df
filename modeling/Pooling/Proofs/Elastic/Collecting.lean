import Mathlib.Data.List.Lattice
import Pooling.Proofs.Elastic.Errands
import Pooling.Proofs.Elastic.StaleReturns
import Pooling.Proofs.Tables

/-!
What a collection lets go: as many of the expired resources as may go, those released last before
the others.
-/

namespace Pooling.Elastic

variable {R : Type} [DecidableEq R]

namespace Pool

/-- The expired among the available resources, from front to back. Each is told once, however often
it is there. -/
def expired (pool : Pool R) (now : Reading) : List R :=
  (pool.available.filter (pool.isExpired now)).eraseDups

/-- How many resources a collection lets go. -/
def quota (pool : Pool R) (now : Reading) : Nat :=
  if pool.closed = false ∧ pool.minCapacity < pool.size then
    min (pool.expired now).length (pool.size - pool.minCapacity)
  else 0

theorem isSome_of_isExpired {pool : Pool R} {now : Reading} {resource : R}
    (hexpired : pool.isExpired now resource = true) : (pool.checkedOut? resource).isSome := by
  rw [isExpired] at hexpired
  split at hexpired
  next tracked htracked => simp [checkedOut?, htracked]
  next => cases hexpired

theorem isExpired_untrack (pool : Pool R) (gone other : R) (now : Reading) :
    (pool.untrack gone).isExpired now other =
      (pool.isExpired now other && !other == gone) := by
  rw [isExpired, isExpired, untrack, Table.get?_erase]
  by_cases heq : other = gone
  · simp [heq]
  · simp [heq]

theorem taken_sweep_eq (now : Reading) (available : List R) {pool : Pool R}
    (hkeys : pool.tracked.keys.Nodup) :
    (sweep now available pool).1 =
      (available.filter (pool.isExpired now)).eraseDups.take (pool.size - pool.minCapacity) := by
  induction available generalizing pool with
  | nil => rw [sweep, List.filter_nil, List.eraseDups_nil, List.take_nil]
  | cons resource available ih =>
      rw [sweep]
      by_cases hexpired : pool.isExpired now resource = true
      · by_cases hroom : pool.minCapacity < pool.size
        · have hsize := size_untrack hkeys (isSome_of_isExpired hexpired)
          have hmin : (pool.untrack resource).minCapacity = pool.minCapacity := rfl
          have hleft : pool.size - pool.minCapacity =
              (pool.untrack resource).size - (pool.untrack resource).minCapacity + 1 := by omega
          have hothers : available.filter ((pool.untrack resource).isExpired now) =
              (available.filter (pool.isExpired now)).filter fun other => !other == resource := by
            rw [List.filter_filter]
            apply List.filter_congr
            intro other _
            rw [isExpired_untrack, Bool.and_comm]
          rw [if_pos ⟨hroom, hexpired⟩, List.filter_cons_of_pos hexpired, List.eraseDups_cons,
            hleft, List.take_succ_cons, ← hothers]
          exact congrArg (resource :: ·) (ih (Table.nodup_keys_erase hkeys resource))
        · have hnone : pool.size - pool.minCapacity = 0 := by omega
          have hrest := ih hkeys
          rw [hnone, List.take_zero] at hrest
          rw [if_neg fun hboth => hroom hboth.1, hnone, List.take_zero]
          exact hrest
      · rw [if_neg fun hboth => hexpired hboth.2, List.filter_cons_of_neg hexpired]
        exact ih hkeys

theorem kept_sweep_eq (now : Reading) (available : List R) {pool : Pool R}
    (hkeys : pool.tracked.keys.Nodup) :
    (sweep now available pool).2.1 = available.diff (sweep now available pool).1 := by
  induction available generalizing pool with
  | nil => rw [sweep, List.diff_nil]
  | cons resource available ih =>
      rw [sweep]
      split
      next hexpired =>
        rw [List.diff_cons, List.erase_cons_head]
        exact ih (Table.nodup_keys_erase hkeys resource)
      next hspared =>
        -- What is spared now is spared for good: there is no room, or it has not expired.
        have hnot : resource ∉ (sweep now available pool).1 := by
          rw [taken_sweep_eq now available hkeys]
          intro hmem
          have hroom : 0 < pool.size - pool.minCapacity := by
            apply Nat.pos_of_ne_zero
            intro hnone
            rw [hnone, List.take_zero] at hmem
            cases hmem
          have hexpired := List.mem_eraseDups.mp (List.mem_of_mem_take hmem)
          exact hspared ⟨by omega, (List.mem_filter.mp hexpired).2⟩
        rw [List.cons_diff_of_not_mem hnot]
        exact congrArg (resource :: ·) (ih hkeys)

theorem quota_of_open {pool : Pool R} (hopen : pool.closed = false) (now : Reading) :
    pool.quota now = min (pool.expired now).length (pool.size - pool.minCapacity) := by
  rw [quota]
  split
  next => rfl
  next hnot =>
    have hsmall : ¬ pool.minCapacity < pool.size := fun hroom => hnot ⟨hopen, hroom⟩
    omega

theorem quota_le (pool : Pool R) (now : Reading) :
    pool.quota now ≤ pool.size - pool.minCapacity := by
  unfold quota
  split
  next => exact Nat.min_le_right _ _
  next => exact Nat.zero_le _

theorem quota_of_closed {pool : Pool R} (hclosed : pool.closed = true) (now : Reading) :
    pool.quota now = 0 := by
  rw [quota, if_neg]
  rintro ⟨hopen, -⟩
  exact Bool.false_ne_true (hopen.symm.trans hclosed)

/-- The resources that a collection lets go. -/
def collectable (pool : Pool R) (now : Reading) : List R :=
  (pool.expired now).take (pool.quota now)

theorem length_collectable (pool : Pool R) (now : Reading) :
    (pool.collectable now).length = pool.quota now := by
  have hle : pool.quota now ≤ (pool.expired now).length := by
    unfold quota
    split <;> omega
  rw [collectable, List.length_take, Nat.min_eq_left hle]

theorem sweep_available_eq {pool : Pool R} (hkeys : pool.tracked.keys.Nodup)
    (hopen : pool.closed = false) (now : Reading) :
    (sweep now pool.available pool).1 = pool.collectable now := by
  rw [taken_sweep_eq now pool.available hkeys, collectable, quota_of_open hopen, expired,
    List.take_eq_take_iff]
  omega

theorem collectable_of_closed {pool : Pool R} (hclosed : pool.closed = true) (now : Reading) :
    pool.collectable now = [] := by
  rw [collectable, quota_of_closed hclosed, List.take_zero]

theorem collect_eq {pool : Pool R} (hkeys : pool.tracked.keys.Nodup) (now : Reading) :
    pool.collect now = (pool.collectable now,
      { (pool.collectable now).foldl untrack pool with
        available := pool.available.diff (pool.collectable now) }) := by
  by_cases hclosed : pool.closed = true
  · rw [collect, if_pos hclosed, collectable_of_closed hclosed, List.diff_nil]
    rfl
  · have htaken := sweep_available_eq hkeys (eq_false_of_ne_true hclosed) now
    have hpool := pool_sweep now pool.available pool
    have hkept := kept_sweep_eq now pool.available hkeys
    rw [htaken] at hpool hkept
    rw [collect, if_neg hclosed, ← hkept, ← hpool, ← htaken]

theorem nodup_collectable {pool : Pool R} (hkeys : pool.tracked.keys.Nodup) (now : Reading) :
    (pool.collectable now).Nodup := by
  by_cases hclosed : pool.closed = true
  · rw [collectable_of_closed hclosed]
    exact List.nodup_nil
  · rw [← sweep_available_eq hkeys (eq_false_of_ne_true hclosed) now]
    exact (taken_sweep now pool.available pool).1

theorem mem_of_collectable {pool : Pool R} {now : Reading} {resource : R}
    (hmem : resource ∈ pool.collectable now) :
    resource ∈ pool.available ∧ pool.isExpired now resource = true :=
  List.mem_filter.mp (List.mem_eraseDups.mp (List.mem_of_mem_take hmem))

theorem expired_of_nodup {pool : Pool R} (hnodup : pool.available.Nodup) (now : Reading) :
    pool.expired now = pool.available.filter (pool.isExpired now) := by
  rw [expired]
  have hfiltered := hnodup.filter (pool.isExpired now)
  generalize pool.available.filter (pool.isExpired now) = listed at hfiltered
  induction listed with
  | nil => rfl
  | cons resource others ih =>
      obtain ⟨hnew, hothers⟩ := List.nodup_cons.mp hfiltered
      have hkept : others.filter (fun other => !other == resource) = others := by
        rw [List.filter_eq_self]
        intro other hother
        have hne : other ≠ resource := fun heq => hnew (heq ▸ hother)
        simp [hne]
      rw [List.eraseDups_cons, hkept, ih hothers]

end Pool

namespace Errand

/-- The resources let go are closed one after another, and counted. -/
theorem mem_run_sweeping (answers : Answers R) (rest : List R) (count : Nat) {errand : Errand R}
    (hcall : errand.call = .after (.sweep rest count)) :
    { errand with
      pool := { errand.pool with
        totals := { errand.pool.totals with
          collected := errand.pool.totals.collected + .ofNat rest.length } }
      call := .done (.collected count)
      turns := errand.turns + rest.length + 1
      disposed := errand.disposed ++ rest } ∈ errand.run answers := by
  induction rest generalizing errand with
  | nil =>
      obtain ⟨pool, call, turns, looks, checks, makings, disposed⟩ := errand
      subst hcall
      refine (mem_run_of_step? rfl).mp ?_
      have hzero : pool.totals.collected + .ofNat 0 = pool.totals.collected := UInt64.add_zero _
      simp only [List.length_nil, hzero]
      exact mem_run_self (step?_done rfl)
  | cons resource rest ih =>
      obtain ⟨pool, call, turns, looks, checks, makings, disposed⟩ := errand
      subst hcall
      refine (mem_run_of_step? rfl).mp ((mem_run_of_step? rfl).mp ?_)
      have hcount : pool.totals.collected + .ofNat (resource :: rest).length =
          pool.totals.collected + 1 + .ofNat rest.length := Word.add_ofNat_succ _ _
      have hturns : turns + (resource :: rest).length + 1 = turns + 1 + rest.length + 1 := by
        rw [List.length_cons]
        omega
      have hdisposed : disposed ++ resource :: rest = disposed ++ [] ++ [resource] ++ rest := by
        rw [List.append_nil, List.append_cons]
      simp only [hcount, hturns, hdisposed]
      exact ih rfl

theorem mem_run_collecting (answers : Answers R) (pool : Pool R) :
    { pool := { (pool.collect (answers.reading 0)).2 with
        totals := { (pool.collect (answers.reading 0)).2.totals with
          collected := (pool.collect (answers.reading 0)).2.totals.collected +
            .ofNat (pool.collect (answers.reading 0)).1.length } }
      call := .done (.collected (pool.collect (answers.reading 0)).1.length)
      turns := 1 + (pool.collect (answers.reading 0)).1.length + 1
      disposed := (pool.collect (answers.reading 0)).1 } ∈
    run answers { pool, call := .collect } :=
  (mem_run_of_step? rfl).mp (mem_run_sweeping answers _ _ rfl)

end Errand

/-- What a collection at a reading comes to. -/
structure Collected (before : Pool R) (now : Reading) (last : Errand R) : Prop where
  call_eq : last.call = .done (.collected (before.quota now))
  pool_eq : last.pool = { before with
    available := before.available.diff (before.collectable now)
    tracked := (before.collectable now).foldl Table.erase before.tracked
    counter := { before.counter with downs := before.counter.downs + before.quota now }
    totals := { before.totals with
      collected := before.totals.collected + .ofNat (before.quota now) } }
  disposed_eq : last.disposed = before.collectable now
  nodup_disposed : last.disposed.Nodup
  available_of_disposed : ∀ resource ∈ last.disposed, resource ∈ before.available
  get?_eq : ∀ resource, last.pool.tracked.get? resource =
    if resource ∈ last.disposed then none else before.tracked.get? resource
  size_eq : last.pool.size + before.quota now = before.size
  min_le : min before.size before.minCapacity ≤ last.pool.size

theorem exists_collected (answers : Answers R) {pool : Pool R}
    (hkeys : pool.tracked.keys.Nodup) :
    ∃ last, last ∈ Errand.run answers { pool, call := .collect } ∧
      Collected pool (answers.reading 0) last := by
  generalize hnow : answers.reading 0 = now
  have hrun := Errand.mem_run_collecting answers pool
  have hlength := pool.length_collectable now
  have hnodup := Pool.nodup_collectable hkeys now
  have hpresent : ∀ resource ∈ pool.collectable now, (pool.checkedOut? resource).isSome :=
    fun resource hmem => Pool.isSome_of_isExpired (Pool.mem_of_collectable hmem).2
  have hsize := Pool.size_foldl_untrack hkeys hnodup hpresent
  rw [hlength, Pool.foldl_untrack] at hsize
  rw [hnow, Pool.collect_eq hkeys, Pool.foldl_untrack] at hrun
  simp only [hlength] at hrun hsize
  refine ⟨_, hrun, rfl, rfl, rfl, hnodup, ?_, ?_, hsize, ?_⟩
  · exact fun resource hmem => (Pool.mem_of_collectable hmem).1
  · exact fun resource => Table.get?_foldl_erase _ _ resource
  · have hquota := pool.quota_le now
    show _ ≤ Pool.size _
    simp only [Pool.size] at hsize hquota ⊢
    omega

namespace Collected

variable {before : Pool R} {now : Reading} {last : Errand R}

/-- There is no room left to let more go, or nothing expired is left. -/
theorem quota_eq_zero (hcollected : Collected before now last) : last.pool.quota now = 0 := by
  have hpool := hcollected.pool_eq
  have hclosed : last.pool.closed = before.closed := by rw [hpool]
  have hmin : last.pool.minCapacity = before.minCapacity := by rw [hpool]
  by_cases hshut : before.closed = true
  · exact Pool.quota_of_closed (hclosed.trans hshut) now
  have hopen := eq_false_of_ne_true hshut
  have hsize := hcollected.size_eq
  rw [Pool.quota_of_open hopen] at hsize
  rw [Pool.quota_of_open (hclosed.trans hopen), hmin]
  by_cases hall : (before.expired now).length ≤ before.size - before.minCapacity
  · have hnone : last.pool.expired now = [] := by
      have hgone : last.disposed = before.expired now := by
        rw [hcollected.disposed_eq, Pool.collectable, Pool.quota_of_open hopen,
          Nat.min_eq_left hall, List.take_length]
      apply List.eq_nil_iff_forall_not_mem.mpr
      intro resource hmem
      obtain ⟨havailable, hexpired⟩ := List.mem_filter.mp (List.mem_eraseDups.mp hmem)
      have hentry := hcollected.get?_eq resource
      by_cases hdisposed : resource ∈ last.disposed
      · rw [if_pos hdisposed] at hentry
        simp [Pool.isExpired, hentry] at hexpired
      · rw [if_neg hdisposed] at hentry
        rw [hgone, Pool.expired, List.mem_eraseDups, List.mem_filter] at hdisposed
        apply hdisposed
        rw [hpool] at havailable
        refine ⟨List.diff_subset _ _ havailable, ?_⟩
        rw [Pool.isExpired, hentry] at hexpired
        rw [Pool.isExpired, ← hexpired, hpool]
    rw [hnone, List.length_nil, Nat.zero_min]
  · omega

theorem nodup_keys (hcollected : Collected before now last) (hkeys : before.tracked.keys.Nodup) :
    last.pool.tracked.keys.Nodup := by
  rw [hcollected.pool_eq]
  exact Table.nodup_keys_foldl_erase hkeys _

/-- A collection that finds nothing to let go leaves everything as it is. -/
theorem of_quota_eq_zero (hcollected : Collected before now last) (hnone : before.quota now = 0) :
    last.pool = before ∧ last.call = .done (.collected 0) ∧ last.disposed = [] := by
  have hempty : before.collectable now = [] := by rw [Pool.collectable, hnone, List.take_zero]
  refine ⟨?_, hnone ▸ hcollected.call_eq, hcollected.disposed_eq.trans hempty⟩
  have hzero : before.totals.collected + .ofNat 0 = before.totals.collected := UInt64.add_zero _
  rw [hcollected.pool_eq, hempty, hnone, hzero]
  rfl

end Collected

namespace System

/-- What a collection does that nobody disturbs. It leaves alone what is not available, and another
one at the same reading lets go nothing at all. -/
theorem collects_of_reaches {options : ElasticOptions} {counter : Counter} {count : Nat}
    {system : System R} (hreaches : Reaches anyhow (start options counter count) system)
    (answers : Answers R) :
    ∃ last, last ∈ Errand.run answers { pool := system.pool, call := .collect } ∧
      Collected system.pool (answers.reading 0) last ∧
      (∀ resource, resource ∉ system.pool.available →
        last.pool.tracked.get? resource = system.pool.tracked.get? resource) ∧
      (∀ answers' : Answers R, answers'.reading 0 = answers.reading 0 →
        ∃ again, again ∈ Errand.run answers' { pool := last.pool, call := .collect } ∧
          again.pool = last.pool ∧ again.call = .done (.collected 0) ∧ again.disposed = []) ∧
      -- Unless a call has given up what was available, a resource is available only once, and only
      -- while it is not in use.
      (Reaches undisputed (start options counter count) system →
        system.pool.expired (answers.reading 0) =
            system.pool.available.filter (system.pool.isExpired (answers.reading 0)) ∧
          ∀ resource, system.pool.checkedOut? resource = some true →
            last.pool.tracked.get? resource = system.pool.tracked.get? resource) := by
  have hkeys := hreaches.bounded.within.nodup_keys
  obtain ⟨last, hrun, hcollected⟩ := exists_collected answers hkeys
  have huntouched : ∀ resource, resource ∉ system.pool.available →
      last.pool.tracked.get? resource = system.pool.tracked.get? resource := by
    intro resource hnot
    rw [hcollected.get?_eq,
      if_neg fun hdisposed => hnot (hcollected.available_of_disposed resource hdisposed)]
  refine ⟨last, hrun, hcollected, huntouched, ?_, ?_⟩
  · intro answers' hsame
    obtain ⟨again, hrun', hcollected'⟩ := exists_collected answers' (hcollected.nodup_keys hkeys)
    have hnone := hcollected.quota_eq_zero
    rw [← hsame] at hnone
    exact ⟨again, hrun', hcollected'.of_quota_eq_zero hnone⟩
  · intro hundisputed
    have hconsistent := hundisputed.untangled.consistent
    refine ⟨Pool.expired_of_nodup hconsistent.nodup_available _, ?_⟩
    intro resource hout
    apply huntouched
    rw [hconsistent.mem_available_iff, hout]
    exact fun heq => by cases heq

/-- A caller has five resources made and gives all but the last back, at the times told. -/
def scattered : List (Event Nat) :=
  [1, 2, 3, 4, 5].flatMap (fun resource =>
      [⟨0, .begin .acquire 0, 0⟩, ⟨0, .turn 0, 0⟩, ⟨0, .make (.ok resource), 0⟩,
        ⟨0, .turn 0, 0⟩]) ++
    [(1, 10), (2, 12), (3, 13), (4, 14)].flatMap fun (resource, now) =>
      [⟨0, .begin (.release resource) now, 0⟩, ⟨0, .turn now, 0⟩]

/-- A pool that keeps three, and lets go what was last used at an even time. -/
def sparing : ElasticOptions where
  maxCapacity := 5
  minCapacity := 3
  expiry := .custom fun lifetime _ => lifetime.lastAccess % 2 == 0

def atTwenty : Answers Nat where
  healthy := fun _ => true
  made := .failed "none left"
  reading := fun _ => 20

theorem collects_of_scattered : ∃ (system : System Nat) (last again : Errand Nat),
    run? undisputed scattered (start sparing .silent 1) = some system ∧
      system.pool.available = [4, 3, 2, 1] ∧ system.pool.size = 5 ∧
      last ∈ Errand.run atTwenty { pool := system.pool, call := .collect } ∧
      last.call = .done (.collected 2) ∧ last.disposed = [4, 2] ∧
      last.pool.available = [3, 1] ∧ last.pool.size = 3 ∧
      last.pool.tracked.get? 5 = system.pool.tracked.get? 5 ∧
      again ∈ Errand.run atTwenty { pool := last.pool, call := .collect } ∧
      again.call = .done (.collected 0) ∧ again.pool = last.pool := by
  let shown (system : System Nat) : ((List Nat × Nat) × Option Bool) × List Nat × Nat :=
    (((system.pool.available, system.pool.size), system.pool.checkedOut? 5),
      system.pool.collectable 20, system.pool.quota 20)
  have hruns : (run? undisputed scattered (start sparing .silent 1)).map shown =
      some ((([4, 3, 2, 1], 5), some true), [4, 2], 2) := by decide
  obtain ⟨system, hrun, hshown⟩ := Option.map_eq_some_iff.mp hruns
  simp only [shown, Prod.mk.injEq] at hshown
  obtain ⟨⟨⟨havailable, hsize⟩, hout⟩, hcollectable, hquota⟩ := hshown
  have hreaches : Reaches undisputed (start sparing .silent 1) system := Runs.reaches_of_run? hrun
  obtain ⟨last, hlast, hcollected, -, hagain, hspares⟩ :=
    collects_of_reaches (hreaches.mono fun _ _ _ => rfl) atTwenty
  obtain ⟨again, hrun', hpool, hcall, -⟩ := hagain atTwenty rfl
  have hleft := hcollected.size_eq
  rw [show atTwenty.reading 0 = 20 from rfl] at hcollected hleft
  refine ⟨system, last, again, hrun, havailable, hsize, hlast, ?_, ?_, ?_, by omega,
    (hspares hreaches).2 5 hout, hrun', hcall, hpool⟩
  · rw [hcollected.call_eq, hquota]
  · rw [hcollected.disposed_eq, hcollectable]
  · rw [hcollected.pool_eq, hcollectable, havailable]
    rfl

/-- The resource 7 is given back while a call checks it, by a caller that has it no more. The check
fails, and the factory makes 7 again: it is available, and another caller has it. -/
def remade : List (Event Nat) :=
  [⟨3, .begin .acquire 0, 0⟩, ⟨3, .turn 0, 0⟩, ⟨3, .make (.ok 8), 0⟩, ⟨3, .turn 0, 0⟩,
    ⟨0, .begin .acquire 0, 0⟩, ⟨0, .turn 0, 0⟩, ⟨0, .make (.ok 7), 0⟩, ⟨0, .turn 0, 0⟩,
    ⟨1, .begin .tryAcquire 0, 0⟩, ⟨1, .turn 0, 0⟩, ⟨0, .begin (.release 7) 1, 0⟩, ⟨0, .turn 1, 0⟩,
    ⟨2, .begin .tryAcquire 1, 0⟩, ⟨2, .turn 1, 0⟩, ⟨0, .begin (.release 7) 2, 0⟩, ⟨0, .turn 2, 0⟩,
    ⟨2, .check false, 0⟩, ⟨2, .turn 3, 0⟩, ⟨2, .dispose, 0⟩, ⟨1, .make (.ok 7), 0⟩, ⟨1, .turn 3, 0⟩]

def remadeAfter : List (Event Nat) := [⟨1, .begin (.release 7) 4, 0⟩, ⟨1, .turn 4, 0⟩]

/-- A pool that lets go whatever is available. -/
def sweeping : ElasticOptions where
  maxCapacity := 3
  minCapacity := 0
  expiry := .custom fun _ _ => true

/-- A collection takes the resource 7 away from the caller that has it. Had that given 7 back
before, two of the available resources would have expired, and it would have let go one. -/
theorem astray_of_remade : ∃ (system later : System Nat) (last again : Errand Nat),
    run? anyhow remade (start sweeping .silent 4) = some system ∧
      (system.callers[1]?).map Caller.held = some [7] ∧
      system.pool.checkedOut? 7 = some true ∧
      last ∈ Errand.run atTwenty { pool := system.pool, call := .collect } ∧
      last.disposed = [7] ∧ last.pool.tracked.get? 7 = none ∧
      run? anyhow remadeAfter system = some later ∧ later.pool.closed = false ∧
      (later.pool.available.filter (later.pool.isExpired 20)).length = 2 ∧
      later.pool.size - later.pool.minCapacity = 2 ∧
      again ∈ Errand.run atTwenty { pool := later.pool, call := .collect } ∧
      again.call = .done (.collected 1) := by
  let shown (system : System Nat) : (Option (List Nat) × Option Bool) × List Nat :=
    (((system.callers[1]?).map Caller.held, system.pool.checkedOut? 7), system.pool.collectable 20)
  let shownAfter (later : System Nat) : (Bool × Nat) × Nat × Nat :=
    ((later.pool.closed, (later.pool.available.filter (later.pool.isExpired 20)).length),
      later.pool.size - later.pool.minCapacity, later.pool.quota 20)
  have hruns : (run? anyhow remade (start sweeping .silent 4)).bind (fun system =>
      (run? anyhow remadeAfter system).map fun later => (shown system, shownAfter later)) =
      some (((some [7], some true), [7]), (false, 2), 2, 1) := by decide
  obtain ⟨system, hrun, hafter⟩ := Option.bind_eq_some_iff.mp hruns
  obtain ⟨later, hlater, hseen⟩ := Option.map_eq_some_iff.mp hafter
  simp only [shown, shownAfter, Prod.mk.injEq] at hseen
  obtain ⟨⟨⟨hheld, hout⟩, hcollectable⟩, ⟨hopen, hexpired⟩, hroom, hquota⟩ := hseen
  have hreaches := Runs.reaches_of_run? hrun
  have hgoesOn : Reaches anyhow (start sweeping .silent 4) later :=
    hreaches.trans (Runs.reaches_of_run? hlater)
  obtain ⟨last, hlast, hcollected⟩ :=
    exists_collected atTwenty (Reaches.bounded hreaches).within.nodup_keys
  obtain ⟨again, hagain, hcounted⟩ :=
    exists_collected atTwenty (Reaches.bounded hgoesOn).within.nodup_keys
  rw [show atTwenty.reading 0 = 20 from rfl] at hcollected hcounted
  have hdisposed := hcollected.disposed_eq.trans hcollectable
  refine ⟨system, later, last, again, hrun, hheld, hout, hlast, hdisposed, ?_, hlater, hopen,
    hexpired, hroom, hagain, ?_⟩
  · rw [hcollected.get?_eq, hdisposed, if_pos List.mem_cons_self]
  · rw [hcounted.call_eq, hquota]

end System

end Pooling.Elastic
