import Pooling.Proofs.Elastic.Representation

/-!
The totals of an elastic pool against the answers that its callers had, where they come one after
another.
-/

namespace Pooling

variable {R : Type}

/-- One entry in the totals of a pool. -/
inductive Count where
  | acquired
  | released
  | created
  | unhealthy
  | collected
  | timedOut
  deriving DecidableEq

namespace Count

def note : Count → Totals → Totals
  | acquired => Totals.countAcquired
  | released => Totals.countReleased
  | created => Totals.countCreated
  | unhealthy => Totals.countUnhealthy
  | collected => Totals.countCollected
  | timedOut => Totals.countTimeout

def word : Count → Totals → UInt64
  | acquired => Totals.acquired
  | released => Totals.released
  | created => Totals.created
  | unhealthy => Totals.unhealthy
  | collected => Totals.collected
  | timedOut => Totals.timeouts

theorem word_note (count other : Count) (totals : Totals) :
    count.word (other.note totals) = count.word totals + .ofNat ([other].count count) := by
  cases count <;> cases other <;> first | rfl | exact (UInt64.add_zero _).symm

end Count

/-- Totals after some more entries, oldest first. -/
def Totals.noting (totals : Totals) (counts : List Count) : Totals :=
  counts.foldl (fun totals count => count.note totals) totals

theorem Totals.noting_append (totals : Totals) (first second : List Count) :
    totals.noting (first ++ second) = (totals.noting first).noting second :=
  List.foldl_append ..

theorem Count.word_noting (count : Count) (counts : List Count) (totals : Totals) :
    count.word (totals.noting counts) = count.word totals + .ofNat (counts.count count) := by
  induction counts generalizing totals with
  | nil => exact (UInt64.add_zero _).symm
  | cons other counts ih =>
      have hcons : counts.count count + [other].count count = (other :: counts).count count := by
        rw [← List.count_append, ← List.perm_append_comm.count_eq]
        rfl
      show count.word ((other.note totals).noting counts) = _
      rw [ih, count.word_note, UInt64.add_assoc, ← UInt64.ofNat_add, ← hcons, Nat.add_comm]

namespace Outcome

def isAcquired : Outcome R → Bool
  | acquired _ => true
  | _ => false

def isReleased : Outcome R → Bool
  | released => true
  | _ => false

def isTimeout : Outcome R → Bool
  | failed (.timeout _) => true
  | _ => false

end Outcome

namespace Elastic

variable [DecidableEq R]

namespace Next

/-- What follows the closing of a resource is nothing that is counted then. -/
def Plain : Next R → Prop
  | .finish outcome => outcome = .released ∨ outcome = .failed .closed
  | _ => True

/-- The resources that were collected and are not counted yet. -/
def unswept : Next R → Nat
  | .sweep rest _ => rest.length
  | _ => 0

/-- One where the caller is to be told of a release that was counted. -/
def owes : Next R → Nat
  | .finish .released => 1
  | _ => 0

end Next

namespace Call

def Plain : Call R → Prop
  | closing _ next => next.Plain
  | after next => next.Plain
  | _ => True

def unswept : Call R → Nat
  | closing _ next => next.unswept
  | after next => next.unswept
  | _ => 0

def owes : Call R → Nat
  | closing _ next => next.owes
  | after next => next.owes
  | _ => 0

/-- The answer of a call that is over. -/
def answer : Call R → List (Outcome R)
  | done outcome => [outcome]
  | _ => []

end Call

theorem Transition.plain {move : Move R} {call : Call R} {pool : Pool R}
    {advanced : Call.Advanced R} (htransition : Transition move call pool advanced)
    (hplain : call.Plain) : advanced.call.Plain := by
  cases htransition with
  | begin request => cases request <;> trivial
  | late => exact .inr rfl
  | returnedLate => exact .inl rfl
  | disposed => exact hplain
  | _ => trivial

/-- What a move enters into the totals, against what it answers and how the sizes change. -/
structure Enters (call : Call R) (pool : Pool R) (advanced : Call.Advanced R)
    (entered : List Count) : Prop where
  totals_eq : advanced.pool.totals = pool.totals.noting entered := by rfl
  acquired_eq : entered.count .acquired = advanced.call.answer.countP Outcome.isAcquired := by rfl
  released_eq : entered.count .released + call.owes =
    advanced.call.answer.countP Outcome.isReleased + advanced.call.owes := by rfl
  timeouts_eq : entered.count .timedOut = advanced.call.answer.countP Outcome.isTimeout := by rfl
  created_le : entered.count .created ≤ entered.count .acquired := by decide
  inUse_eq : advanced.pool.size + entered.count .released +
      (pool.available.length + call.vetted.length) =
    pool.size + entered.count .acquired +
      (advanced.pool.available.length + advanced.call.vetted.length) := by rfl
  size_eq : advanced.pool.closed = false →
    advanced.pool.size + entered.count .unhealthy + entered.count .collected +
        advanced.call.unswept =
      pool.size + entered.count .created + call.unswept := by exact fun _ => rfl

theorem Transition.enters {move : Move R} {call : Call R} {pool : Pool R}
    {advanced : Call.Advanced R} (htransition : Transition move call pool advanced)
    (hunraised : ∀ text, move ≠ .raise text) (hkeys : pool.tracked.keys.Nodup)
    (hconsistent : pool.Consistent) (hplain : call.Plain)
    (hvetted : ∀ resource ∈ call.vetted, pool.checkedOut? resource = some true) :
    ∃ entered, Enters call pool advanced entered := by
  cases htransition with
  | begin request => cases request <;> exact ⟨[], {}⟩
  | barred patience waited => cases waited <;> exact ⟨[], {}⟩
  | @granted patience waited now _ resource rest hopen hchosen =>
      refine ⟨[], { inUse_eq := ?_, size_eq := fun _ => ?_ }⟩
      · have hlength := hchosen.length_eq
        have hsize := pool.size_checkOut resource rest
        simp only [List.length_cons] at hlength
        show (pool.checkOut resource rest).size + 0 + (pool.available.length + 0) =
          pool.size + 0 + (rest.length + 1)
        omega
      · exact pool.size_checkOut resource rest
  | timesOut | retriesTooLate => exact ⟨[.timedOut], {}⟩
  | kept resource now hopen hnew =>
      have hsize : (Pool.track { pool with creating := pool.creating - 1 } resource now).size =
          pool.size + 1 := Pool.size_track { pool with creating := pool.creating - 1 } hnew now
      refine ⟨[.created, .acquired], { inUse_eq := ?_, size_eq := fun _ => ?_ }⟩
      · exact congrArg (· + (pool.available.length + 0)) hsize
      · exact hsize
  | passed =>
      refine ⟨[.acquired], { inUse_eq := ?_ }⟩
      show pool.size + 0 + (pool.available.length + 1) = pool.size + 1 + (pool.available.length + 0)
      omega
  | forgot patience resource now htracked =>
      have hsize : (pool.untrack resource).size + 1 = pool.size := Pool.size_untrack hkeys htracked
      refine ⟨[.unhealthy], { inUse_eq := ?_, size_eq := fun _ => ?_ }⟩
      · show (pool.untrack resource).size + 0 + (pool.available.length + 1) =
          pool.size + 0 + (pool.available.length + 0)
        omega
      · exact hsize
  -- A resource under a check is checked out, so that whoever rejects it finds it tracked.
  | forgotAgain patience resource now hgone =>
      have hout := hvetted resource List.mem_cons_self
      simp [hgone] at hout
  | pooled resource reading now hopen hout =>
      have hsize := pool.size_markReturned resource reading
      refine ⟨[.released], { inUse_eq := ?_, size_eq := fun _ => hsize }⟩
      show (pool.markReturned resource reading).size + 1 + (pool.available.length + 0) =
        pool.size + 0 + (pool.available.length + 1 + 0)
      omega
  | returnedLate resource reading now hclosed hout =>
      have hreturned : (pool.markReturned resource reading).tracked.keys.Nodup := by
        simpa [Pool.markReturned] using hkeys
      have htracked : ((pool.markReturned resource reading).checkedOut? resource).isSome := by
        simp [Pool.checkedOut?_markReturned, hout]
      have hsize := Pool.size_untrack hreturned htracked
      rw [Pool.size_markReturned] at hsize
      refine ⟨[.released], { inUse_eq := ?_, size_eq := fun hopen => ?_ }⟩
      · exact congrArg (· + (pool.available.length + 0)) hsize
      · exact absurd (hopen.symm.trans hclosed) Bool.false_ne_true
  | @scanned now _ hopen taken left hperm hnodup htracked =>
      have hsize := Pool.size_foldl_untrack hkeys hnodup htracked
      have hlength := hperm.length_eq
      rw [List.length_append] at hlength
      refine ⟨[], { totals_eq := ?_, inUse_eq := ?_, size_eq := fun _ => ?_ }⟩
      · rw [Pool.foldl_untrack_eq]
        rfl
      · show (taken.foldl Pool.untrack pool).size + 0 + (pool.available.length + 0) =
          pool.size + 0 + (left.length + 0)
        omega
      · exact hsize
  | shut now hopen hcount =>
      have htracked : ∀ resource ∈ pool.available, (pool.checkedOut? resource).isSome :=
        fun resource hmem => by simp [(hconsistent.mem_available_iff resource).mp hmem]
      have hsize : (pool.available.foldl Pool.untrack
          { pool with closed := true, available := [] }).size + pool.available.length =
            pool.size :=
        Pool.size_foldl_untrack hkeys hconsistent.nodup_available htracked
      refine ⟨[], { totals_eq := ?_, inUse_eq := ?_, size_eq := fun hopen => ?_ }⟩
      · rw [Pool.foldl_untrack_eq]
        rfl
      · rw [Pool.foldl_untrack_eq]
        exact hsize
      · rw [Pool.foldl_untrack_eq] at hopen
        cases hopen
  | cutShort now hopen hcount =>
      exact absurd hconsistent.available_length_le (Nat.not_le_of_lt hcount)
  | disposed resource next => exact ⟨[], {}⟩
  | finished outcome =>
      rcases hplain with rfl | rfl
      · exact ⟨[], {}⟩
      · exact ⟨[], {}⟩
  | sweeps resource rest =>
      refine ⟨[.collected], { size_eq := fun _ => ?_ }⟩
      show pool.size + 0 + 1 + rest.length = pool.size + 0 + (rest.length + 1)
      omega
  | raised text => exact absurd rfl (hunraised text)
  | _ => exact ⟨[], {}⟩

/-- An elastic pool whose callers come one after another: the call that goes on or was the last, and
what was answered so far, oldest first. -/
structure Journal (R : Type) where
  pool : Pool R
  call : Call R := .done .nothing
  answers : List (Outcome R) := []

/-- What happens next: a move of the call, or a caller that has polled in vain gives up. -/
inductive Entry (R : Type) where
  | move (move : Move R)
  | expire (timeout : Duration)

namespace Journal

def start (options : ElasticOptions) (counter : Counter) : Journal R where
  pool := .start options counter

def after (journal : Journal R) (advanced : Call.Advanced R) : Journal R where
  pool := advanced.pool
  call := advanced.call
  answers := journal.answers ++ advanced.call.answer

/-- Nobody sleeps but the caller itself, so that nobody is woken. -/
def step? (journal : Journal R) : Entry R → Option (Journal R)
  | .move move => (move.perform? journal.call journal.pool).map journal.after
  | .expire timeout =>
      if journal.call = .done .nothing then
        some (journal.after (Call.timedOut journal.pool timeout))
      else none

/-- The factory raises nothing. -/
def unraised (_ : Journal R) : Entry R → Bool
  | .move (.raise _) => false
  | _ => true

abbrev Reaches : Journal R → Journal R → Prop := Runs.Reaches step? unraised

abbrev run? : List (Entry R) → Journal R → Option (Journal R) := Runs.run? step? unraised

def Idle (journal : Journal R) : Prop := ∃ outcome, journal.call = .done outcome

structure Sound (journal : Journal R) : Prop where
  within : journal.pool.Within
  reserved_le : journal.call.reserved ≤ journal.pool.creating
  consistent : journal.pool.Consistent
  vetted_le : ∀ resource, journal.call.vetted.count resource ≤ journal.pool.out resource
  plain : journal.call.Plain

theorem sound_start (options : ElasticOptions) (counter : Counter) :
    (start options counter : Journal R).Sound where
  within := ⟨List.nodup_nil, Nat.zero_le _⟩
  reserved_le := Nat.le_refl 0
  consistent := Pool.consistent_start options counter
  vetted_le := fun _ => Nat.zero_le _
  plain := trivial

namespace Sound

variable {journal : Journal R}

theorem checkedOut (hsound : journal.Sound) {resource : R}
    (hmem : resource ∈ journal.call.vetted) : journal.pool.checkedOut? resource = some true := by
  have hle := hsound.vetted_le resource
  have hpos := List.count_pos_iff.mpr hmem
  unfold Pool.out at hle
  split at hle
  next hout => exact hout
  next => omega

theorem moved (hsound : journal.Sound) {move : Move R} {advanced : Call.Advanced R}
    (htransition : Transition move journal.call journal.pool advanced)
    (hunraised : ∀ text, move ≠ .raise text) : (journal.after advanced).Sound where
  within := htransition.within hsound.within hsound.reserved_le
  reserved_le := by
    have hreserved := htransition.reserved_eq hsound.reserved_le
    have hle := hsound.reserved_le
    rw [Move.wastes_of_unraised hunraised] at hreserved
    show advanced.call.reserved ≤ advanced.pool.creating
    omega
  consistent := by
    apply htransition.consistent hsound.consistent
    intro resource hrejected
    have hout := hsound.checkedOut (Call.mem_vetted_of_rejected hrejected)
    simp [hsound.consistent.mem_available_iff, hout]
  vetted_le := by
    intro resource
    show advanced.call.vetted.count resource ≤ advanced.pool.out resource
    by_cases hreturned : resource ∈ journal.call.returned
    · rw [(htransition.vetted_of_returned hreturned).2, List.count_nil]
      exact Nat.zero_le _
    · have hmove := htransition.vetted_le hsound.consistent hreturned
      have hle := hsound.vetted_le resource
      omega
  plain := htransition.plain hsound.plain

theorem expired (hsound : journal.Sound) (timeout : Duration) :
    (journal.after (Call.timedOut journal.pool timeout)).Sound where
  within := hsound.within.of_same_keys rfl (Nat.le_refl _) rfl
  reserved_le := Nat.zero_le _
  consistent := hsound.consistent.of_same rfl (fun _ => rfl) rfl
  vetted_le := fun _ => Nat.zero_le _
  plain := trivial

end Sound

/-- What was entered into the totals, against the answers so far and the present sizes. -/
structure Tallied (journal : Journal R) (entered : List Count) : Prop where
  totals_eq : journal.pool.totals = ({} : Totals).noting entered
  acquired_eq : entered.count .acquired = journal.answers.countP Outcome.isAcquired
  released_eq :
    entered.count .released = journal.answers.countP Outcome.isReleased + journal.call.owes
  timeouts_eq : entered.count .timedOut = journal.answers.countP Outcome.isTimeout
  created_le : entered.count .created ≤ entered.count .acquired
  inUse_eq : journal.pool.size + entered.count .released =
    entered.count .acquired + (journal.pool.available.length + journal.call.vetted.length)
  size_eq : journal.pool.closed = false →
    entered.count .created = entered.count .unhealthy + entered.count .collected +
      journal.call.unswept + journal.pool.size

omit [DecidableEq R] in
theorem tallied_start (options : ElasticOptions) (counter : Counter) :
    (start options counter : Journal R).Tallied [] :=
  ⟨rfl, rfl, rfl, rfl, Nat.le_refl 0, rfl, fun _ => rfl⟩

omit [DecidableEq R] in
theorem Tallied.after {journal : Journal R} {entered more : List Count}
    (htallied : journal.Tallied entered) {advanced : Call.Advanced R}
    (henters : Enters journal.call journal.pool advanced more)
    (hclosed : journal.pool.closed = true → advanced.pool.closed = true) :
    (journal.after advanced).Tallied (entered ++ more) where
  totals_eq := by
    rw [Totals.noting_append, ← htallied.totals_eq]
    exact henters.totals_eq
  acquired_eq := by
    rw [List.count_append, htallied.acquired_eq, henters.acquired_eq, ← List.countP_append]
    rfl
  released_eq := by
    have hbefore := htallied.released_eq
    have hmore := henters.released_eq
    simp only [Journal.after, List.count_append, List.countP_append]
    omega
  timeouts_eq := by
    rw [List.count_append, htallied.timeouts_eq, henters.timeouts_eq, ← List.countP_append]
    rfl
  created_le := by
    have hbefore := htallied.created_le
    have hmore := henters.created_le
    simp only [List.count_append]
    omega
  inUse_eq := by
    have hbefore := htallied.inUse_eq
    have hmore := henters.inUse_eq
    simp only [Journal.after, List.count_append]
    omega
  size_eq := by
    intro hopen
    have hbefore := htallied.size_eq <| eq_false_of_ne_true fun hshut =>
      Bool.false_ne_true (hopen.symm.trans (hclosed hshut))
    have hmore := henters.size_eq hopen
    simp only [Journal.after, List.count_append]
    omega

theorem exists_tallied {options : ElasticOptions} {counter : Counter} {journal : Journal R}
    (hreaches : Reaches (start options counter) journal) :
    journal.Sound ∧ ∃ entered, journal.Tallied entered := by
  refine hreaches.invariant (fun journal => journal.Sound ∧ ∃ entered, journal.Tallied entered)
    ⟨sound_start options counter, [], tallied_start options counter⟩ ?_
  rintro before next entry ⟨hsound, entered, htallied⟩ hunraised hstep
  cases entry with
  | move move =>
      obtain ⟨advanced, hperform, rfl⟩ := Option.map_eq_some_iff.mp hstep
      have htransition := transition_of_perform? hperform
      have hunraised : ∀ text, move ≠ .raise text := by
        rintro text rfl
        cases hunraised
      obtain ⟨more, henters⟩ := htransition.enters hunraised hsound.within.nodup_keys
        hsound.consistent hsound.plain fun resource => hsound.checkedOut
      exact ⟨hsound.moved htransition hunraised, entered ++ more,
        htallied.after henters htransition.closed_of_closed⟩
  | expire timeout =>
      obtain ⟨hpolled, heq⟩ := Option.ite_none_right_eq_some.mp hstep
      cases heq
      have henters : Enters before.call before.pool (Call.timedOut before.pool timeout)
          [.timedOut] := by
        rw [hpolled]
        exact {}
      exact ⟨hsound.expired timeout, entered ++ [.timedOut], htallied.after henters id⟩

/-- The totals that a pool shows, against what its callers were answered and its sizes. -/
structure Accounts (journal : Journal R) : Prop where
  acquired_eq : journal.pool.snapshot.totals.acquired.toNat =
    journal.answers.countP Outcome.isAcquired
  released_eq : journal.pool.snapshot.totals.released.toNat =
    journal.answers.countP Outcome.isReleased
  timeouts_eq : journal.pool.snapshot.totals.timeouts.toNat =
    journal.answers.countP Outcome.isTimeout
  inUse_eq : ∃ inUse, journal.pool.inUse = .ok inUse ∧
    journal.pool.snapshot.totals.acquired.toNat =
      journal.pool.snapshot.totals.released.toNat + inUse
  created_eq : journal.pool.closed = false →
    journal.pool.snapshot.totals.created.toNat =
      journal.pool.snapshot.totals.unhealthy.toNat +
        journal.pool.snapshot.totals.collected.toNat + journal.pool.size
  inUse_of_closed : journal.pool.closed = true → journal.pool.inUse = .ok journal.pool.size

omit [DecidableEq R] in
theorem Tallied.toNat_word {journal : Journal R} {entered : List Count}
    (htallied : journal.Tallied entered) {count : Count}
    (hless : entered.count count < UInt64.size) :
    (count.word journal.pool.snapshot.totals).toNat = entered.count count := by
  show (count.word journal.pool.totals).toNat = _
  rw [htallied.totals_eq, count.word_noting]
  cases count <;> exact (congrArg UInt64.toNat (UInt64.zero_add _)).trans
    (UInt64.toNat_ofNat_of_lt hless)

/-- After each call the totals of a pool are those of the answers, and account for all it has. -/
theorem accounts_of_reaches {options : ElasticOptions} {counter : Counter} {journal : Journal R}
    (hreaches : Reaches (start options counter) journal) (hidle : journal.Idle)
    (hshort : journal.answers.length < UInt64.size) : journal.Accounts := by
  obtain ⟨hsound, entered, htallied⟩ := exists_tallied hreaches
  obtain ⟨outcome, hdone⟩ := hidle
  have hvetted : journal.call.vetted = [] := by
    rw [hdone]
    rfl
  have howes : journal.call.owes = 0 := by
    rw [hdone]
    rfl
  have hunswept : journal.call.unswept = 0 := by
    rw [hdone]
    rfl
  have hcount : ∀ isOne, journal.answers.countP isOne < UInt64.size := fun isOne =>
    Nat.lt_of_le_of_lt List.countP_le_length hshort
  have hacquired := htallied.acquired_eq
  have hreleased := htallied.released_eq
  have hinUse := htallied.inUse_eq
  have hcreated := htallied.created_le
  rw [howes, Nat.add_zero] at hreleased
  rw [hvetted, List.length_nil, Nat.add_zero] at hinUse
  have hshown : ∀ count, entered.count count < UInt64.size →
      (count.word journal.pool.snapshot.totals).toNat = entered.count count :=
    fun count => htallied.toNat_word
  have hmany : entered.count .acquired < UInt64.size := hacquired ▸ hcount _
  have hback : entered.count .released < UInt64.size := hreleased ▸ hcount _
  constructor
  case acquired_eq => exact (hshown .acquired hmany).trans hacquired
  case released_eq => exact (hshown .released hback).trans hreleased
  case timeouts_eq =>
    have htimeouts := htallied.timeouts_eq
    exact (hshown .timedOut (htimeouts ▸ hcount _)).trans htimeouts
  case inUse_eq =>
    have hle := hsound.consistent.available_length_le
    refine ⟨journal.pool.size - journal.pool.available.length, if_pos hle, ?_⟩
    have hacquired := hshown .acquired hmany
    have hreleased := hshown .released hback
    simp only [Count.word] at hacquired hreleased
    omega
  case created_eq =>
    intro hopen
    have hsize := htallied.size_eq hopen
    -- What is created is acquired and what is let go was created, so that no word comes round.
    have hmade := hshown .created (by omega)
    have hunhealthy := hshown .unhealthy (by omega)
    have hcollected := hshown .collected (by omega)
    simp only [Count.word] at hmade hunhealthy hcollected
    omega
  case inUse_of_closed =>
    intro hclosed
    have hnone := hsound.consistent.available_of_closed hclosed
    simp [Pool.inUse, hnone]

def asks (request : Request Nat) (now : Reading) (moves : List (Move Nat)) : List (Entry Nat) :=
  .move (.begin request now) :: moves.map .move

def creates (made : Made Nat) : List (Entry Nat) :=
  asks .acquire 0 [.turn 0, .make made, .turn 0]

/-- One creation gives a resource that there is, and one fails; three callers run out of time, one
by polling and one after it has found an unhealthy resource; one releases too often, and one
resource is let go because it has been there too long. -/
def eventful : List (Entry Nat) :=
  creates (.ok 1) ++ creates (.ok 1) ++ creates (.failed "none left") ++ creates (.ok 2) ++
    asks .tryAcquire 0 [.turn 0] ++ [.expire (.ofMillis 5)] ++
    asks (.acquireWithin (.ofMillis 5)) 0 [.turn 0, .oversleep, .turn 5] ++
    asks (.release 1) 6 [.turn 6] ++ asks (.release 1) 6 [.turn 6] ++
    asks (.acquireWithin (.ofMillis 5)) 6
      [.turn 6, .check false, .turn 7, .dispose, .turn 11] ++
    asks (.release 2) 12 [.turn 12] ++
    asks .collect 12 [.turn 12, .turn 12, .dispose, .turn 12] ++
    creates (.ok 3) ++ creates (.ok 4) ++ asks (.release 3) 13 [.turn 13]

def lateRelease : List (Entry Nat) :=
  asks .close 14 [.turn 14, .turn 14, .dispose, .turn 14, .retire] ++
    asks (.release 4) 15 [.turn 15, .dispose, .turn 15]

/-- A pool of two that keeps nothing which is not in use. -/
def fleeting : ElasticOptions where
  maxCapacity := 2
  minCapacity := 0
  expiry := .timeToLive .zero

theorem accounts_of_eventful : ∃ journal later : Journal Nat,
    run? eventful (start fleeting .silent) = some journal ∧
      journal.pool.totals = ⟨4, 3, 4, 1, 1, 3⟩ ∧ journal.pool.size = 2 ∧ journal.Accounts ∧
      run? lateRelease journal = some later ∧
      later.pool.totals = ⟨4, 4, 4, 1, 1, 3⟩ ∧ later.pool.size = 0 ∧ later.Accounts := by
  let shown (journal : Journal Nat) : Totals × Nat × Call Nat × Nat :=
    (journal.pool.totals, journal.pool.size, journal.call, journal.answers.length)
  have hruns : ((run? eventful (start fleeting .silent)).bind fun journal =>
      (run? lateRelease journal).map fun later => (shown journal, shown later)) =
      some ((⟨4, 3, 4, 1, 1, 3⟩, 2, .done .released, 15),
        (⟨4, 4, 4, 1, 1, 3⟩, 0, .done .released, 17)) := by decide
  obtain ⟨journal, hrun, hlater⟩ := Option.bind_eq_some_iff.mp hruns
  obtain ⟨later, hlate, hends⟩ := Option.map_eq_some_iff.mp hlater
  simp only [shown, Prod.mk.injEq] at hends
  obtain ⟨⟨htotals, hsize, hdone, hlength⟩, htotals', hsize', hdone', hlength'⟩ := hends
  have hreaches : Reaches (start fleeting .silent) journal := Runs.reaches_of_run? hrun
  refine ⟨journal, later, hrun, htotals, hsize, ?_, hlate, htotals', hsize', ?_⟩
  · refine accounts_of_reaches hreaches ⟨_, hdone⟩ ?_
    rw [hlength]
    decide
  · refine accounts_of_reaches (hreaches.trans (Runs.reaches_of_run? hlate)) ⟨_, hdone'⟩ ?_
    rw [hlength']
    decide

end Journal

end Elastic

end Pooling
