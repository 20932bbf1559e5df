import Pooling.Proofs.Elastic.Strides

/-!
A call that wants a resource by a deadline, in the midst of others. The deadline is the same from
its beginning to its end, whatever fails in between and however long that takes.
-/

namespace Pooling.Elastic

variable {R : Type} [DecidableEq R]

/-- One move of a call: when it was, the call and the pool before it, and what came of it. -/
structure Passage (R : Type) where
  time : Reading
  move : Move R
  call : Call R
  pool : Pool R
  advanced : Call.Advanced R

namespace Passage

/-- Whether the clock is read in a move. -/
def Reads (passage : Passage R) : Prop := passage.call.Reads passage.pool

/-- Whether a move is a look for a slot, the check of a resource or the making of one. -/
def Seeks (passage : Passage R) : Prop := passage.call.Seeks

instance (passage : Passage R) : Decidable passage.Seeks :=
  inferInstanceAs (Decidable passage.call.Seeks)

/-- How long the call is to sleep that goes to sleep in a move. -/
def wait? (passage : Passage R) : Option UInt64 :=
  match passage.advanced.call with
  | .parked (.until deadline _) => some (deadline - passage.time)
  | _ => none

/-- By how much the count of time-outs grows in a move. -/
def timeouts (passage : Passage R) : Nat :=
  (passage.advanced.pool.totals.timeouts - passage.pool.totals.timeouts).toNat

end Passage

/-- The moves of a call that wants a resource by a deadline, newest first, and where it is then.
What others do to the pool in between is not told, but that they may wake the call. -/
inductive Course (deadline : Reading) (timeout : Duration) :
    List (Passage R) → Call R → Reading → Prop
  | begins (now : Reading) :
      Course deadline timeout [] (.seeking (.until deadline timeout) false) now
  | goes {passages : List (Passage R)} {call : Call R} {time : Reading}
      (hcourse : Course deadline timeout passages call time) (passage : Passage R)
      (hcall : passage.call = call) (hlater : time ≤ passage.time)
      (hstride : Stride deadline timeout passage.time passage.move passage.call passage.pool
        passage.advanced) :
      Course deadline timeout (passage :: passages) passage.advanced.call passage.time
  | rests {passages : List (Passage R)} {call : Call R} {time later : Reading}
      (hcourse : Course deadline timeout passages call time) (hlater : time ≤ later) :
      Course deadline timeout passages call later
  | wakes {passages : List (Passage R)} {call : Call R} {time : Reading}
      (hcourse : Course deadline timeout passages call time) :
      Course deadline timeout passages call.woken time

namespace Course

variable {deadline : Reading} {timeout : Duration} {passages : List (Passage R)} {call : Call R}
  {time : Reading}

theorem timed (hcourse : Course deadline timeout passages call time) :
    call.Timed (.until deadline timeout) := by
  induction hcourse with
  | begins => rfl
  | goes _ passage hcall hlater hstride ih => exact hstride.timed (hcall ▸ ih)
  | rests _ _ ih => exact ih
  | wakes _ ih => exact ih.woken

theorem late_of_timeout (hcourse : Course deadline timeout passages call time)
    {timeout' : Duration} (htimeout : call = .done (.failed (.timeout timeout'))) :
    timeout' = timeout ∧ ∃ passage older, passages = passage :: older ∧ passage.Reads ∧
      deadline ≤ passage.time := by
  induction hcourse with
  | begins => cases htimeout
  | @goes passages _ _ _ passage hcall hlater hstride ih =>
      obtain ⟨hsame, hreads, hlate⟩ := hstride.late_of_timeout htimeout
      exact ⟨hsame, passage, passages, rfl, hreads, hlate⟩
  | rests _ _ ih => exact ih htimeout
  | wakes _ ih => exact ih (Call.eq_of_woken htimeout (by simp))

/-- After a reading of the deadline, or of a later time, nothing follows. -/
theorem done_of_late (hcourse : Course deadline timeout passages call time)
    {newer older : List (Passage R)} {passage : Passage R}
    (hsplit : passages = newer ++ passage :: older) (hreads : passage.Reads)
    (hlate : deadline ≤ passage.time) : newer = [] ∧ ∃ outcome, call = .done outcome := by
  induction hcourse generalizing newer with
  | begins => simp at hsplit
  | goes _ latest hcall hlater hstride ih =>
      cases newer with
      | nil =>
          cases hsplit
          exact ⟨rfl, hstride.done_of_late hreads hlate⟩
      | cons first newer =>
          obtain ⟨-, outcome, hdone⟩ := ih (List.cons.inj hsplit).2
          exact absurd (hcall.trans hdone) (hstride.not_done outcome)
  | rests _ _ ih => exact ih hsplit
  | wakes _ ih =>
      obtain ⟨hnone, outcome, hdone⟩ := ih hsplit
      exact ⟨hnone, outcome, by rw [hdone]; rfl⟩

theorem wait_eq (hcourse : Course deadline timeout passages call time) {passage : Passage R}
    (hpassage : passage ∈ passages) {wait : UInt64} (hwait : passage.wait? = some wait) :
    passage.Reads ∧ passage.time < deadline ∧
      wait.toNat = deadline.toNat - passage.time.toNat := by
  induction hcourse with
  | begins => cases hpassage
  | goes hcourse latest hcall hlater hstride ih =>
      rcases List.mem_cons.mp hpassage with rfl | hpassage
      · unfold Passage.wait? at hwait
        split at hwait
        next deadline' timeout' hparked =>
          cases hwait
          obtain ⟨hreads, hearly⟩ := hstride.early_of_parked hparked
          have htimed := hstride.timed (hcall ▸ hcourse.timed)
          rw [hparked] at htimed
          cases htimed
          exact ⟨hreads, hearly, UInt64.toNat_sub_of_le _ _ (UInt64.le_of_lt hearly)⟩
        next => cases hwait
      · exact ih hpassage
  | rests _ _ ih => exact ih hpassage
  | wakes _ ih => exact ih hpassage

theorem tally_timeouts (hcourse : Course deadline timeout passages call time) :
    tally Passage.timeouts passages = if call.timesOut then 1 else 0 := by
  induction hcourse with
  | begins => rfl
  | @goes passages _ _ _ latest hcall hlater hstride ih =>
      rw [← hcall, hstride.timesOut_eq_false] at ih
      rw [Tally.tally_cons, ih, Passage.timeouts, hstride.timeouts_eq]
      split
      next => rw [UInt64.add_comm, UInt64.add_sub_cancel]; rfl
      next => rw [UInt64.add_comm, UInt64.add_sub_cancel]; rfl
  | rests _ _ ih => exact ih
  | wakes _ ih => rw [ih, Call.timesOut_woken]

/-- A check that failed is followed by a reading of the clock, before the call seeks on. -/
theorem read_of_rejected (hcourse : Course deadline timeout passages call time)
    {newer older : List (Passage R)} {failed : Passage R}
    (hsplit : passages = newer ++ failed :: older) (hfailed : failed.move = .check false) :
    call.Rejecting (.until deadline timeout) ∨ (∃ outcome, call = .done outcome) ∨
      ∃ passage ∈ newer, passage.Reads ∧ passage.time < deadline := by
  induction hcourse generalizing newer with
  | begins => simp at hsplit
  | goes _ latest hcall hlater hstride ih =>
      cases newer with
      | nil =>
          cases hsplit
          exact .inl (hstride.rejecting_of_failure hfailed)
      | cons first newer =>
          obtain ⟨rfl, hrest⟩ := List.cons.inj hsplit
          rcases ih hrest with hrejecting | ⟨outcome, hdone⟩ | ⟨passage, hmem, hreads⟩
          · rcases hstride.of_rejecting (hcall ▸ hrejecting) with hrejecting | hdone | hreads
            · exact .inl hrejecting
            · exact .inr (.inl hdone)
            · exact .inr (.inr ⟨latest, List.mem_cons_self, hreads⟩)
          · exact absurd (hcall.trans hdone) (hstride.not_done outcome)
          · exact .inr (.inr ⟨passage, List.mem_cons_of_mem _ hmem, hreads⟩)
  | rests _ _ ih => exact ih hsplit
  | wakes _ ih =>
      rcases ih hsplit with hrejecting | ⟨outcome, hdone⟩ | hreads
      · exact .inl hrejecting.woken
      · exact .inr (.inl ⟨outcome, by rw [hdone]; rfl⟩)
      · exact .inr (.inr hreads)

theorem read_of_seeks (hcourse : Course deadline timeout passages call time)
    {newest between older : List (Passage R)} {passage failed : Passage R}
    (hsplit : passages = newest ++ passage :: (between ++ failed :: older))
    (hfailed : failed.move = .check false) (hseeks : passage.Seeks) :
    ∃ reading ∈ between, reading.Reads ∧ reading.time < deadline := by
  induction hcourse generalizing newest with
  | begins => simp at hsplit
  | goes hcourse latest hcall hlater hstride ih =>
      cases newest with
      | nil =>
          obtain ⟨rfl, hrest⟩ := List.cons.inj hsplit
          rcases hcourse.read_of_rejected hrest hfailed with hrejecting | ⟨outcome, hdone⟩ | hread
          · exact absurd (hcall ▸ hseeks) hrejecting.not_seeks
          · exact absurd (hcall.trans hdone) (hstride.not_done outcome)
          · exact hread
      | cons first newest => exact ih (List.cons.inj hsplit).2
  | rests _ _ ih => exact ih hsplit
  | wakes _ ih => exact ih hsplit

theorem times (hcourse : Course deadline timeout passages call time) :
    passages.Pairwise (fun newer older => older.time ≤ newer.time) ∧
      ∀ passage ∈ passages, passage.time ≤ time := by
  induction hcourse with
  | begins => exact ⟨List.Pairwise.nil, fun passage hmem => by cases hmem⟩
  | @goes passages _ _ _ latest hcall hlater hstride ih =>
      have hearlier : ∀ passage ∈ passages, passage.time ≤ latest.time :=
        fun passage hmem => UInt64.le_trans (ih.2 passage hmem) hlater
      refine ⟨List.pairwise_cons.mpr ⟨hearlier, ih.1⟩, ?_⟩
      intro passage hmem
      rcases List.mem_cons.mp hmem with rfl | hmem
      · exact UInt64.le_refl _
      · exact hearlier passage hmem
  | rests _ hlater ih =>
      exact ⟨ih.1, fun passage hmem => UInt64.le_trans (ih.2 passage hmem) hlater⟩
  | wakes _ ih => exact ih

/-- What fails its check at the deadline, or later, is the last that the call tries. -/
theorem not_seeks_of_late (hcourse : Course deadline timeout passages call time)
    {newer older : List (Passage R)} {failed : Passage R}
    (hsplit : passages = newer ++ failed :: older) (hfailed : failed.move = .check false)
    (hlate : deadline ≤ failed.time) : ∀ passage ∈ newer, ¬ passage.Seeks := by
  intro passage hmem hseeks
  obtain ⟨newest, between, rfl⟩ := List.append_of_mem hmem
  rw [List.append_assoc, List.cons_append] at hsplit
  obtain ⟨reading, hreading, -, hearly⟩ := hcourse.read_of_seeks hsplit hfailed hseeks
  -- The reading between the two comes after the check that failed late, so it is no earlier.
  have htimes := hcourse.times.1
  rw [hsplit, List.pairwise_append, List.pairwise_cons, List.pairwise_append] at htimes
  have hafter := htimes.2.1.2.2.2 reading hreading failed List.mem_cons_self
  exact absurd (UInt64.le_trans hlate hafter) (UInt64.not_le.mpr hearly)

theorem call_of_nil (hcourse : Course deadline timeout passages call time)
    (hnone : passages = []) : call = .seeking (.until deadline timeout) false := by
  induction hcourse with
  | begins => rfl
  | goes => cases hnone
  | rests _ _ ih => exact ih hnone
  | wakes _ ih => rw [ih hnone]; rfl

theorem assured_of_create (hcourse : Course deadline timeout passages call time)
    {newer : List (Passage R)} {first : Passage R} (hsplit : passages = newer ++ [first])
    (hcreate : first.pool.takeSlot.1 = .create) : call.Assured := by
  induction hcourse generalizing newer with
  | begins => simp at hsplit
  | goes hcourse latest hcall hlater hstride ih =>
      cases newer with
      | nil =>
          obtain ⟨rfl, hnone⟩ := List.cons.inj hsplit
          exact hstride.assured_of_create (hcall.trans (hcourse.call_of_nil hnone)) hcreate
      | cons last newer => exact hstride.assured (hcall ▸ ih (List.cons.inj hsplit).2)
  | rests _ _ ih => exact ih hsplit
  | wakes _ ih => exact (ih hsplit).woken

theorem assured_of_pooled (hcourse : Course deadline timeout passages call time)
    {newer : List (Passage R)} {first : Passage R} (hsplit : passages = newer ++ [first])
    {resource : R} (hpooled : first.pool.takeSlot.1 = .pooled resource)
    (hpasses : ∀ newest second, newer = newest ++ [second] → second.move ≠ .check false) :
    call.Assured ∨ newer = [] ∧ call = .checking (.until deadline timeout) resource := by
  induction hcourse generalizing newer with
  | begins => simp at hsplit
  | goes hcourse latest hcall hlater hstride ih =>
      cases newer with
      | nil =>
          obtain ⟨rfl, hnone⟩ := List.cons.inj hsplit
          have hseeking := hcall.trans (hcourse.call_of_nil hnone)
          exact .inr ⟨rfl, hstride.checking_of_pooled hseeking hpooled⟩
      | cons last newer =>
          obtain ⟨rfl, hrest⟩ := List.cons.inj hsplit
          have hearlier : ∀ newest second, newer = newest ++ [second] →
              second.move ≠ .check false :=
            fun newest second hnewer => hpasses (latest :: newest) second (by rw [hnewer]; rfl)
          rcases ih hrest hearlier with hassured | ⟨rfl, hchecking⟩
          · exact .inl (hstride.assured (hcall ▸ hassured))
          · exact .inl (hstride.assured_of_checked (hcall.trans hchecking) (hpasses [] latest rfl))
  | rests _ _ ih => exact ih hsplit hpasses
  | wakes _ ih =>
      rcases ih hsplit hpasses with hassured | ⟨hnone, hchecking⟩
      · exact .inl hassured.woken
      · exact .inr ⟨hnone, by rw [hchecking]; rfl⟩

end Course

/-- Where a caller's call is after an event: further on if the event is its own, and woken or not in
any case. -/
theorem System.Stepped.call_after {before after : System R} {event : Event R}
    {caller old : Caller R} {advanced : Call.Advanced R}
    (hstepped : Stepped before event after caller advanced) {index : Nat}
    (hold : before.callers[index]? = some old) {next : Call R}
    (hnext : next = if event.caller = index then advanced.call else old.call) :
    after.callers[index]?.map Caller.call = some next ∨
      after.callers[index]?.map Caller.call = some next.woken := by
  obtain ⟨mid, hmid, hcall⟩ : ∃ mid,
      mid = (if event.caller = index then caller.follow event.move advanced.call else old) ∧
        mid.call = next := by
    refine ⟨_, rfl, ?_⟩
    rw [hnext, apply_ite Caller.call]
    rfl
  rw [← hcall]
  rcases Waking.getElem?_awake hstepped.caller_at hstepped.waking hold hmid with hsame | hwoken
  · exact .inl (by rw [hsame]; rfl)
  · exact .inr (by rw [hwoken]; rfl)

/-- What happens next, and when. -/
structure Dated (R : Type) where
  time : Reading
  event : Event R
  deriving DecidableEq

/-- A system in which one call of a caller is watched from its beginning. -/
structure Watch (R : Type) where
  system : System R
  index : Nat
  time : Reading
  /-- The moves of the call, newest first. -/
  passages : List (Passage R) := []

namespace Watch

/-- The caller of the given number begins a call for a resource within a time. -/
def begin? (system : System R) (index : Nat) (timeout : Duration) (now : Reading) :
    Option (Watch R) := do
  let system ← system.step? ⟨index, .begin (.acquireWithin timeout) now, 0⟩
  some { system, index, time := now }

def step? (watch : Watch R) (dated : Dated R) : Option (Watch R) := do
  let caller ← watch.system.callers[dated.event.caller]?
  let advanced ← dated.event.move.perform? caller.call watch.system.pool
  let system ← watch.system.step? dated.event
  some {
    system
    index := watch.index
    time := dated.time
    passages :=
      if dated.event.caller = watch.index then
        ⟨dated.time, dated.event.move, caller.call, watch.system.pool, advanced⟩ :: watch.passages
      else watch.passages }

/-- The time never goes back, a section that reads the clock reads what time it is, and the caller
that is watched begins nothing new. -/
def inOrder (watch : Watch R) (dated : Dated R) : Bool :=
  watch.time ≤ dated.time &&
    match dated.event.move with
    | .turn now => now = dated.time
    | .begin _ _ => dated.event.caller ≠ watch.index
    | _ => true

abbrev Reaches : Watch R → Watch R → Prop := Runs.Reaches step? inOrder

abbrev run? : List (Dated R) → Watch R → Option (Watch R) := Runs.run? step? inOrder

/-- Where the call is that is watched. -/
def call? (watch : Watch R) : Option (Call R) :=
  watch.system.callers[watch.index]?.map Caller.call

/-- What is told of the call that is watched is its course. -/
def Follows (deadline : Reading) (timeout : Duration) (watch : Watch R) : Prop :=
  ∃ call, watch.call? = some call ∧ Course deadline timeout watch.passages call watch.time

variable {deadline : Reading} {timeout : Duration}

theorem follows_of_begin? {system : System R} {index : Nat} {now : Reading} {watch : Watch R}
    (hbegin : begin? system index timeout now = some watch) :
    watch.Follows (now.after timeout.millis) timeout := by
  simp only [begin?, Option.bind_eq_bind, Option.bind_eq_some_iff, Option.some.injEq] at hbegin
  obtain ⟨after, hstep, rfl⟩ := hbegin
  obtain ⟨caller, advanced, hstepped⟩ := System.stepped_of_step? hstep
  have hcall : advanced.call = .acquireWithin timeout now := by
    have hperformed := hstepped.performed
    cases hneed : caller.call.need with
    | done outcome =>
        simp only [Move.perform?, hneed, Option.some.injEq] at hperformed
        rw [← hperformed]
        rfl
    | _ => simp [Move.perform?, hneed] at hperformed
  rcases hstepped.call_after hstepped.caller_at (if_pos rfl).symm with hsame | hwoken
  · exact ⟨_, hsame, hcall ▸ .begins now⟩
  · exact ⟨_, hwoken, hcall ▸ .begins now⟩

theorem Follows.step {watch next : Watch R} {dated : Dated R}
    (hfollows : watch.Follows deadline timeout) (hlaw : watch.inOrder dated = true)
    (hstep : watch.step? dated = some next) : next.Follows deadline timeout := by
  obtain ⟨call, hcall, hcourse⟩ := hfollows
  obtain ⟨old, hold, rfl⟩ := Option.map_eq_some_iff.mp hcall
  simp only [step?, Option.bind_eq_bind, Option.bind_eq_some_iff, Option.some.injEq] at hstep
  obtain ⟨caller, hcaller, advanced, hperformed, after, hafter, rfl⟩ := hstep
  obtain ⟨caller', advanced', hstepped⟩ := System.stepped_of_step? hafter
  obtain rfl : caller' = caller := Option.some.inj (hstepped.caller_at.symm.trans hcaller)
  obtain rfl : advanced' = advanced := Option.some.inj (hstepped.performed.symm.trans hperformed)
  obtain ⟨hlater, hlaw⟩ := Bool.and_eq_true_iff.mp hlaw
  have hlater := of_decide_eq_true hlater
  by_cases hown : dated.event.caller = watch.index
  · have hsame : caller' = old := by
      rw [hown, hold] at hcaller
      exact (Option.some.inj hcaller).symm
    subst hsame
    have hstride : Stride deadline timeout dated.time dated.event.move caller'.call
        watch.system.pool advanced' := by
      refine stride_of_perform? hcourse.timed ?_ ?_ hperformed
      · intro request now hbegin
        simp [hbegin, hown] at hlaw
      · intro now hturn
        simpa [hturn] using hlaw
    have hgoes := hcourse.goes ⟨dated.time, dated.event.move, caller'.call, watch.system.pool,
      advanced'⟩ rfl hlater hstride
    have hnext : advanced'.call = if dated.event.caller = watch.index then advanced'.call
        else caller'.call := (if_pos hown).symm
    rcases hstepped.call_after hold hnext with hplace | hplace
    · exact ⟨_, hplace, by simpa only [if_pos hown] using hgoes⟩
    · exact ⟨_, hplace, by simpa only [if_pos hown] using hgoes.wakes⟩
  · have hrests := hcourse.rests hlater
    have hnext : old.call = if dated.event.caller = watch.index then advanced'.call
        else old.call := (if_neg hown).symm
    rcases hstepped.call_after hold hnext with hplace | hplace
    · exact ⟨_, hplace, by simpa only [if_neg hown] using hrests⟩
    · exact ⟨_, hplace, by simpa only [if_neg hown] using hrests.wakes⟩

theorem Reaches.follows {watch later : Watch R} (hreaches : Reaches watch later)
    (hfollows : watch.Follows deadline timeout) : later.Follows deadline timeout :=
  hreaches.invariant (Follows deadline timeout) hfollows Follows.step

/-- What is told of a call that wants a resource within a time, wherever it is. -/
structure Punctual (now : Reading) (timeout : Duration) (deadline : Reading) (watch : Watch R) :
    Prop where
  deadline_eq : deadline.toNat = min (now.toNat + timeout.nanos / 1000000) (UInt64.size - 1)
  late_of_timeout : ∀ timeout', watch.call? = some (.done (.failed (.timeout timeout'))) →
    timeout' = timeout ∧ ∃ passage older, watch.passages = passage :: older ∧ passage.Reads ∧
      deadline ≤ passage.time
  done_of_late : ∀ newer passage older, watch.passages = newer ++ passage :: older →
    passage.Reads → deadline ≤ passage.time →
      newer = [] ∧ ∃ outcome, watch.call? = some (.done outcome)
  read_of_seeks : ∀ newest passage between failed older,
    watch.passages = newest ++ passage :: (between ++ failed :: older) →
      failed.move = .check false → passage.Seeks →
        ∃ reading ∈ between, reading.Reads ∧ reading.time < deadline
  not_seeks_of_late : ∀ newer failed older, watch.passages = newer ++ failed :: older →
    failed.move = .check false → deadline ≤ failed.time → ∀ passage ∈ newer, ¬ passage.Seeks
  wait_eq : ∀ passage ∈ watch.passages, ∀ wait, passage.wait? = some wait →
    passage.Reads ∧ passage.time < deadline ∧
      wait.toNat = deadline.toNat - passage.time.toNat
  tally_timeouts : ∀ call, watch.call? = some call →
    tally Passage.timeouts watch.passages = if call.timesOut then 1 else 0
  assured_of_room : ∀ newer first, watch.passages = newer ++ [first] →
    first.pool.closed = false → first.pool.available = [] →
      first.pool.size + first.pool.creating < first.pool.maxCapacity →
        ∀ timeout', watch.call? ≠ some (.done (.failed (.timeout timeout')))
  assured_of_healthy : ∀ newer first resource rest, watch.passages = newer ++ [first] →
    first.pool.closed = false →
      Pool.choose? first.pool.selection first.pool.available = some (resource, rest) →
        (∀ newest second, newer = newest ++ [second] → second.move ≠ .check false) →
          ∀ timeout', watch.call? ≠ some (.done (.failed (.timeout timeout')))

/-- However a call goes that wants a resource within a time, and whatever happens in between: it
keeps to its deadline. -/
theorem punctual_of_reaches {system : System R} {index : Nat} {timeout : Duration} {now : Reading}
    {watch later : Watch R} (hbegin : begin? system index timeout now = some watch)
    (hreaches : Reaches watch later) :
    later.Punctual now timeout (now.after timeout.millis) := by
  obtain ⟨call, hcall, hcourse⟩ := hreaches.follows (follows_of_begin? hbegin)
  have hend {call' : Call R} (hcall' : later.call? = some call') : call = call' :=
    Option.some.inj (hcall.symm.trans hcall')
  constructor
  case deadline_eq =>
    rw [Reading.toNat_after, Duration.toNat_millis]
    omega
  case late_of_timeout => exact fun timeout' htimeout => hcourse.late_of_timeout (hend htimeout)
  case done_of_late =>
    intro newer passage older hsplit hreads hlate
    obtain ⟨hnone, outcome, hdone⟩ := hcourse.done_of_late hsplit hreads hlate
    exact ⟨hnone, outcome, hdone ▸ hcall⟩
  case read_of_seeks => exact fun _ _ _ _ _ hsplit => hcourse.read_of_seeks hsplit
  case not_seeks_of_late => exact fun _ _ _ hsplit => hcourse.not_seeks_of_late hsplit
  case wait_eq => exact fun passage hmem wait => hcourse.wait_eq hmem
  case tally_timeouts => exact fun call' hcall' => hend hcall' ▸ hcourse.tally_timeouts
  case assured_of_room =>
    intro newer first hsplit hopen hnone hroom timeout' htimeout
    have hcreate := congrArg Prod.fst (Pool.takeSlot_of_room hopen hnone hroom)
    have hassured := hcourse.assured_of_create hsplit hcreate
    rw [hend htimeout] at hassured
    cases hassured
  case assured_of_healthy =>
    intro newer first resource rest hsplit hopen hchoose hpasses timeout' htimeout
    have hpooled := congrArg Prod.fst (Pool.takeSlot_of_choose? hopen hchoose)
    rcases hcourse.assured_of_pooled hsplit hpooled hpasses with hassured | ⟨-, hchecking⟩
    · rw [hend htimeout] at hassured
      cases hassured
    · cases (hend htimeout).symm.trans hchecking

/-- A caller has two resources made and gives one back. -/
def oneBack : List (Event Nat) :=
  [⟨0, .begin .acquire 0, 0⟩, ⟨0, .turn 0, 0⟩, ⟨0, .make (.ok 1), 0⟩, ⟨0, .turn 0, 0⟩,
    ⟨0, .begin .acquire 0, 0⟩, ⟨0, .turn 0, 0⟩, ⟨0, .make (.ok 2), 0⟩, ⟨0, .turn 0, 0⟩,
    ⟨0, .begin (.release 2) 0, 0⟩, ⟨0, .turn 0, 0⟩]

/-- The check fails that a caller within a minute has of what is there, somebody else takes its
place, and the caller goes to sleep. It is woken long after its deadline. -/
def wokenLate : List (Dated Nat) :=
  [⟨0, 1, .turn 0, 0⟩, ⟨0, 1, .check false, 0⟩, ⟨0, 1, .turn 0, 0⟩,
    ⟨0, 2, .begin .tryAcquire 0, 0⟩, ⟨0, 2, .turn 0, 0⟩, ⟨0, 2, .make (.ok 3), 0⟩,
    ⟨0, 2, .turn 0, 0⟩, ⟨0, 1, .dispose, 0⟩, ⟨0, 1, .turn 0, 0⟩, ⟨0, 1, .turn 0, 0⟩,
    ⟨100000, 0, .begin (.release 1) 100000, 0⟩, ⟨100000, 0, .turn 100000, 1⟩,
    ⟨100000, 1, .turn 100000, 0⟩, ⟨100000, 1, .check true, 0⟩]

/-- A check failed before the call polls and checks once more, and the time of that is past its
deadline. -/
theorem seeks_of_wokenLate : ∃ (system : System Nat) (watch later : Watch Nat),
    System.run? System.anyhow oneBack (System.start { maxCapacity := 2 } .silent 3) = some system ∧
      begin? system 1 (.ofMillis 60000) 0 = some watch ∧ run? wokenLate watch = some later ∧
      ∃ newest passage between failed older,
        later.passages = newest ++ passage :: (between ++ failed :: older) ∧
          failed.move = .check false ∧ passage.Seeks ∧
          Reading.after 0 (Duration.ofMillis 60000).millis ≤ passage.time := by
  have hruns : ((System.run? System.anyhow oneBack
      (System.start { maxCapacity := 2 } .silent 3)).bind fun system =>
        (begin? system 1 (.ofMillis 60000) 0).bind fun watch =>
          (run? wokenLate watch).map fun later =>
            later.passages.map fun passage => (passage.time, passage.move, decide passage.Seeks)) =
      some [(100000, .check true, true), (100000, .turn 100000, true), (0, .turn 0, true),
        (0, .turn 0, false), (0, .dispose, false), (0, .turn 0, false), (0, .check false, true),
        (0, .turn 0, true)] := by decide
  obtain ⟨system, hsystem, hruns⟩ := Option.bind_eq_some_iff.mp hruns
  obtain ⟨watch, hwatch, hruns⟩ := Option.bind_eq_some_iff.mp hruns
  obtain ⟨later, hlater, hshown⟩ := Option.map_eq_some_iff.mp hruns
  simp only [List.map_eq_cons_iff, List.map_eq_nil_iff, Prod.mk.injEq] at hshown
  obtain ⟨checks, _, hpassages, ⟨htime, -, hseeks⟩, polls, _, rfl, -, waits, _, rfl, -, reads, _,
    rfl, -, disposes, _, rfl, -, forgets, _, rfl, -, fails, _, rfl, ⟨-, hfails, -⟩, first, _, rfl,
    -, rfl⟩ := hshown
  refine ⟨system, watch, later, hsystem, hwatch, hlater, [], checks,
    [polls, waits, reads, disposes, forgets], fails, [first], hpassages, hfails,
    of_decide_eq_true hseeks, ?_⟩
  rw [htime]
  decide

/-- A check fails, and what failed it is so long in closing that the deadline passes. -/
def closedLate : List (Dated Nat) :=
  [⟨0, 1, .turn 0, 0⟩, ⟨10, 1, .check false, 0⟩, ⟨10, 1, .turn 10, 0⟩, ⟨60, 1, .dispose, 0⟩,
    ⟨60, 1, .turn 60, 0⟩]

theorem punctual_of_closedLate : ∃ (system : System Nat) (watch later : Watch Nat),
    System.run? System.anyhow oneBack (System.start { maxCapacity := 2 } .silent 3) = some system ∧
      begin? system 1 (.ofMillis 50) 0 = some watch ∧ run? closedLate watch = some later ∧
      later.call? = some (.done (.failed (.timeout (.ofMillis 50)))) ∧
      tally Passage.timeouts later.passages = 1 ∧
      later.Punctual 0 (.ofMillis 50) (Reading.after 0 (Duration.ofMillis 50).millis) := by
  have hruns : ((System.run? System.anyhow oneBack
      (System.start { maxCapacity := 2 } .silent 3)).bind fun system =>
        (begin? system 1 (.ofMillis 50) 0).bind fun watch => (run? closedLate watch).map call?) =
      some (some (.done (.failed (.timeout (.ofMillis 50))))) := by decide
  obtain ⟨system, hsystem, hruns⟩ := Option.bind_eq_some_iff.mp hruns
  obtain ⟨watch, hwatch, hruns⟩ := Option.bind_eq_some_iff.mp hruns
  obtain ⟨later, hlater, hcall⟩ := Option.map_eq_some_iff.mp hruns
  have hpunctual := punctual_of_reaches hwatch (Runs.reaches_of_run? hlater)
  exact ⟨system, watch, later, hsystem, hwatch, hlater, hcall, hpunctual.tally_timeouts _ hcall,
    hpunctual⟩

end Watch

end Pooling.Elastic
