import Pooling.Proofs.Elastic.Settled
import Pooling.Proofs.Fixed.Solo

/-!
Where both kinds of pool can do the same, they do: an elastic pool that hands out what has been idle
longest, and never lets a resource expire, is seen to be a fixed pool by a caller that is alone.
-/

namespace Pooling

variable {R : Type} [DecidableEq R]

/-- A fixed pool keeps in its queue what an elastic pool has available, the other way round. -/
structure Twinned (script : Script R) (maxCapacity : UInt64) (solo : Solo (Elastic.Pool R) R)
    (other : Solo (Fixed.Pool R) R) : Prop where
  settled : Elastic.Settled script solo.pool solo.held solo.asked
  fifo : solo.pool.selection = .fifo
  never : solo.pool.expiry = .never
  elastic_max : solo.pool.maxCapacity = maxCapacity.toNat
  fixed_max : other.pool.maxCapacity = maxCapacity.toNat
  queue_eq : other.pool.queue = solo.pool.available.reverse
  size_eq : other.pool.size = solo.pool.size
  closed_eq : other.pool.closed = solo.pool.closed
  totals_eq : other.pool.totals = solo.pool.totals
  held_eq : other.held = solo.held
  asked_eq : other.asked = solo.asked
  disposed_perm : other.disposed.Perm solo.disposed

/-- Two calls come to the same outcome, and leave the pools alike. -/
def Agree (script : Script R) (maxCapacity : UInt64)
    (first : Part (Outcome R × Solo (Elastic.Pool R) R))
    (second : Part (Outcome R × Solo (Fixed.Pool R) R)) : Prop :=
  ∃ outcome later follower, first = Part.some (outcome, later) ∧
    second = Part.some (outcome, follower) ∧ Twinned script maxCapacity later follower

namespace Twinned

variable {script : Script R} {maxCapacity : UInt64} {solo : Solo (Elastic.Pool R) R}
  {other : Solo (Fixed.Pool R) R}

theorem view_eq (halike : Twinned script maxCapacity solo other) (answer? : Option (Outcome R)) :
    Fixed.Call.workings.view other answer? = Elastic.Call.workings.view solo answer? := by
  have hdisposed : (other.disposed : Multiset R) = solo.disposed :=
    Multiset.coe_eq_coe.mpr halike.disposed_perm
  simp [Workings.view, Fixed.Call.workings, Elastic.Call.workings, halike.size_eq, halike.queue_eq,
    halike.totals_eq, hdisposed]

theorem queue_of_available (halike : Twinned script maxCapacity solo other)
    (hnone : solo.pool.available = []) : other.pool.queue = [] := by
  rw [halike.queue_eq, hnone]
  rfl

theorem room_iff (halike : Twinned script maxCapacity solo other) :
    other.pool.size < other.pool.maxCapacity ↔
      solo.pool.size + solo.pool.creating < solo.pool.maxCapacity := by
  rw [halike.fixed_max, halike.elastic_max, halike.size_eq, halike.settled.nothing_reserved]
  rfl

theorem full_of_full (halike : Twinned script maxCapacity solo other)
    (hfull : solo.pool.maxCapacity ≤ solo.pool.size + solo.pool.creating) :
    other.pool.maxCapacity ≤ other.pool.size :=
  Nat.not_lt.mp (halike.room_iff.not.mpr (Nat.not_lt.mpr hfull))

variable {clock : Clock Reading} {watch : Clock Moment} {looks glances : Nat}

section Acquiring

variable {patience : Elastic.Patience} {endurance : Fixed.Patience}

theorem acquire_closed (halike : Twinned script maxCapacity solo other)
    (hclosed : solo.pool.closed = true) :
    Agree script maxCapacity
      (Elastic.Call.workings.finish script clock ⟨solo, .seeking patience false, looks⟩)
      (Fixed.Call.workings.finish script watch ⟨other, .opening endurance, glances⟩) :=
  ⟨_, _, _, Elastic.Call.seeking_closed hclosed,
    Fixed.Call.opening_closed (halike.closed_eq.trans hclosed), halike⟩

theorem acquire_pooled (halike : Twinned script maxCapacity solo other)
    (hopen : solo.pool.closed = false) {resource : R} {rest : List R}
    (hchoose : Elastic.Pool.choose? solo.pool.selection solo.pool.available =
      some (resource, rest)) :
    Agree script maxCapacity
      (Elastic.Call.workings.finish script clock ⟨solo, .seeking patience false, looks⟩)
      (Fixed.Call.workings.finish script watch ⟨other, .opening endurance, glances⟩) := by
  have hqueue : other.pool.queue = resource :: rest.reverse := by
    rw [halike.fifo] at hchoose
    rw [halike.queue_eq, Elastic.Pool.available_of_choose? hchoose, List.reverse_concat]
  refine ⟨_, _, _, Elastic.Call.seeking_pooled hopen hchoose,
    Fixed.Call.opening_popped (halike.closed_eq.trans hopen) hqueue, ?_⟩
  exact {
    settled := (halike.settled.pooled hopen hchoose).record .countAcquired
    fifo := halike.fifo
    never := halike.never
    elastic_max := halike.elastic_max
    fixed_max := halike.fixed_max
    queue_eq := rfl
    size_eq := halike.size_eq.trans (Elastic.Pool.size_checkOut solo.pool resource rest).symm
    closed_eq := halike.closed_eq
    totals_eq := congrArg Totals.countAcquired halike.totals_eq
    held_eq := congrArg (resource :: ·) halike.held_eq
    asked_eq := halike.asked_eq
    disposed_perm := halike.disposed_perm }

theorem acquire_room (halike : Twinned script maxCapacity solo other)
    (hopen : solo.pool.closed = false) (hnone : solo.pool.available = [])
    (hroom : solo.pool.size + solo.pool.creating < solo.pool.maxCapacity) :
    Agree script maxCapacity
      (Elastic.Call.workings.finish script clock ⟨solo, .seeking patience false, looks⟩)
      (Fixed.Call.workings.finish script watch ⟨other, .opening endurance, glances⟩) := by
  have hfixed : other.pool.closed = false := halike.closed_eq.trans hopen
  have hqueue := halike.queue_of_available hnone
  have hless := halike.room_iff.mpr hroom
  cases hanswer : script.answer solo.asked with
  | failed source =>
      have hsame : script.answer other.asked = .failed source := halike.asked_eq ▸ hanswer
      refine ⟨_, _, _, Elastic.Call.seeking_failed hopen hnone hroom hanswer,
        Fixed.Call.opening_failed hfixed hqueue hless hsame, ?_⟩
      exact { halike with
        settled := halike.settled.failed
        asked_eq := congrArg (· + 1) halike.asked_eq }
  | ok resource =>
      have hsame : script.answer other.asked = .ok resource := halike.asked_eq ▸ hanswer
      have hnew := halike.settled.unmade (Nat.le_refl _) hanswer
      have habsent : solo.pool.tracked.contains resource = false := by
        rw [Elastic.Pool.contains_eq_isSome, hnew]
        rfl
      refine ⟨_, _, _, Elastic.Call.seeking_made hopen hnone hroom hanswer habsent,
        Fixed.Call.opening_made hfixed hqueue hless hsame, ?_⟩
      exact {
        settled := halike.settled.made hroom hanswer _
        fifo := halike.fifo
        never := halike.never
        elastic_max := halike.elastic_max
        fixed_max := halike.fixed_max
        queue_eq := halike.queue_eq
        size_eq := by
          rw [Elastic.Pool.size_track _ hnew, ← halike.size_eq]
          exact Fixed.Pool.size_reserve hless (halike.fixed_max ▸ maxCapacity.toNat_lt)
        closed_eq := halike.closed_eq
        totals_eq := congrArg (fun totals => totals.countCreated.countAcquired) halike.totals_eq
        held_eq := congrArg (resource :: ·) halike.held_eq
        asked_eq := congrArg (· + 1) halike.asked_eq
        disposed_perm := halike.disposed_perm }

/-- Unless the pools are open and full, how long the callers would wait makes no difference. -/
theorem acquire (halike : Twinned script maxCapacity solo other)
    (hfull : solo.pool.closed = false → solo.pool.available = [] →
      solo.pool.maxCapacity ≤ solo.pool.size + solo.pool.creating →
      Agree script maxCapacity
        (Elastic.Call.workings.finish script clock ⟨solo, .seeking patience false, looks⟩)
        (Fixed.Call.workings.finish script watch ⟨other, .opening endurance, glances⟩)) :
    Agree script maxCapacity
      (Elastic.Call.workings.finish script clock ⟨solo, .seeking patience false, looks⟩)
      (Fixed.Call.workings.finish script watch ⟨other, .opening endurance, glances⟩) := by
  cases hclosed : solo.pool.closed with
  | true => exact halike.acquire_closed hclosed
  | false =>
      cases hchoose : Elastic.Pool.choose? solo.pool.selection solo.pool.available with
      | some chosen => exact halike.acquire_pooled hclosed hchoose
      | none =>
          have hnone := Elastic.Pool.choose?_eq_none hchoose
          rcases Nat.lt_or_ge (solo.pool.size + solo.pool.creating) solo.pool.maxCapacity with
            hroom | hge
          · exact halike.acquire_room hclosed hnone hroom
          · exact hfull hclosed hnone hge

end Acquiring

theorem tryAcquire (halike : Twinned script maxCapacity solo other) :
    Agree script maxCapacity
      (Elastic.Call.workings.finish script clock ⟨solo, .seeking .never false, looks⟩)
      (Fixed.Call.workings.finish script watch ⟨other, .opening .never, glances⟩) := by
  apply halike.acquire
  intro hopen hnone hfull
  exact ⟨_, _, _, Elastic.Call.seeking_full hopen hnone hfull,
    Fixed.Call.opening_full (halike.closed_eq.trans hopen) (halike.queue_of_available hnone)
      (halike.full_of_full hfull), halike⟩

/-- Both give up at once, as no time has to pass for a deadline that is now. -/
theorem acquireUntil (halike : Twinned script maxCapacity solo other) {deadline : Reading}
    {moment : Moment} (timeout : Duration) (hdeadline : deadline ≤ clock.tells solo.calls looks)
    (hmoment : moment ≤ watch.tells other.calls (glances + 7)) :
    Agree script maxCapacity
      (Elastic.Call.workings.finish script clock
        ⟨solo, .seeking (.until deadline timeout) false, looks⟩)
      (Fixed.Call.workings.finish script watch
        ⟨other, .opening (.until moment timeout), glances⟩) := by
  apply halike.acquire
  intro hopen hnone hfull
  refine ⟨_, _, _, Elastic.Call.seeking_late hopen hnone hfull hdeadline,
    Fixed.Call.opening_late (halike.closed_eq.trans hopen) (halike.queue_of_available hnone)
      (halike.full_of_full hfull) hmoment, ?_⟩
  exact { halike with
    settled := halike.settled.record .countTimeout
    totals_eq := congrArg Totals.countTimeout halike.totals_eq }

section Releasing

variable {resource : R} {reading : Reading} {calls turns : Nat}

theorem release_open (halike : Twinned script maxCapacity solo other)
    (hopen : solo.pool.closed = false) (hheld : resource ∈ solo.held) :
    Agree script maxCapacity
      (Elastic.Call.workings.finish script clock
        ⟨{ solo with held := solo.held.erase resource, calls }, .returning resource reading, looks⟩)
      (Fixed.Call.workings.finish script watch
        ⟨{ other with held := other.held.erase resource, calls := turns }, .returning resource,
          glances⟩) := by
  have hout := halike.settled.checkedOut_of_held hheld
  refine ⟨_, _, _, Elastic.Call.returning_open hout hopen,
    Fixed.Call.returning_open (by exact halike.closed_eq.trans hopen) resource, ?_⟩
  exact {
    settled := halike.settled.returned hopen hheld reading
    fifo := halike.fifo
    never := halike.never
    elastic_max := halike.elastic_max
    fixed_max := halike.fixed_max
    queue_eq := by
      rw [List.reverse_cons, ← halike.queue_eq]
      rfl
    size_eq := halike.size_eq.trans (Elastic.Pool.size_markReturned _ resource reading).symm
    closed_eq := halike.closed_eq
    totals_eq := congrArg Totals.countReleased halike.totals_eq
    held_eq := congrArg (List.erase · resource) halike.held_eq
    asked_eq := halike.asked_eq
    disposed_perm := halike.disposed_perm }

theorem release_closed (halike : Twinned script maxCapacity solo other)
    (hclosed : solo.pool.closed = true) (hheld : resource ∈ solo.held) :
    Agree script maxCapacity
      (Elastic.Call.workings.finish script clock
        ⟨{ solo with held := solo.held.erase resource, calls }, .returning resource reading, looks⟩)
      (Fixed.Call.workings.finish script watch
        ⟨{ other with held := other.held.erase resource, calls := turns }, .returning resource,
          glances⟩) := by
  have hout := halike.settled.checkedOut_of_held hheld
  have hmarked : ((solo.pool.markReturned resource reading).checkedOut? resource).isSome := by
    rw [Elastic.Pool.checkedOut?_markReturned, if_pos rfl, hout]
    rfl
  have hkeys : (solo.pool.markReturned resource reading).tracked.keys.Nodup := by
    show (solo.pool.tracked.modify resource _).keys.Nodup
    rw [Table.keys_modify]
    exact halike.settled.within.nodup_keys
  have helastic := Elastic.Pool.size_untrack hkeys hmarked
  rw [Elastic.Pool.size_markReturned, ← halike.size_eq] at helastic
  have hslot : 0 < (other.pool.record .countReleased).size := by
    show 0 < other.pool.size
    omega
  have hfixed : (other.pool.record .countReleased).giveUpSlot.size + 1 = other.pool.size :=
    Fixed.Pool.size_giveUpSlot hslot
  refine ⟨_, _, _, Elastic.Call.returning_closed hout hclosed,
    Fixed.Call.returning_closed (by exact halike.closed_eq.trans hclosed) resource, ?_⟩
  exact {
    settled := halike.settled.returnedLate hclosed resource reading
    fifo := halike.fifo
    never := halike.never
    elastic_max := halike.elastic_max
    fixed_max := halike.fixed_max
    queue_eq := halike.queue_eq
    size_eq := Nat.succ.inj (hfixed.trans helastic.symm)
    closed_eq := halike.closed_eq
    totals_eq := congrArg Totals.countReleased halike.totals_eq
    held_eq := congrArg (List.erase · resource) halike.held_eq
    asked_eq := halike.asked_eq
    disposed_perm := halike.disposed_perm.append_right [resource] }

end Releasing

theorem close_open (halike : Twinned script maxCapacity solo other)
    (hopen : solo.pool.closed = false) :
    Agree script maxCapacity
      (Elastic.Call.workings.finish script clock ⟨solo, .shutting, looks⟩)
      (Fixed.Call.workings.finish script watch ⟨other, .entering .shutting, glances⟩) := by
  have hconsistent := halike.settled.consistent
  have hle := hconsistent.available_length_le
  have hlength : other.pool.markClosed.queue.length = solo.pool.available.length := by
    show other.pool.queue.length = _
    rw [halike.queue_eq, List.length_reverse]
  have hsize : other.pool.markClosed.size = solo.pool.size := halike.size_eq
  have hleft : (solo.pool.available.foldl Elastic.Pool.untrack
      { solo.pool with closed := true, available := [] }).size + solo.pool.available.length =
        solo.pool.size := by
    refine Elastic.Pool.size_foldl_untrack halike.settled.within.nodup_keys
      hconsistent.nodup_available fun resource hmem => ?_
    have hidle := (hconsistent.mem_available_iff resource).mp hmem
    exact Option.isSome_iff_exists.mpr ⟨_, hidle⟩
  refine ⟨_, _, _, Elastic.Call.shutting_open hopen hle,
    Fixed.Call.shutting_open (halike.closed_eq.trans hopen), ?_⟩
  refine {
    settled := halike.settled.shut
    fifo := ?_, never := ?_, elastic_max := ?_
    fixed_max := halike.fixed_max
    queue_eq := ?_
    size_eq := ?size
    closed_eq := ?_, totals_eq := ?_
    held_eq := halike.held_eq
    asked_eq := halike.asked_eq
    disposed_perm := ?disposed }
  case size =>
    rw [Fixed.Pool.size_emptied (by omega), hsize, hlength]
    exact Nat.sub_eq_of_eq_add hleft.symm
  case disposed =>
    rw [halike.queue_eq]
    exact halike.disposed_perm.append (List.reverse_perm _)
  all_goals rw [Elastic.Pool.foldl_untrack_eq]
  · exact halike.fifo
  · exact halike.never
  · exact halike.elastic_max
  · rfl
  · rfl
  · exact halike.totals_eq

theorem close (halike : Twinned script maxCapacity solo other) :
    Agree script maxCapacity
      (Elastic.Call.workings.finish script clock ⟨solo, .shutting, looks⟩)
      (Fixed.Call.workings.finish script watch ⟨other, .entering .shutting, glances⟩) := by
  cases hclosed : solo.pool.closed with
  | true =>
      exact ⟨_, _, _, Elastic.Call.shutting_closed hclosed,
        Fixed.Call.shutting_closed (halike.closed_eq.trans hclosed), halike⟩
  | false => exact halike.close_open hclosed

/-- However often the two have been called before. -/
theorem recalled (halike : Twinned script maxCapacity solo other) (calls turns : Nat) :
    Twinned script maxCapacity { solo with calls } { other with calls := turns } :=
  { halike with }

theorem ask_of_agree (halike : Twinned script maxCapacity solo other) {asked : Ask R}
    {call : Elastic.Call R} {matching : Fixed.Call R} (hfits : asked.fits solo.held = true)
    (hcall : Elastic.Call.workings.call? asked (clock.tells (solo.calls + 1) 0) = some call)
    (hmatching : Fixed.Call.workings.call? asked (watch.tells (other.calls + 1) 0) = some matching)
    (hagree : Agree script maxCapacity
      (Elastic.Call.workings.finish script clock
        ⟨{ solo with held := asked.leaves solo.held, calls := solo.calls + 1 }, call, 1⟩)
      (Fixed.Call.workings.finish script watch
        ⟨{ other with held := asked.leaves other.held, calls := other.calls + 1 }, matching, 1⟩)) :
    ∃ view later follower,
      Elastic.Call.workings.ask script clock asked solo = Part.some (view, later) ∧
        Fixed.Call.workings.ask script watch asked other = Part.some (view, follower) ∧
          Twinned script maxCapacity later follower := by
  obtain ⟨outcome, later, follower, hfirst, hsecond, hlater⟩ := hagree
  have hother : asked.fits other.held = true := halike.held_eq ▸ hfits
  refine ⟨_, later, follower, Workings.ask_eq hcall hfits hfirst, ?_, hlater⟩
  rw [Workings.ask_eq hmatching hother hsecond, hlater.view_eq]

/-- What both are asked keeps them alike, and is seen to come to the same. -/
theorem ask (halike : Twinned script maxCapacity solo other)
    (hwatch : ∀ call look, watch.tells call look ≤ Moment.last) (asked : Ask R) :
    ∃ view later follower,
      Elastic.Call.workings.ask script clock asked solo = Part.some (view, later) ∧
        Fixed.Call.workings.ask script watch asked other = Part.some (view, follower) ∧
          Twinned script maxCapacity later follower := by
  cases hfits : asked.fits solo.held with
  | false =>
      have hother : asked.fits other.held = false := halike.held_eq ▸ hfits
      refine ⟨_, solo, other, Workings.ask_unfit hfits, ?_, halike⟩
      rw [Workings.ask_unfit hother, halike.view_eq]
  | true =>
      have hrecalled := halike.recalled (solo.calls + 1) (other.calls + 1)
      cases asked with
      | tryAcquire => exact halike.ask_of_agree hfits rfl rfl hrecalled.tryAcquire
      | acquireNow =>
          refine halike.ask_of_agree hfits rfl
            (congrArg some (Fixed.Call.acquireWithin_zero (hwatch _ _))) ?_
          apply hrecalled.acquireUntil
          · rw [Reading.after_zero]
            exact clock.steady _ (Nat.zero_le _)
          · exact watch.steady _ (Nat.zero_le _)
      | release resource =>
          have hheld : resource ∈ solo.held := of_decide_eq_true hfits
          refine halike.ask_of_agree hfits rfl rfl ?_
          cases hclosed : solo.pool.closed with
          | true => exact halike.release_closed hclosed hheld
          | false => exact halike.release_open hclosed hheld
      | close => exact halike.ask_of_agree hfits rfl rfl hrecalled.close
      | pause =>
          refine ⟨_, _, other,
            Workings.ask_eq rfl hfits (Elastic.Call.scanning_never hrecalled.never), ?_,
            halike.recalled (solo.calls + 1) other.calls⟩
          rw [Workings.ask_without_call rfl, halike.view_eq]
          rfl

end Twinned

theorem alike_start (script : Script R) (maxCapacity : UInt64) {options : ElasticOptions}
    (counter : Counter) (hmax : options.maxCapacity = maxCapacity.toNat)
    (hfifo : options.selection = .fifo) (hnever : options.expiry = .never) :
    Twinned script maxCapacity { pool := Elastic.Pool.start options counter }
      { pool := { maxCapacity := maxCapacity.toNat } } where
  settled := Elastic.settled_start script options counter
  fifo := hfifo
  never := hnever
  elastic_max := hmax
  fixed_max := rfl
  queue_eq := rfl
  size_eq := rfl
  closed_eq := rfl
  totals_eq := rfl
  held_eq := rfl
  asked_eq := rfl
  disposed_perm := List.Perm.refl _

/-- Whatever is asked of both, each answers all of it, and the same is seen of them all along. -/
theorem same_seen_of_fifo (script : Script R) (clock : Clock Reading) (watch : Clock Moment)
    (hwatch : ∀ call look, watch.tells call look ≤ Moment.last) (maxCapacity : UInt64)
    (options : ElasticOptions) (counter : Counter) (hmax : options.maxCapacity = maxCapacity.toNat)
    (hfifo : options.selection = .fifo) (hnever : options.expiry = .never) (asks : List (Ask R)) :
    ∃ views,
      Elastic.Call.workings.seen script clock asks { pool := Elastic.Pool.start options counter } =
          Part.some views ∧
        Fixed.Call.workings.seen script watch asks
          { pool := { maxCapacity := maxCapacity.toNat } } = Part.some views :=
  Workings.exists_seen (Twinned script maxCapacity)
    (fun asked _ _ halike => halike.ask hwatch asked) asks
    (alike_start script maxCapacity counter hmax hfifo hnever)

/-- A factory that numbers what it makes, and fails the second time. -/
def faltering : Script Nat where
  answer turn := if turn = 1 then .failed "down" else .ok turn
  fresh := by
    intro first second resource hfirst hsecond
    split at hfirst
    next => cases hfirst
    next =>
      split at hsecond
      next => cases hsecond
      next =>
        cases hfirst
        cases hsecond
        rfl

def Clock.still {τ : Type} [LE τ] (moment : τ) (hle : moment ≤ moment) : Clock τ where
  tells _ _ := moment
  steady _ _ _ _ := hle

def shopping : List (Ask Nat) :=
  [.tryAcquire, .acquireNow, .acquireNow, .tryAcquire, .acquireNow, .release 2, .pause, .release 0,
    .tryAcquire, .release 0, .close, .tryAcquire, .release 2]

/-- All kinds of answers occur: of two resources and no third, the one released first is handed out
again, one ask does not fit, and after closing the last resource held goes to the factory. -/
theorem same_seen_of_faltering : ∃ views : List (Sight Nat),
    Elastic.Call.workings.seen faltering (.still 0 (UInt64.le_refl 0)) shopping
        { pool := Elastic.Pool.start { maxCapacity := 2, selection := .fifo } .silent } =
          Part.some views ∧
      Fixed.Call.workings.seen faltering (.still 0 (Nat.le_refl 0)) shopping
        { pool := { maxCapacity := UInt64.toNat 2 } } = Part.some views ∧
      views.map Sight.answer? =
        [some (.acquired 0), some (.failed (.creation "down")), some (.acquired 2), some .nothing,
          some (.failed (.timeout .zero)), some .released, none, some .released,
          some (.acquired 2), none, some .closed, some (.failed .closed), some .released] ∧
      views.map (fun view => (view.size, view.available)) =
        [(1, 0), (1, 0), (2, 0), (2, 0), (2, 0), (2, 1), (2, 1), (2, 2), (2, 1), (2, 1), (1, 0),
          (1, 0), (0, 0)] ∧
      views.getLast?.map Sight.disposed = some {0, 2} := by
  obtain ⟨views, helastic, hfixed⟩ := same_seen_of_fifo faltering (.still 0 (UInt64.le_refl 0))
    (.still 0 (Nat.le_refl 0)) (fun _ _ => Nat.zero_le _) 2 { maxCapacity := 2, selection := .fifo }
    .silent rfl rfl rfl shopping
  have hcomputed : (Fixed.Call.workings.seen? faltering (.still 0 (Nat.le_refl 0)) 20 shopping
      { pool := { maxCapacity := UInt64.toNat 2 } }).map (fun views =>
        ((views.map Sight.answer?, views.map fun view => (view.size, view.available)),
          views.getLast?.map Sight.disposed)) =
      some (([some (.acquired 0), some (.failed (.creation "down")), some (.acquired 2),
          some .nothing, some (.failed (.timeout .zero)), some .released, none, some .released,
          some (.acquired 2), none, some .closed, some (.failed .closed), some .released],
        [(1, 0), (1, 0), (2, 0), (2, 0), (2, 0), (2, 1), (2, 1), (2, 2), (2, 1), (2, 1), (1, 0),
          (1, 0), (0, 0)]), some {0, 2}) := by decide
  obtain ⟨computed, hseen, hshown⟩ := Option.map_eq_some_iff.mp hcomputed
  have heq : views = computed :=
    Part.some_inj.mp (hfixed.symm.trans (Workings.seen_of_seen? hseen))
  simp only [Prod.mk.injEq] at hshown
  obtain ⟨⟨hanswers, hsizes⟩, hdisposed⟩ := hshown
  exact ⟨views, helastic, hfixed, heq ▸ hanswers, heq ▸ hsizes, heq ▸ hdisposed⟩

end Pooling
