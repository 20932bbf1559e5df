import Mathlib.Data.List.Induction
import Pooling.Pacing.Timer

/-!
A timer asked again and again. When its events fire is told by sums of whole milliseconds that
nothing cuts off, although the timer itself counts in words.
-/

namespace Pooling

namespace Word

theorem toNat_min (first second : UInt64) :
    (min first second).toNat = min first.toNat second.toNat := by
  show (if first ≤ second then first else second).toNat = _
  split
  next h => rw [UInt64.le_iff_toNat_le] at h; omega
  next h => rw [UInt64.le_iff_toNat_le] at h; omega

end Word

namespace Duration

theorem millis_min (first second : Duration) :
    (min first second).millis.toNat = min first.millis.toNat second.millis.toNat := by
  rw [toNat_millis, toNat_millis, toNat_millis, nanos_min]
  omega

theorem ofMillis_millis_le (span : Duration) : ofMillis span.millis ≤ span := by
  rw [le_iff, nanos_ofMillis, toNat_millis]
  omega

end Duration

namespace Timer

/-- What a timer answers to ticks, by their readings. -/
def answers : Timer → List Reading → List (Reading × TimerResult)
  | _, [] => []
  | timer, now :: readings => (now, (timer.tick now).1) :: (timer.tick now).2.answers readings

def ticked (timer : Timer) (readings : List Reading) : Timer :=
  readings.foldl (fun timer now => (timer.tick now).2) timer

/-- The readings at which events fire, the first one first. -/
def fired (timer : Timer) (readings : List Reading) : List Reading :=
  ((timer.answers readings).filter fun answer => answer.2 = .ready).map Prod.fst

section

variable (timer : Timer) (readings : List Reading) (now : Reading)

theorem ticked_concat :
    timer.ticked (readings ++ [now]) = ((timer.ticked readings).tick now).2 := by
  rw [ticked, List.foldl_append]
  rfl

theorem answers_concat : timer.answers (readings ++ [now]) =
    timer.answers readings ++ [(now, ((timer.ticked readings).tick now).1)] := by
  induction readings generalizing timer with
  | nil => rfl
  | cons first readings ih =>
      rw [List.cons_append, answers, ih]
      rfl

theorem fired_concat : timer.fired (readings ++ [now]) =
    if ((timer.ticked readings).tick now).1 = .ready then timer.fired readings ++ [now]
    else timer.fired readings := by
  rw [fired, answers_concat, List.filter_append, List.map_append, fired]
  split
  next hready => simp [hready]
  next hnot => simp [hnot]

end

variable (initialInterval maxInterval initialWait maxTotalWait : Duration) (start : Reading)

/-- The milliseconds from an event to the next, by the number of events before it. -/
def gap : Nat → Nat
  | 0 => (min initialInterval maxInterval).millis.toNat
  | made + 1 =>
      if 2 * gap made < UInt64.size then min (2 * gap made) maxInterval.millis.toNat
      else 2147483647

/-- From which reading on the next event may fire, by the readings of those before it. -/
def due (fired : List Reading) : Nat :=
  match fired.getLast? with
  | none => start.toNat + initialWait.nanos / 1000000
  | some last => last.toNat + gap initialInterval maxInterval (fired.length - 1)

@[simp] theorem due_nil : due initialInterval maxInterval initialWait start [] =
    start.toNat + initialWait.nanos / 1000000 := rfl

theorem due_concat (fired : List Reading) (now : Reading) :
    due initialInterval maxInterval initialWait start (fired ++ [now]) =
      now.toNat + gap initialInterval maxInterval fired.length := by
  rw [due, List.getLast?_concat, List.length_append]
  rfl

theorem gap_le (made : Nat) :
    gap initialInterval maxInterval made ≤ maxInterval.millis.toNat := by
  induction made with
  | zero =>
      rw [gap, Duration.millis_min]
      exact Nat.min_le_right _ _
  | succ made ih =>
      rw [gap]
      split
      next => exact Nat.min_le_right _ _
      next hlong =>
        -- An interval that cannot be doubled is longer than what stands in for its double.
        have hsize : UInt64.size = 18446744073709551616 := rfl
        omega

theorem toNat_grow {interval : UInt64} {made : Nat}
    (hinterval : interval.toNat = gap initialInterval maxInterval made) :
    (grow interval maxInterval.millis).toNat = gap initialInterval maxInterval (made + 1) := by
  rw [grow, gap, ← hinterval]
  split
  next hfits =>
    have hdouble : (2 * interval).toNat = 2 * interval.toNat := by
      rw [UInt64.toNat_mul]
      exact Nat.mod_eq_of_lt hfits
    rw [Word.toNat_min, hdouble]
  next => rfl

/-- How a timer stands after events at certain readings. -/
structure Paced (fired : List Reading) (timer : Timer) : Prop where
  maxInterval_eq : timer.maxInterval = maxInterval.millis
  horizon_eq :
    timer.horizon.toNat = min (start.toNat + maxTotalWait.nanos / 1000000) (UInt64.size - 1)
  events_eq : timer.events = .ofNat fired.length
  interval_eq : timer.interval.toNat = gap initialInterval maxInterval fired.length
  nextEvent_eq : timer.nextEvent.toNat =
    min (due initialInterval maxInterval initialWait start fired) (UInt64.size - 1)
  spaced : ∀ count last next, fired[count]? = some last → fired[count + 1]? = some next →
    last.toNat + gap initialInterval maxInterval count ≤ next.toNat

theorem paced_start :
    Paced initialInterval maxInterval initialWait maxTotalWait start []
      (Timer.start initialInterval maxInterval initialWait maxTotalWait start) where
  maxInterval_eq := rfl
  horizon_eq := by
    rw [Timer.start, Reading.toNat_after, Duration.toNat_millis]
    omega
  events_eq := rfl
  interval_eq := by
    rw [Timer.start, Word.toNat_min]
    exact (Duration.millis_min _ _).symm
  nextEvent_eq := by
    rw [Timer.start, Reading.toNat_after, Duration.toNat_millis, due_nil]
    omega
  spaced := by simp

namespace Paced

variable {initialInterval maxInterval initialWait maxTotalWait : Duration} {start : Reading}
  {fired : List Reading} {timer : Timer}

/-- The next event is due where the timer has it. A sum cut off is one that no reading before the
horizon comes up to. -/
theorem before_iff
    (hpaced : Paced initialInterval maxInterval initialWait maxTotalWait start fired timer)
    {now : Reading} (hearly : now.toNat < timer.horizon.toNat) : now < timer.nextEvent ↔
      now.toNat < due initialInterval maxInterval initialWait start fired := by
  have hhorizon := hpaced.horizon_eq
  rw [UInt64.lt_iff_toNat_lt, hpaced.nextEvent_eq]
  omega

theorem tick
    (hpaced : Paced initialInterval maxInterval initialWait maxTotalWait start fired timer)
    (now : Reading) :
    timer.horizon ≤ now ∧ timer.tick now = (.expired, timer) ∨
      now < timer.horizon ∧
          now.toNat < due initialInterval maxInterval initialWait start fired ∧
          timer.tick now = (.notReady, timer) ∨
      now < timer.horizon ∧
          due initialInterval maxInterval initialWait start fired ≤ now.toNat ∧
          timer.tick now = (.ready, timer.fire now) := by
  unfold Timer.tick
  split
  next hlate => exact .inl ⟨hlate, rfl⟩
  next hearly =>
    rw [UInt64.not_le] at hearly
    have hbefore := hpaced.before_iff (UInt64.lt_iff_toNat_lt.mp hearly)
    split
    next hwait => exact .inr (.inl ⟨hearly, hbefore.mp hwait, rfl⟩)
    next hready =>
      exact .inr (.inr ⟨hearly, Nat.le_of_not_lt fun hwait => hready (hbefore.mpr hwait), rfl⟩)

theorem fire
    (hpaced : Paced initialInterval maxInterval initialWait maxTotalWait start fired timer)
    {now : Reading} (hdue : due initialInterval maxInterval initialWait start fired ≤ now.toNat) :
    Paced initialInterval maxInterval initialWait maxTotalWait start (fired ++ [now])
      (timer.fire now) where
  maxInterval_eq := hpaced.maxInterval_eq
  horizon_eq := hpaced.horizon_eq
  events_eq := by
    rw [Timer.fire, hpaced.events_eq, List.length_append, UInt64.ofNat_add]
    rfl
  interval_eq := by
    rw [Timer.fire, hpaced.maxInterval_eq, List.length_append]
    exact toNat_grow _ _ hpaced.interval_eq
  nextEvent_eq := by
    rw [due_concat, Timer.fire, Reading.toNat_after, hpaced.interval_eq]
  spaced := by
    intro count last next hlast hnext
    rw [List.getElem?_append] at hlast hnext
    by_cases hinside : count + 1 < fired.length
    · rw [if_pos (Nat.lt_of_succ_lt hinside)] at hlast
      rw [if_pos hinside] at hnext
      exact hpaced.spaced count last next hlast hnext
    · rw [if_neg hinside] at hnext
      have hcount : count + 1 - fired.length = 0 := by
        have hbound := (List.getElem?_eq_some_iff.mp hnext).1
        rw [List.length_singleton] at hbound
        omega
      have hlength : fired.length = count + 1 := by omega
      rw [if_pos (by omega)] at hlast
      rw [hcount] at hnext
      cases hnext
      have hgetLast : fired.getLast? = some last := by
        rw [List.getLast?_eq_getElem?, hlength]
        exact hlast
      rw [due, hgetLast, hlength] at hdue
      exact hdue

theorem ticked
    (hpaced : Paced initialInterval maxInterval initialWait maxTotalWait start fired timer)
    (now : Reading) :
    Paced initialInterval maxInterval initialWait maxTotalWait start
      (if (timer.tick now).1 = .ready then fired ++ [now] else fired) (timer.tick now).2 := by
  rcases hpaced.tick now with ⟨-, htick⟩ | ⟨-, -, htick⟩ | ⟨-, hdue, htick⟩
  · rw [htick]
    exact hpaced
  · rw [htick]
    exact hpaced
  · rw [htick]
    exact hpaced.fire hdue

theorem result_iff
    (hpaced : Paced initialInterval maxInterval initialWait maxTotalWait start fired timer)
    (now : Reading) :
    let horizon := min (start.toNat + maxTotalWait.nanos / 1000000) (UInt64.size - 1)
    let due := due initialInterval maxInterval initialWait start fired
    ((timer.tick now).1 = .expired ↔ horizon ≤ now.toNat) ∧
      ((timer.tick now).1 = .ready ↔ now.toNat < horizon ∧ due ≤ now.toNat) ∧
      ((timer.tick now).1 = .notReady ↔ now.toNat < horizon ∧ now.toNat < due) ∧
      ((timer.tick now).1 ≠ .ready → (timer.tick now).2 = timer) := by
  intro horizon due
  have hhorizon : timer.horizon.toNat = horizon := hpaced.horizon_eq
  rcases hpaced.tick now with ⟨hlate, htick⟩ | ⟨hearly, hwait, htick⟩ | ⟨hearly, hdue, htick⟩
  · rw [UInt64.le_iff_toNat_le, hhorizon] at hlate
    have hnot : ¬ now.toNat < horizon := Nat.not_lt.mpr hlate
    simp [htick, hlate, hnot]
  · rw [UInt64.lt_iff_toNat_lt, hhorizon] at hearly
    have hnot : ¬ due ≤ now.toNat := Nat.not_le.mpr hwait
    simp [htick, hearly, hnot, Nat.lt_of_not_le hnot]
  · rw [UInt64.lt_iff_toNat_lt, hhorizon] at hearly
    have hnot : ¬ now.toNat < due := Nat.not_lt.mpr hdue
    simp [htick, hearly, hnot, Nat.le_of_not_lt hnot]

theorem intervalSpan_le
    (hpaced : Paced initialInterval maxInterval initialWait maxTotalWait start fired timer) :
    timer.intervalSpan ≤ maxInterval := by
  have hle : timer.interval.toNat ≤ maxInterval.millis.toNat :=
    hpaced.interval_eq ▸ gap_le initialInterval maxInterval fired.length
  have hcap := Duration.le_iff.mp maxInterval.ofMillis_millis_le
  exact Duration.le_iff.mpr (Nat.le_trans (Nat.mul_le_mul_right 1000000 hle) hcap)

end Paced

theorem paced_of_ticks (readings : List Reading) :
    let timer := Timer.start initialInterval maxInterval initialWait maxTotalWait start
    Paced initialInterval maxInterval initialWait maxTotalWait start (timer.fired readings)
      (timer.ticked readings) := by
  intro timer
  induction readings using List.reverseRecOn with
  | nil => exact paced_start initialInterval maxInterval initialWait maxTotalWait start
  | append_singleton readings now ih =>
      rw [ticked_concat, fired_concat]
      exact ih.ticked now

theorem exists_of_mem_answers {timer : Timer} {readings : List Reading} {now : Reading}
    {result : TimerResult} (hanswer : (now, result) ∈ timer.answers readings) :
    ∃ earlier later, readings = earlier ++ now :: later ∧
      ((timer.ticked earlier).tick now).1 = result := by
  induction readings generalizing timer with
  | nil => cases hanswer
  | cons first readings ih =>
      rw [answers, List.mem_cons] at hanswer
      rcases hanswer with heq | hlater
      · cases heq
        exact ⟨[], readings, rfl, rfl⟩
      · obtain ⟨earlier, later, hsplit, hresult⟩ := ih hlater
        exact ⟨first :: earlier, later, congrArg (first :: ·) hsplit, hresult⟩

/-- What a timer answers to a tick after any others. It has expired from its horizon on; before, an
event fires at the first tick that is an interval or more after the last event, or the initial wait
after the start, and nothing but an event changes the timer. Events are counted in a word, as are
the milliseconds of an interval. -/
theorem scheduled_of_ticks (initialInterval maxInterval initialWait maxTotalWait : Duration)
    (start : Reading) (readings : List Reading) (now : Reading)
    (hordered : (readings ++ [now]).Pairwise (· ≤ ·)) :
    let fresh := Timer.start initialInterval maxInterval initialWait maxTotalWait start
    let timer := fresh.ticked readings
    let fired := fresh.fired readings
    let horizon := min (start.toNat + maxTotalWait.nanos / 1000000) (UInt64.size - 1)
    let due := due initialInterval maxInterval initialWait start fired
    ((timer.tick now).1 = .expired ↔ horizon ≤ now.toNat) ∧
      ((timer.tick now).1 = .ready ↔ now.toNat < horizon ∧ due ≤ now.toNat) ∧
      ((timer.tick now).1 = .notReady ↔ now.toNat < horizon ∧ now.toNat < due) ∧
      ((∃ earlier, (earlier, .expired) ∈ fresh.answers readings) →
        (timer.tick now).1 = .expired) ∧
      ((timer.tick now).1 ≠ .ready → (timer.tick now).2 = timer) ∧
      timer.events = .ofNat fired.length ∧
      timer.intervalSpan.nanos = gap initialInterval maxInterval fired.length * 1000000 ∧
      timer.intervalSpan ≤ maxInterval ∧
      ∀ count last next, fired[count]? = some last → fired[count + 1]? = some next →
        last.toNat + gap initialInterval maxInterval count ≤ next.toNat := by
  intro fresh timer fired horizon due
  have hpaced (readings : List Reading) :=
    paced_of_ticks initialInterval maxInterval initialWait maxTotalWait start readings
  obtain ⟨hexpired, hready, hnotReady, hsame⟩ := (hpaced readings).result_iff now
  refine ⟨hexpired, hready, hnotReady, ?_, hsame, (hpaced readings).events_eq,
    congrArg (· * 1000000) (hpaced readings).interval_eq, (hpaced readings).intervalSpan_le,
    (hpaced readings).spaced⟩
  rintro ⟨earlier, hanswer⟩
  obtain ⟨before, after, hsplit, hresult⟩ := exists_of_mem_answers hanswer
  have hmem : earlier ∈ readings := hsplit ▸ List.mem_append_right _ List.mem_cons_self
  have hle : earlier ≤ now := (List.pairwise_append.mp hordered).2.2 earlier hmem now
    List.mem_cons_self
  have hlate := ((hpaced before).result_iff earlier).1.mp hresult
  exact hexpired.mpr (Nat.le_trans hlate (UInt64.le_iff_toNat_le.mp hle))

/-- Three events, the last of them late, and ticks before, between and after them. -/
theorem scheduled_of_reconnecting :
    let fresh := Timer.start (.ofMillis 10) (.ofMillis 25) (.ofMillis 5) (.ofMillis 100) 1000
    let readings : List Reading := [1000, 1005, 1014, 1015, 1060]
    (readings ++ [1084]).Pairwise (· ≤ ·) ∧ (readings ++ [1085]).Pairwise (· ≤ ·) ∧
      (readings ++ [1100] ++ [1101]).Pairwise (· ≤ ·) ∧
      fresh.fired readings = [1005, 1015, 1060] ∧
      ((fresh.ticked readings).tick 1084).1 = .notReady ∧
      ((fresh.ticked readings).tick 1085).1 = .ready ∧
      ((fresh.ticked (readings ++ [1100])).tick 1101).1 = .expired ∧
      (fresh.ticked readings).events = 3 ∧
      (fresh.ticked readings).intervalSpan.nanos = 25000000 := by
  intro fresh readings
  have hwaiting : (readings ++ [1084]).Pairwise (· ≤ ·) := by decide
  have hdue : (readings ++ [1085]).Pairwise (· ≤ ·) := by decide
  have hlate : (readings ++ [1100] ++ [1101]).Pairwise (· ≤ ·) := by decide
  have hfired : fresh.fired readings = [1005, 1015, 1060] := by decide +kernel
  obtain ⟨-, -, hnotReady, -, -, hevents, hinterval, -⟩ := scheduled_of_ticks (.ofMillis 10)
    (.ofMillis 25) (.ofMillis 5) (.ofMillis 100) 1000 readings 1084 hwaiting
  obtain ⟨-, hready, -⟩ := scheduled_of_ticks (.ofMillis 10) (.ofMillis 25) (.ofMillis 5)
    (.ofMillis 100) 1000 readings 1085 hdue
  obtain ⟨-, -, -, hexpired, -⟩ := scheduled_of_ticks (.ofMillis 10) (.ofMillis 25) (.ofMillis 5)
    (.ofMillis 100) 1000 (readings ++ [1100]) 1101 hlate
  refine ⟨hwaiting, hdue, hlate, hfired, hnotReady.mpr (by decide +kernel),
    hready.mpr (by decide +kernel), hexpired ⟨1100, by decide +kernel⟩,
    hevents.trans (by decide +kernel), hinterval.trans (by decide +kernel)⟩

end Timer

end Pooling
