import Pooling.Proofs.Retry.Raises

/-!
Whether a policy with exponential waits comes to its end on a clock that only its sleeps move: with
a cap of a millisecond it does, and with a shorter one only if the first wait takes it there.
-/

namespace Pooling

/-! The exponential strategy asked in order. -/

namespace ExponentialWait

open TimeBoundedRetry

section

variable {initial cap : Duration} {skipInitial : Bool} {words : Words} {count : Nat}

theorem skips_iff (hcount : count + 1 < UInt32.size) :
    (skipInitial && UInt32.ofNat (count + 1) ≤ 1) = decide (count < skipInitial.toNat) := by
  have hnat : (UInt32.ofNat (count + 1)).toNat = count + 1 := UInt32.toNat_ofNat_of_lt' hcount
  cases skipInitial with
  | false => rfl
  | true =>
      rw [Bool.true_and, decide_eq_decide, UInt32.le_iff_toNat_le, hnat]
      show count + 1 ≤ 1 ↔ count < 1
      omega

theorem wait_in_order (initial cap : Duration) (words : Words) (hcount : count + 1 < UInt32.size) :
    let now := standing initial cap skipInitial words (count - skipInitial.toNat)
    now.wait (UInt32.ofNat (count + 1)) =
      if count < skipInitial.toNat then (.ok .zero, now)
      else (now.jittered,
        standing initial cap skipInitial words (count + 1 - skipInitial.toNat)) := by
  intro now
  have hiff : (skipInitial && UInt32.ofNat (count + 1) ≤ 1) = _ := skips_iff hcount
  by_cases hskipped : count < skipInitial.toNat
  · rw [decide_eq_true hskipped] at hiff
    rw [if_pos hskipped, wait_standing_skipped initial cap words _ hiff]
  · rw [decide_eq_false hskipped] at hiff
    rw [if_neg hskipped, wait_standing initial cap words _ hiff,
      Nat.succ_sub (Nat.le_of_not_lt hskipped)]

/-- After so many calls, all but a skipped one have taken a word. -/
theorem strategy_start (hcount : count < UInt32.size) :
    strategy (start initial cap skipInitial words) count =
      standing initial cap skipInitial words (count - skipInitial.toNat) := by
  induction count with
  | zero =>
      rw [Nat.zero_sub]
      rfl
  | succ count ih =>
      show (ExponentialWait.wait (UInt32.ofNat (count + 1)) (strategy _ count)).2 = _
      rw [ih (Nat.lt_of_succ_lt hcount), wait_in_order initial cap words hcount]
      split
      next hskipped =>
        have hsame : count + 1 - skipInitial.toNat = count - skipInitial.toNat := by
          have := skipInitial.toNat_le
          omega
        rw [hsame]
      next => rfl

theorem proposal_start (hcount : count + 1 < UInt32.size) :
    proposal (start initial cap skipInitial words) count =
      if count < skipInitial.toNat then .ok .zero
      else (standing initial cap skipInitial words (count - skipInitial.toNat)).jittered := by
  show (ExponentialWait.wait (UInt32.ofNat (count + 1)) (strategy _ count)).1 = _
  rw [strategy_start (Nat.lt_of_succ_lt hcount), wait_in_order initial cap words hcount]
  split <;> rfl

theorem eq_spanOverflow_of_proposal (hcount : count + 1 < UInt32.size) {abort : Abort}
    (hraised : proposal (start initial cap skipInitial words) count = .error abort) :
    abort = .spanOverflow := by
  rw [proposal_start hcount] at hraised
  split at hraised
  next => cases hraised
  next => exact (jittered_eq_error_iff.mp hraised).1

/-- With a cap of a millisecond, every wait takes a millisecond or more. -/
theorem ofMillis_one_le_base (hcap : .ofMillis 1 ≤ cap) (made : Nat) :
    .ofMillis 1 ≤ base initial cap made := by
  have hbase := Duration.le_iff.mp (min_cap_le_base initial cap made)
  rw [Duration.nanos_min, nanos_base_zero] at hbase
  rw [Duration.le_iff] at hcap ⊢
  change 1000000 ≤ cap.nanos at hcap
  change 1000000 ≤ _
  omega

theorem le_covered_start (hcap : .ofMillis 1 ≤ cap) (hcount : count < UInt32.size)
    (hspans : ∀ earlier < count, ∃ span,
      proposal (start initial cap skipInitial words) earlier = .ok span) :
    count ≤ covered (start initial cap skipInitial words) count + skipInitial.toNat := by
  induction count with
  | zero => exact Nat.zero_le _
  | succ count ih =>
      have hle := ih (Nat.lt_of_succ_lt hcount)
        fun earlier hlt => hspans earlier (Nat.lt_succ_of_lt hlt)
      rcases Nat.lt_or_ge count skipInitial.toNat with hskipped | htaken
      · omega
      · obtain ⟨span, hspan⟩ := hspans count (Nat.lt_succ_self count)
        rw [covered_succ hspan]
        rw [proposal_start hcount, if_neg (Nat.not_lt.mpr htaken), jittered_eq_ok_iff] at hspan
        have hbase : .ofMillis 1 ≤ base initial cap (count - skipInitial.toNat) :=
          ofMillis_one_le_base hcap _
        have hlong : .ofMillis 1 ≤ span := by
          rw [Duration.le_iff, hspan]
          exact Nat.le_trans (Duration.le_iff.mp hbase) (base_le_length initial cap words _)
        have hmillis := Duration.millis_pos hlong
        omega

/-- A cap below a millisecond is every wait but the first, and no jitter comes to it. -/
theorem base_succ_of_short (hcap : cap < .ofMillis 1) (made : Nat) :
    base initial cap (made + 1) = cap := by
  have hpow : 1 * (base initial cap 0).nanos ≤ 2 ^ (made + 1) * (base initial cap 0).nanos :=
    Nat.mul_le_mul_right _ Nat.one_le_two_pow
  have hfirst : 1000000 ≤ (base initial cap 0).nanos := by
    rw [nanos_base_zero]
    exact Nat.le_max_right _ _
  have hmax := cap.le_max
  rw [Duration.lt_iff] at hcap
  change cap.nanos < 1000000 at hcap
  apply Duration.ext_nanos
  rw [nanos_base_succ]
  omega

theorem millis_of_short (hcap : cap < .ofMillis 1) : cap.millis = 0 := by
  rw [Duration.lt_iff] at hcap
  change cap.nanos < 1000000 at hcap
  rw [← UInt64.toNat_inj, Duration.toNat_millis]
  show min (cap.nanos / 1000000) _ = 0
  omega

theorem jittered_of_short (hcap : cap < .ofMillis 1) (made : Nat) :
    (standing initial cap skipInitial words (made + 1)).jittered = .ok cap := by
  rw [jittered_eq_ok_iff, length, base_succ_of_short hcap, millis_of_short hcap, jitter_zero]
  rfl

/-- With a cap below a millisecond, the first wait is all that moves the clock. -/
theorem covered_of_short (hcap : cap < .ofMillis 1) {first : Duration}
    (hfirst : (start initial cap skipInitial words).jittered = .ok first)
    (hcount : count < UInt32.size) :
    (∀ earlier < count, ∃ span,
        proposal (start initial cap skipInitial words) earlier = .ok span) ∧
      covered (start initial cap skipInitial words) count =
        if count ≤ skipInitial.toNat then 0 else first.millis.toNat := by
  induction count with
  | zero => exact ⟨fun _ hlt => absurd hlt (Nat.not_lt_zero _), rfl⟩
  | succ count ih =>
      obtain ⟨hspans, hcovered⟩ := ih (Nat.lt_of_succ_lt hcount)
      have hspan : ∃ span, proposal (start initial cap skipInitial words) count = .ok span ∧
          span.millis.toNat = if count = skipInitial.toNat then first.millis.toNat else 0 := by
        rw [proposal_start hcount]
        rcases Nat.lt_trichotomy count skipInitial.toNat with hskipped | htaken | hlater
        · rw [if_pos hskipped, if_neg (Nat.ne_of_lt hskipped)]
          exact ⟨.zero, rfl, rfl⟩
        · rw [if_neg (Nat.not_lt.mpr (Nat.le_of_eq htaken.symm)), if_pos htaken, htaken,
            Nat.sub_self]
          exact ⟨first, hfirst, rfl⟩
        · have hmade : count - skipInitial.toNat = count - skipInitial.toNat - 1 + 1 := by omega
          rw [if_neg (Nat.not_lt.mpr (Nat.le_of_lt hlater)), if_neg (Nat.ne_of_gt hlater), hmade,
            jittered_of_short hcap]
          exact ⟨cap, rfl, congrArg UInt64.toNat (millis_of_short hcap)⟩
      obtain ⟨span, hspan, hmillis⟩ := hspan
      refine ⟨fun earlier hlt => ?_, ?_⟩
      · rcases Nat.lt_succ_iff_lt_or_eq.mp hlt with hearlier | rfl
        · exact hspans earlier hearlier
        · exact ⟨span, hspan⟩
      · rw [covered_succ hspan, hcovered, hmillis]
        split_ifs <;> omega

end

/-- Whether a policy with a cap below a millisecond ends hangs on its first wait. -/
theorem stops_of_short {maxDuration initial cap : Duration} {skipInitial : Bool} {words : Words}
    {origin : Timeline} (hcap : cap < .ofMillis 1) {first : Duration}
    (hfirst : (start initial cap skipInitial words).jittered = .ok first) :
    let waiter := Waiter.start maxDuration (start initial cap skipInitial words) origin
    (waiter.room ≤ first.millis.toNat →
      ∃ grants, 0 < grants ∧ grants ≤ 2 + skipInitial.toNat ∧ waiter.Stops grants) ∧
    (first.millis.toNat < waiter.room → waiter.Stops UInt32.size) := by
  intro waiter
  have htimely := Waiter.timely_start maxDuration (start initial cap skipInitial words) origin
  have hshort : skipInitial.toNat + 1 < UInt32.size :=
    Nat.lt_of_le_of_lt (Nat.succ_le_succ skipInitial.toNat_le) (by decide)
  refine ⟨fun hle => ?_, fun hlt => ?_⟩
  · rcases Nat.eq_zero_or_pos waiter.room with hnone | hsome
    · refine ⟨1, Nat.one_pos, by omega, Waiter.stops_of_covered htimely rfl ?_ ?_ ?_⟩
      · exact fun earlier hearlier => absurd hearlier (Nat.not_lt_zero _)
      · exact fun earlier hearlier => absurd hearlier (Nat.not_lt_zero _)
      · exact Nat.le_of_eq hnone
    · obtain ⟨hspans, hcovered⟩ := covered_of_short hcap hfirst hshort
      refine ⟨skipInitial.toNat + 1 + 1, Nat.succ_pos _, by omega,
        Waiter.stops_of_covered htimely rfl hspans (fun earlier hearlier => ?_) ?_⟩
      · have hnothing := (covered_of_short hcap hfirst (Nat.lt_trans hearlier hshort)).2
        rw [if_pos (Nat.le_of_lt_succ hearlier)] at hnothing
        exact hnothing ▸ hsome
      · rw [if_neg (Nat.not_succ_le_self _)] at hcovered
        exact hcovered ▸ hle
  · refine Waiter.stops_full htimely rfl (fun earlier hearlier => ?_) (fun earlier hearlier => ?_)
    · obtain ⟨hspans, -⟩ := covered_of_short hcap hfirst (show earlier + 1 < UInt32.size by omega)
      exact hspans earlier (Nat.lt_succ_self _)
    · have hcovered := (covered_of_short hcap hfirst (show earlier < UInt32.size by omega)).2
      refine Nat.lt_of_le_of_lt ?_ hlt
      show covered (start initial cap skipInitial words) earlier ≤ _
      rw [hcovered]
      split_ifs
      · exact Nat.zero_le _
      · exact Nat.le_refl _

theorem stops_of_long {maxDuration initial cap : Duration} {skipInitial : Bool} {words : Words}
    {origin : Timeline} (hcap : .ofMillis 1 ≤ cap) :
    let waiter := Waiter.start maxDuration (start initial cap skipInitial words) origin
    (∀ count, (waiter.after count).asked.granted ≠ .error .spanOverflow) →
      ∃ grants, 0 < grants ∧ grants ≤ 1 + waiter.room + skipInitial.toNat ∧
        waiter.Stops grants := by
  intro waiter hunraised
  apply Waiter.exists_stops_of_growing
    (Waiter.timely_start maxDuration (start initial cap skipInitial words) origin) rfl
    skipInitial.toNat
  · intro count hcount abort hraised
    rw [eq_spanOverflow_of_proposal (by omega) hraised]
    exact hunraised (count + 1)
  · exact fun count hcount hspans => le_covered_start hcap hcount hspans

theorem exists_standing_after {maxDuration initial cap : Duration} {skipInitial : Bool}
    {words : Words} {origin : Timeline} (count : Nat) :
    let waiter := Waiter.start maxDuration (start initial cap skipInitial words) origin
    ∃ made, (waiter.after count).policy.wait = standing initial cap skipInitial words made := by
  intro waiter
  induction count with
  | zero => exact ⟨0, rfl⟩
  | succ count ih =>
      rw [Waiter.after_succ]
      exact exists_standing_attempt ih _

/-- No wait is too long for a span if the longest and a tenth of it are not. -/
theorem unraised_of_fits {maxDuration initial cap : Duration} {skipInitial : Bool} {words : Words}
    {origin : Timeline} (hfits : (max (base initial cap 0) cap).withTenth ≤ Duration.maxNanos)
    (count : Nat) :
    let waiter := Waiter.start maxDuration (start initial cap skipInitial words) origin
    (waiter.after count).asked.granted ≠ .error .spanOverflow := by
  intro waiter hraised
  obtain ⟨made, hwait⟩ := exists_standing_after count
  obtain ⟨-, -, ⟨-, -, hlong⟩ | ⟨hother, -, -⟩⟩ := (raised_standing_iff hwait).mp hraised
  · exact absurd (length_le_of_fits initial cap words hfits made) (Nat.not_le.mpr hlong)
  · cases hother

theorem bounds_of_jittered {initial cap : Duration} {skipInitial : Bool} {words : Words}
    {made : Nat} {span : Duration}
    (hspan : (standing initial cap skipInitial words made).jittered = .ok span) :
    base initial cap made ≤ span ∧ span.nanos ≤ (base initial cap made).withTenth := by
  rw [jittered_eq_ok_iff] at hspan
  rw [Duration.le_iff, hspan]
  exact ⟨base_le_length initial cap words made, length_le_withTenth initial cap words made⟩

/-- How long the waits of the exponential strategy are, and whether they bring a policy to its end.
A wait that is not skipped is a millisecond or more and a tenth above the cap at most, but that the
first is not capped and the others can be as short as the cap. On a clock that only its sleeps move,
a policy with a cap of a millisecond or more ends, in no more attempts than one, the milliseconds up
to its end and a skipped one, if no wait with its jitter is too long for a span. With a shorter cap
it ends where its first wait takes it to the end, and else goes on until it cannot count further. -/
theorem paced_of_start (initial cap : Duration) (skipInitial : Bool) (words : Words) :
    (∀ calls attempts span, ¬ (skipInitial = true ∧ attempts ≤ 1) →
      (((start initial cap skipInitial words).called calls).wait attempts).1 = .ok span →
        if unskipped skipInitial calls = 0 then
          .ofMillis 1 ≤ span ∧ span.nanos ≤ (max initial (.ofMillis 1)).withTenth
        else min cap (.ofMillis 1) ≤ span ∧ span.nanos ≤ cap.withTenth) ∧
    ∀ maxDuration origin,
      let waiter := Waiter.start maxDuration (start initial cap skipInitial words) origin
      (.ofMillis 1 ≤ cap →
        (∀ count, (waiter.after count).asked.granted ≠ .error .spanOverflow) →
          ∃ grants, 0 < grants ∧ grants ≤ 1 + waiter.room + skipInitial.toNat ∧
            waiter.Stops grants) ∧
      (cap < .ofMillis 1 → ∀ first, (start initial cap skipInitial words).jittered = .ok first →
        (waiter.room ≤ first.millis.toNat →
          ∃ grants, 0 < grants ∧ grants ≤ 2 + skipInitial.toNat ∧ waiter.Stops grants) ∧
        (first.millis.toNat < waiter.room → waiter.Stops UInt32.size)) := by
  refine ⟨fun calls attempts span htaken hspan => ?_, fun maxDuration origin => ⟨?_, ?_⟩⟩
  · rw [called_start, wait_standing initial cap words _ (not_skips_iff.mpr htaken)] at hspan
    obtain ⟨hlow, hhigh⟩ := bounds_of_jittered hspan
    have hfirst : .ofMillis 1 ≤ base initial cap 0 := by
      rw [Duration.le_iff, nanos_base_zero]
      exact Nat.le_max_right _ _
    split
    next hnone =>
      rw [hnone] at hlow hhigh
      exact ⟨Nat.le_trans hfirst hlow, hhigh⟩
    next hsome =>
      obtain ⟨made, hmade⟩ := Nat.exists_eq_succ_of_ne_zero hsome
      rw [hmade] at hlow hhigh
      constructor
      · have hbase := min_cap_le_base initial cap (made + 1)
        rw [Duration.le_iff, Duration.nanos_min] at hbase ⊢
        exact (min_le_min_left _ hfirst).trans (hbase.trans hlow)
      · exact hhigh.trans (Duration.withTenth_mono (base_succ_le initial cap made))
  · exact stops_of_long
  · exact fun hcap first hfirst => stops_of_short hcap hfirst

/-- As much jitter as there can be. -/
def greatest : Words := { list := [UInt64.ofNat (UInt64.size - 1)] }

theorem paced_of_uneven :
    let capped := start (.ofNanos 3500000) (.ofMillis 8) true greatest
    let short := start (.ofNanos 3500000) (.ofNanos 500000) false greatest
    (¬ (true = true ∧ (4 : UInt32) ≤ 1) ∧ ((capped.called [1, 2, 3]).wait 4).1 = .ok (.ofMillis 9) ∧
        (.ofMillis 9 : Duration).nanos ≤ (.ofMillis 8 : Duration).withTenth) ∧
      ((.ofMillis 1 : Duration) ≤ .ofMillis 8 ∧
        (∀ count, ((Waiter.start (.ofMillis 20) capped { hand := 100 }).after count).asked.granted ≠
          .error .spanOverflow) ∧
        ∃ grants, 0 < grants ∧ grants ≤ 22 ∧
          (Waiter.start (.ofMillis 20) capped { hand := 100 }).Stops grants) ∧
      (.ofNanos 500000 : Duration) < .ofMillis 1 ∧ short.jittered = .ok (.ofNanos 3500000) ∧
        (∃ grants, 0 < grants ∧ grants ≤ 2 ∧ (Waiter.start (.ofMillis 3) short {}).Stops grants) ∧
        (Waiter.start (.ofMillis 4) short {}).Stops UInt32.size := by
  intro capped short
  obtain ⟨hbounds, hcapped⟩ := paced_of_start (.ofNanos 3500000) (.ofMillis 8) true greatest
  obtain ⟨-, hshort⟩ := paced_of_start (.ofNanos 3500000) (.ofNanos 500000) false greatest
  have htaken : ¬ (true = true ∧ (4 : UInt32) ≤ 1) := by decide
  have hspan : ((capped.called [1, 2, 3]).wait 4).1 = .ok (.ofMillis 9) := by decide +kernel
  have hlong : (.ofMillis 1 : Duration) ≤ .ofMillis 8 := by decide
  have hunraised : ∀ count,
      ((Waiter.start (.ofMillis 20) capped { hand := 100 }).after count).asked.granted ≠
        .error .spanOverflow := unraised_of_fits (by decide +kernel)
  have hcap : (.ofNanos 500000 : Duration) < .ofMillis 1 := by decide
  have hfirst : short.jittered = .ok (.ofNanos 3500000) := by decide +kernel
  refine ⟨⟨htaken, hspan, (hbounds [1, 2, 3] 4 _ htaken hspan).2⟩, ⟨hlong, hunraised, ?_⟩, hcap,
    hfirst, ?_, ?_⟩
  · exact (hcapped (.ofMillis 20) { hand := 100 }).1 hlong hunraised
  · exact ((hshort (.ofMillis 3) {}).2 hcap _ hfirst).1 (by decide)
  · exact ((hshort (.ofMillis 4) {}).2 hcap _ hfirst).2 (by decide)

/-- A first wait of ten times the cap, a second wait of nothing, and with such waits a policy that
grants all attempts that it can count before its end. -/
theorem unpaced_of_extremes :
    let silent : Words := {}
    let idle := start .zero .zero false silent
    let waiter := Waiter.start (.ofMillis 10) idle {}
    ((start (.ofSeconds 10) (.ofSeconds 1) false silent).wait 1).1 = .ok (.ofSeconds 10) ∧
      (max (.ofSeconds 1) (.ofMillis 1) : Duration).withTenth < (.ofSeconds 10 : Duration).nanos ∧
      ((idle.called [1]).wait 2).1 = .ok .zero ∧ (.zero : Duration) < .ofMillis 1 ∧
      (∀ count, count + 1 < UInt32.size → (waiter.after count).asked.granted = .ok true) ∧
      (waiter.after (UInt32.size - 1)).asked.granted = .error .countOverflow := by
  intro silent idle waiter
  have hfirst : idle.jittered = .ok (.ofMillis 1) := by decide +kernel
  have hstops : waiter.Stops UInt32.size := (stops_of_short (by decide) hfirst).2 (by decide)
  exact ⟨by decide +kernel, by decide +kernel, by decide +kernel, by decide,
    fun count hcount => hstops.granted count (Nat.lt_of_succ_lt hcount) hcount,
    hstops.full (Nat.le_refl _)⟩

end ExponentialWait

end Pooling
