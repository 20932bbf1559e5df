import Pooling.Proofs.Retry.Deadlines
import Pooling.Proofs.Retry.Doubling

/-!
When an attempt raises: where there are more attempts than a policy can count, and where a wait and
its jitter are longer than any span. In all other cases it is granted or refused.
-/

namespace Pooling

namespace CountingRetry

variable {β : Type} [Pausing β]

theorem attempt_full {policy : CountingRetry β} (hmade : policy.attempts ≠ 0)
    (hleft : policy.attempts ≤ policy.maxRetries)
    (hfull : ¬ policy.attempts.toNat + 1 < UInt32.size) (time : Timeline) :
    policy.attempt time =
      ⟨.error .countOverflow,
        { policy with backoff := (Pausing.pause policy.attempts policy.backoff).2 },
        time.sleep (Pausing.pause policy.attempts policy.backoff).1 policy.sleeper⟩ := by
  rw [attempt, if_neg (UInt32.not_lt.mpr hleft), if_neg hmade]
  simp only [grant, nextCount?, if_neg hfull]

end CountingRetry

namespace Tenure

variable {β : Type} [Pausing β]

/-- What a policy counts and grants, for any number of retries. -/
structure Tallies (tenure : Tenure β) (maxRetries : UInt32) : Prop where
  maxRetries_eq : tenure.policy.maxRetries = maxRetries
  attempts_eq : tenure.policy.attempts.toNat = tenure.granted

variable {tenure : Tenure β} {maxRetries : UInt32}

/-- An attempt after so many granted ones. -/
def verdict (maxRetries : UInt32) (granted : Nat) : Except Abort Bool :=
  if maxRetries.toNat < granted then .ok false
  else if granted + 1 < UInt32.size then .ok true
  else .error .countOverflow

/-- The verdict on an attempt, and what the policy counts after it. -/
theorem Tallies.asked (htallies : tenure.Tallies maxRetries) (time : Timeline) :
    (tenure.policy.attempt time).granted = verdict maxRetries tenure.granted ∧
      (tenure.after (.attempt time)).Tallies maxRetries := by
  obtain ⟨rfl, hattempts⟩ := htallies
  rw [verdict, ← hattempts]
  rcases UInt32.lt_or_le tenure.policy.maxRetries tenure.policy.attempts with hspent | hleft
  · have hrefused := CountingRetry.attempt_refused hspent time
    rw [if_pos (UInt32.lt_iff_toNat_lt.mp hspent)]
    simp only [after, hrefused]
    exact ⟨trivial, rfl, hattempts⟩
  rw [if_neg (Nat.not_lt.mpr (UInt32.le_iff_toNat_le.mp hleft))]
  by_cases hfits : tenure.policy.attempts.toNat + 1 < UInt32.size
  · rw [if_pos hfits]
    by_cases hfresh : tenure.policy.attempts = 0
    · have hfirst := CountingRetry.attempt_first hfresh time
      simp only [after, hfirst]
      rw [hfresh] at hattempts
      exact ⟨trivial, rfl, congrArg Nat.succ hattempts⟩
    · have hlater := CountingRetry.attempt_later hfresh hleft hfits time
      simp only [after, hlater]
      refine ⟨trivial, rfl, ?_⟩
      rw [UInt32.toNat_add, UInt32.toNat_one, Nat.mod_eq_of_lt hfits, hattempts]
  · have hmade : tenure.policy.attempts ≠ 0 := by
      intro hfresh
      rw [hfresh] at hfits
      exact hfits (by decide)
    have hfull := CountingRetry.attempt_full hmade hleft hfits time
    rw [if_neg hfits]
    simp only [after, hfull]
    exact ⟨trivial, rfl, hattempts⟩

theorem tallies_of_uses (uses : List Use) (htallies : tenure.Tallies maxRetries) :
    (uses.foldl after tenure).Tallies maxRetries := by
  induction uses generalizing tenure with
  | nil => exact htallies
  | cons use uses ih =>
      apply ih
      cases use with
      | attempt time => exact (htallies.asked time).2
      | reset => exact ⟨htallies.maxRetries_eq, rfl⟩

omit [Pausing β] in
theorem tallies_start (maxRetries : UInt32) (backoff : β) (sleeper : Sleeper) :
    (start maxRetries backoff sleeper).Tallies maxRetries :=
  ⟨rfl, rfl⟩

theorem Tallies.raised_iff (htallies : tenure.Tallies maxRetries) (time : Timeline)
    {abort : Abort} : (tenure.policy.attempt time).granted = .error abort ↔
      abort = .countOverflow ∧ maxRetries.toNat + 1 = UInt32.size ∧
        tenure.granted + 1 = UInt32.size := by
  have hmax := maxRetries.toNat_lt
  have hgranted := tenure.policy.attempts.toNat_lt
  rw [htallies.attempts_eq] at hgranted
  rw [(htallies.asked time).1, verdict, UInt32.size]
  split
  next hspent =>
    refine ⟨fun heq => ?_, fun hall => by omega⟩
    cases heq
  next hleft =>
    split
    next hfits =>
      refine ⟨fun heq => ?_, fun hall => by omega⟩
      cases heq
    next hfull =>
      rw [Except.error.injEq, eq_comm]
      exact ⟨fun heq => ⟨heq, by omega, by omega⟩, fun hall => hall.1⟩

theorem granted_replicate (backoff : β) (sleeper : Sleeper) (time : Timeline) {count : Nat}
    (hle : count ≤ maxRetries.toNat + 1) (hlt : count < UInt32.size) :
    ((List.replicate count (.attempt time)).foldl after
      (start maxRetries backoff sleeper)).granted = count := by
  induction count with
  | zero => rfl
  | succ count ih =>
      have htallies := tallies_of_uses (List.replicate count (.attempt time))
        (tallies_start maxRetries backoff sleeper)
      have hcount := ih (by omega) (by omega)
      rw [List.replicate_succ', List.foldl_append]
      generalize (List.replicate count (.attempt time)).foldl after
        (start maxRetries backoff sleeper) = tenure at htallies hcount
      have hgranted : (tenure.policy.attempt time).granted = .ok true := by
        rw [(htallies.asked time).1, verdict, hcount, if_neg (by omega), if_pos hlt]
      simp only [List.foldl_cons, List.foldl_nil, after, hgranted, hcount]

theorem raised_replicate (backoff : β) (sleeper : Sleeper) (time : Timeline) {count : Nat}
    (hmax : maxRetries.toNat + 1 = UInt32.size) (hfull : count + 1 = UInt32.size) :
    (((List.replicate count (.attempt time)).foldl after
      (start maxRetries backoff sleeper)).policy.attempt time).granted = .error .countOverflow := by
  have htallies := tallies_of_uses (List.replicate count (.attempt time))
    (tallies_start maxRetries backoff sleeper)
  rw [htallies.raised_iff, granted_replicate backoff sleeper time (by omega) (by omega)]
  exact ⟨rfl, hmax, hfull⟩

end Tenure

namespace TimeBoundedRetry

section

variable {ω : Type} [Waiting ω]

/-- Before its end, a policy raises what its strategy raises, and once it cannot count further. -/
theorem raised_iff {policy : TimeBoundedRetry ω} {time : Timeline} {abort : Abort} :
    (policy.attempt time).granted = .error abort ↔
      policy.attempts ≠ 0 ∧ time.read policy.context.clock < policy.deadline ∧
        (policy.proposed.1 = .error abort ∨
          abort = .countOverflow ∧ policy.attempts.toNat + 1 = UInt32.size ∧
            ∃ span, policy.proposed.1 = .ok span) := by
  have hcount := policy.attempts.toNat_lt
  have hattempted := policy.attempted time
  generalize policy.attempt time = asked at hattempted ⊢
  cases hattempted with
  | first hfresh =>
      refine ⟨fun heq => ?_, fun hall => absurd hfresh hall.1⟩
      cases heq
  | refused _ hlate =>
      refine ⟨fun heq => ?_, fun hall => absurd hall.2.1 (UInt64.not_lt.mpr hlate)⟩
      cases heq
  | raised hmade hearly hraised =>
      constructor
      · intro heq
        cases heq
        exact ⟨hmade, hearly, .inl hraised⟩
      · rintro ⟨-, -, hother | ⟨-, -, span, hspan⟩⟩
        · cases hraised.symm.trans hother
          rfl
        · cases hraised.symm.trans hspan
  | granted hmade hearly hspan hfits =>
      refine ⟨fun heq => ?_, ?_⟩
      · cases heq
      · rintro ⟨-, -, hraised | ⟨-, hfull, -⟩⟩
        · cases hspan.symm.trans hraised
        · exact absurd hfull (Nat.ne_of_lt hfits)
  | full hmade hearly hspan hfull =>
      constructor
      · intro heq
        cases heq
        refine ⟨hmade, hearly, .inr ⟨rfl, ?_, _, hspan⟩⟩
        rw [UInt32.size] at hfull ⊢
        omega
      · rintro ⟨-, -, hraised | ⟨rfl, -, -⟩⟩
        · cases hspan.symm.trans hraised
        · rfl

theorem wait_attempt (policy : TimeBoundedRetry ω) (time : Timeline) :
    (policy.attempt time).policy.wait = policy.wait ∨
      (policy.attempt time).policy.wait = policy.proposed.2 := by
  have hattempted := policy.attempted time
  generalize policy.attempt time = asked at hattempted ⊢
  cases hattempted with
  | first => exact .inl rfl
  | refused => exact .inl rfl
  | raised => exact .inr rfl
  | granted => exact .inr rfl
  | full => exact .inr rfl

/-- A wait that the strategy gives is cut down to the time that is left. -/
theorem time_attempt {policy : TimeBoundedRetry ω} {time : Timeline} (hmade : policy.attempts ≠ 0)
    (hearly : time.read policy.context.clock < policy.deadline) {span : Duration}
    (hspan : policy.proposed.1 = .ok span) :
    (policy.attempt time).time = policy.sleepFor (min span (policy.remaining time)) time := by
  by_cases hfits : policy.attempts.toNat + 1 < UInt32.size
  · rw [attempt_granted hmade hearly hspan hfits]
  · rw [attempt_full hmade hearly hspan hfits]

end

open ExponentialWait

section

variable {initial cap : Duration} {skipInitial : Bool} {words : Words}
  {policy : TimeBoundedRetry ExponentialWait}

theorem proposed_skipped (hskips : policy.wait.skips policy.attempts = true) :
    policy.proposed = (.ok .zero, policy.wait) :=
  wait_skipped hskips

theorem proposed_standing {made : Nat}
    (hwait : policy.wait = standing initial cap skipInitial words made)
    (htaken : (skipInitial && policy.attempts ≤ 1) = false) :
    policy.proposed = ((standing initial cap skipInitial words made).jittered,
      standing initial cap skipInitial words (made + 1)) := by
  rw [← wait_standing initial cap words made htaken, ← hwait]
  rfl

theorem exists_standing_attempt
    (hstands : ∃ made, policy.wait = standing initial cap skipInitial words made)
    (time : Timeline) : ∃ made,
      (policy.attempt time).policy.wait = standing initial cap skipInitial words made := by
  obtain ⟨made, hwait⟩ := hstands
  rcases policy.wait_attempt time with hsame | hnext
  · exact ⟨made, hsame.trans hwait⟩
  · rw [hnext]
    cases htaken : skipInitial && decide (policy.attempts ≤ 1) with
    | true =>
        have hskips : policy.wait.skips policy.attempts = true := by rwa [hwait]
        rw [proposed_skipped hskips]
        exact ⟨made, hwait⟩
    | false =>
        rw [proposed_standing hwait htaken]
        exact ⟨made + 1, rfl⟩

theorem raised_standing_iff {made : Nat}
    (hwait : policy.wait = standing initial cap skipInitial words made) {time : Timeline}
    {abort : Abort} : (policy.attempt time).granted = .error abort ↔
      policy.attempts ≠ 0 ∧ time.read policy.context.clock < policy.deadline ∧
        (abort = .spanOverflow ∧ ¬ (skipInitial = true ∧ policy.attempts.toNat ≤ 1) ∧
            Duration.maxNanos < length initial cap words made ∨
          abort = .countOverflow ∧ policy.attempts.toNat + 1 = UInt32.size ∧
            length initial cap words made ≤ Duration.maxNanos) := by
  have hone : policy.attempts ≤ 1 ↔ policy.attempts.toNat ≤ 1 := UInt32.le_iff_toNat_le
  rw [raised_iff, ← hone]
  apply and_congr_right
  intro hmade
  apply and_congr_right
  intro hearly
  by_cases hskips : skipInitial = true ∧ policy.attempts ≤ 1
  · have hproposed : policy.proposed.1 = .ok .zero := by
      rw [proposed_skipped]
      rw [hwait]
      exact Bool.and_eq_true_iff.mpr ⟨hskips.1, decide_eq_true hskips.2⟩
    -- A skipped attempt is the first or the second, and so it is not the last that can be counted.
    have hfew : policy.attempts.toNat + 1 ≠ UInt32.size := by
      have := hone.mp hskips.2
      rw [UInt32.size]
      omega
    rw [hproposed]
    constructor
    · rintro (hraised | ⟨-, hfull, -⟩)
      · cases hraised
      · exact absurd hfull hfew
    · rintro (⟨-, htaken, -⟩ | ⟨-, hfull, -⟩)
      · exact absurd hskips htaken
      · exact absurd hfull hfew
  · have htaken : (skipInitial && policy.attempts ≤ 1) = false := by
      rw [← Bool.not_eq_true, Bool.and_eq_true_iff, decide_eq_true_eq]
      exact hskips
    rw [proposed_standing hwait htaken, jittered_eq_error_iff, exists_jittered_iff]
    simp only [hskips, not_false_eq_true, true_and]

/-- No attempt raises where the longest wait and a tenth fit in a span, as long as the policy can
count it. -/
theorem exists_granted_of_fits
    (hstands : ∃ made, policy.wait = standing initial cap skipInitial words made)
    (hfits : (max (base initial cap 0) cap).withTenth ≤ Duration.maxNanos)
    (hcount : policy.attempts.toNat + 1 < UInt32.size) (time : Timeline) :
    ∃ answer, (policy.attempt time).granted = .ok answer := by
  obtain ⟨made, hwait⟩ := hstands
  cases hgranted : (policy.attempt time).granted with
  | ok answer => exact ⟨answer, rfl⟩
  | error abort =>
      obtain ⟨-, -, ⟨-, -, hlong⟩ | ⟨-, hfull, -⟩⟩ := (raised_standing_iff hwait).mp hgranted
      · exact absurd (length_le_of_fits initial cap words hfits made) (Nat.not_le.mpr hlong)
      · exact absurd hfull (Nat.ne_of_lt hcount)

end

namespace Stint

variable {initial cap : Duration} {skipInitial : Bool} {words : Words}
  {stint : Stint ExponentialWait}

theorem exists_standing_of_times (times : List Timeline)
    (hstands : ∃ made, stint.policy.wait = standing initial cap skipInitial words made) :
    ∃ made, (times.foldl after stint).policy.wait =
      standing initial cap skipInitial words made := by
  induction times generalizing stint with
  | nil => exact hstands
  | cons time times ih =>
      apply ih
      have hattempt := exists_standing_attempt hstands time
      simp only [after]
      split <;> exact hattempt

variable {context : TimeContext} {deadline : Reading}

theorem Counts.granted_replicate (hcounts : stint.Counts context deadline)
    (hnone : stint.granted = 0)
    (hstands : ∃ made, stint.policy.wait = standing initial cap skipInitial words made)
    (hfits : (max (base initial cap 0) cap).withTenth ≤ Duration.maxNanos)
    {time : Timeline} (hearly : time.read context.clock < deadline) {count : Nat}
    (hlt : count < UInt32.size) :
    ((List.replicate count time).foldl Stint.after stint).granted = count := by
  induction count with
  | zero => exact hnone
  | succ count ih =>
      have hlater := counts_of_times (List.replicate count time) hcounts
      have hstands := exists_standing_of_times (List.replicate count time) hstands
      have hcount := ih (Nat.lt_of_succ_lt hlt)
      rw [List.replicate_succ', List.foldl_append]
      generalize (List.replicate count time).foldl Stint.after stint = stint
        at hlater hstands hcount
      have htimed := hlater.timed
      rw [← hcount, ← hlater.attempts_eq] at hlt
      obtain ⟨answer, hanswer⟩ := exists_granted_of_fits hstands hfits hlt time
      cases answer with
      | true => simp only [List.foldl_cons, List.foldl_nil, Stint.after, hanswer, hcount]
      | false =>
          rcases Nat.eq_zero_or_pos stint.granted with hnone | hsome
          · rw [htimed.first hnone time] at hanswer
            cases hanswer
          · have hlate := (htimed.refused_iff hsome time).mp hanswer
            exact absurd hearly (UInt64.not_lt.mpr hlate)

theorem Counts.raised_replicate (hcounts : stint.Counts context deadline)
    (hnone : stint.granted = 0)
    (hstands : ∃ made, stint.policy.wait = standing initial cap skipInitial words made)
    (hfits : (max (base initial cap 0) cap).withTenth ≤ Duration.maxNanos)
    {time : Timeline} (hearly : time.read context.clock < deadline) {count : Nat}
    (hfull : count + 1 = UInt32.size) :
    (((List.replicate count time).foldl Stint.after stint).policy.attempt time).granted =
      .error .countOverflow := by
  have hlater := counts_of_times (List.replicate count time) hcounts
  have hgranted := hcounts.granted_replicate hnone hstands hfits hearly
    (Nat.lt_of_succ_le (Nat.le_of_eq hfull))
  obtain ⟨made, hwait⟩ := exists_standing_of_times (List.replicate count time) hstands
  have hmade : ((List.replicate count time).foldl Stint.after stint).policy.attempts ≠ 0 := by
    rw [Ne, hlater.fresh_iff, hgranted]
    rintro rfl
    cases hfull
  rw [raised_standing_iff hwait, hlater.context_eq, hlater.deadline_eq, hlater.attempts_eq,
    hgranted]
  exact ⟨hmade, hearly, .inr ⟨rfl, hfull, length_le_of_fits initial cap words hfits made⟩⟩

end Stint

end TimeBoundedRetry

open TimeBoundedRetry ExponentialWait

/-- In which states an attempt raises, whatever the clock reads and whatever words are drawn: with a
policy that counts, where it permits as many attempts as there are counts and has granted one less;
with an exponential one that is bounded by time, before its end, where the wait and its jitter are
longer than any span, or where it has granted as many attempts as it can count. In all other states
the attempt is granted or refused, and a wait past the end is cut down to the time that is left. -/
theorem raised_iff_of_attempts (β : Type) [Pausing β] :
    (∀ (maxRetries : UInt32) (backoff : β) (sleeper : Sleeper) (uses : List Use)
        (time : Timeline) (abort : Abort),
      let tenure := uses.foldl Tenure.after (Tenure.start maxRetries backoff sleeper)
      (tenure.policy.attempt time).granted = .error abort ↔
        abort = .countOverflow ∧ maxRetries.toNat + 1 = UInt32.size ∧
          tenure.granted + 1 = UInt32.size) ∧
    ∀ (plan : ExponentialPlan) (origin : Timeline) (times : List Timeline),
      let policy := plan.start origin
      let stint := times.foldl Stint.after ⟨policy, 0⟩
      (∃ made,
        stint.policy.wait =
          standing plan.initialSleep plan.maxSleep plan.skipInitial plan.words made ∧
        ∀ time abort, (stint.policy.attempt time).granted = .error abort ↔
          0 < stint.granted ∧ time.read plan.context.clock < policy.deadline ∧
            (abort = .spanOverflow ∧ ¬ (plan.skipInitial = true ∧ stint.granted ≤ 1) ∧
                Duration.maxNanos < length plan.initialSleep plan.maxSleep plan.words made ∨
              abort = .countOverflow ∧ stint.granted + 1 = UInt32.size ∧
                length plan.initialSleep plan.maxSleep plan.words made ≤ Duration.maxNanos)) ∧
      (∀ time span, 0 < stint.granted → time.read plan.context.clock < policy.deadline →
        stint.policy.proposed.1 = .ok span →
          (stint.policy.attempt time).time =
            stint.policy.sleepFor (min span (stint.policy.remaining time)) time) ∧
      ((max (max plan.initialSleep (.ofMillis 1)) plan.maxSleep).withTenth ≤ Duration.maxNanos →
        stint.granted + 1 < UInt32.size →
          ∀ time, ∃ answer, (stint.policy.attempt time).granted = .ok answer) := by
  refine ⟨fun maxRetries backoff sleeper uses time abort => ?_, fun plan origin times => ?_⟩
  · have htallies := Tenure.tallies_of_uses uses (Tenure.tallies_start maxRetries backoff sleeper)
    exact htallies.raised_iff time
  intro policy stint
  have hcounts : stint.Counts plan.context policy.deadline :=
    Stint.counts_of_times times ⟨rfl, rfl, rfl⟩
  have hstands : ∃ made, stint.policy.wait =
      standing plan.initialSleep plan.maxSleep plan.skipInitial plan.words made :=
    Stint.exists_standing_of_times times ⟨0, rfl⟩
  have hmade : stint.policy.attempts ≠ 0 ↔ 0 < stint.granted := by
    rw [Nat.pos_iff_ne_zero]
    exact not_congr hcounts.fresh_iff
  refine ⟨?_, fun time span hgranted hearly hspan => ?_, fun hfits hcount time => ?_⟩
  · obtain ⟨made, hwait⟩ := hstands
    refine ⟨made, hwait, fun time abort => ?_⟩
    rw [raised_standing_iff hwait, hmade, hcounts.context_eq, hcounts.deadline_eq,
      hcounts.attempts_eq]
  · rw [← hcounts.context_eq, ← hcounts.deadline_eq] at hearly
    exact time_attempt (hmade.mpr hgranted) hearly hspan
  · rw [← hcounts.attempts_eq] at hcount
    exact exists_granted_of_fits hstands hfits hcount time

/-- A plan whose waits are longer than all the time it has, and whose first one is skipped. -/
def hastyPlan : ExponentialPlan where
  context := .hand
  maxDuration := .ofMillis 20
  initialSleep := .ofNanos 30500000
  maxSleep := .ofSeconds 1
  skipInitial := true
  words := { list := [UInt64.ofNat (UInt64.size - 1)] }

theorem raised_of_hastyPlan :
    let stint := [{ hand := 100 }, { hand := 101 }].foldl Stint.after
      ⟨hastyPlan.start { hand := 100 }, 0⟩
    (0 < stint.granted ∧ stint.granted + 1 < UInt32.size ∧
        stint.policy.proposed.1 = .ok (.ofNanos 33500000) ∧
        (max (max hastyPlan.initialSleep (.ofMillis 1)) hastyPlan.maxSleep).withTenth ≤
          Duration.maxNanos) ∧
      (stint.policy.attempt { hand := 105 }).time.slept = [.ofMillis 15] ∧
      (∀ time, ∃ answer, (stint.policy.attempt time).granted = .ok answer) ∧
      let tenure := [.attempt {}, .attempt {}, .attempt {}].foldl Tenure.after
        (Tenure.start 4294967295 Backoff.none .recording)
      ∀ time abort, (tenure.policy.attempt time).granted ≠ .error abort := by
  obtain ⟨hcounting, htimed⟩ := raised_iff_of_attempts Backoff
  obtain ⟨-, hcut, hanswer⟩ :=
    htimed hastyPlan { hand := 100 } [{ hand := 100 }, { hand := 101 }]
  have hfits : (max (max hastyPlan.initialSleep (.ofMillis 1)) hastyPlan.maxSleep).withTenth ≤
      Duration.maxNanos := by decide +kernel
  refine ⟨⟨by decide, by decide, by decide +kernel, hfits⟩, ?_, hanswer hfits (by decide),
    fun time abort hraised => ?_⟩
  · rw [hcut { hand := 105 } (.ofNanos 33500000) (by decide) (by decide) (by decide +kernel)]
    decide +kernel
  · obtain ⟨-, -, hgranted⟩ := (hcounting 4294967295 .none .recording
      [.attempt {}, .attempt {}, .attempt {}] time abort).mp hraised
    exact absurd hgranted (by decide)

def unhurriedPlan : ExponentialPlan := { context := .hand }

def longestPlan : ExponentialPlan where
  context := .hand
  initialSleep := .longest
  maxSleep := .longest
  words := { list := [UInt64.ofNat (UInt64.size - 1)] }

/-- Policies that raise: one that may try again as often as can be counted, one whose wait is as
long as can be and gets some jitter, and one that is asked too often before its end. -/
theorem raises_in_reach :
    (((List.replicate 4294967295 (.attempt {})).foldl Tenure.after
        (Tenure.start 4294967295 Backoff.none .recording)).policy.attempt {}).granted =
      .error .countOverflow ∧
    (([{}].foldl Stint.after ⟨longestPlan.start {}, 0⟩).policy.attempt {}).granted =
      .error .spanOverflow ∧
    (((List.replicate 4294967295 {}).foldl Stint.after
        ⟨unhurriedPlan.start {}, 0⟩).policy.attempt {}).granted =
      .error .countOverflow := by
  have hmax : (4294967295 : UInt32).toNat + 1 = UInt32.size := by decide
  have hfull : 4294967295 + 1 = UInt32.size := by decide
  have hfits : (max (base unhurriedPlan.initialSleep unhurriedPlan.maxSleep 0)
      unhurriedPlan.maxSleep).withTenth ≤ Duration.maxNanos := by decide +kernel
  have hearly : ({} : Timeline).read .hand < (unhurriedPlan.start {}).deadline := by decide
  have hcounts : Stint.Counts ⟨unhurriedPlan.start {}, 0⟩ .hand (unhurriedPlan.start {}).deadline :=
    ⟨rfl, rfl, rfl⟩
  have hstands : ∃ made, (unhurriedPlan.start {}).wait = standing unhurriedPlan.initialSleep
      unhurriedPlan.maxSleep unhurriedPlan.skipInitial unhurriedPlan.words made := ⟨0, rfl⟩
  refine ⟨Tenure.raised_replicate Backoff.none .recording {} hmax hfull, by decide +kernel, ?_⟩
  exact hcounts.raised_replicate rfl hstands hfits hearly hfull

end Pooling
