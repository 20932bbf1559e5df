import Pooling.Proofs.Runs
import Pooling.Retry.Policy

/-!
How many attempts a policy that counts them grants, and what it sleeps before each: one attempt more
than its retries from one reset to the next, and the first of them at once.
-/

namespace Pooling

namespace Words

def ahead (words : Words) : Nat → UInt64
  | 0 => words.next.1
  | count + 1 => words.next.2.ahead count

end Words

namespace Backoff

/-- The same schedule, drawing from other words. -/
def fed (words : Words) : Backoff → Backoff
  | exponential base cap _ => exponential base cap words
  | backoff => backoff

/-- Two schedules whose pauses are the same from now on. -/
inductive Alike : Backoff → Backoff → Prop
  | none : Alike none none
  | fixed (span : Duration) : Alike (fixed span) (fixed span)
  | exponential (base cap : Duration) {first second : Words}
      (hahead : ∀ count, first.ahead count = second.ahead count) :
      Alike (exponential base cap first) (exponential base cap second)

theorem Alike.pause {first second : Backoff} (halike : first.Alike second) (attempts : UInt32) :
    (first.pause attempts).1 = (second.pause attempts).1 ∧
      (first.pause attempts).2.Alike (second.pause attempts).2 := by
  cases halike with
  | none => exact ⟨rfl, .none⟩
  | fixed span => exact ⟨rfl, .fixed span⟩
  | @exponential base cap first second hahead =>
      have hnext : first.next.1 = second.next.1 := hahead 0
      refine ⟨?_, .exponential base cap fun count => hahead (count + 1)⟩
      simp only [Backoff.pause, hnext]

theorem alike_fed (plan : Backoff) {first second : Words}
    (hahead : ∀ count, first.ahead count = second.ahead count) :
    (plan.fed first).Alike (plan.fed second) := by
  cases plan with
  | none => exact .none
  | fixed span => exact .fixed span
  | exponential base cap words => exact .exponential base cap hahead

/-- A schedule that has paused differs from a new one in its words at most. -/
theorem exists_fed_pause (plan : Backoff) (words : Words) (attempts : UInt32) :
    ∃ later, ((plan.fed words).pause attempts).2 = plan.fed later := by
  cases plan with
  | none => exact ⟨words, rfl⟩
  | fixed span => exact ⟨words, rfl⟩
  | exponential base cap own => exact ⟨words.next.2, rfl⟩

theorem exists_fed (plan : Backoff) : ∃ words, plan = plan.fed words := by
  cases plan with
  | none => exact ⟨{}, rfl⟩
  | fixed span => exact ⟨{}, rfl⟩
  | exponential base cap words => exact ⟨words, rfl⟩

theorem fed_fed (plan : Backoff) (first second : Words) :
    (plan.fed first).fed second = plan.fed second := by
  cases plan <;> rfl

theorem fed_of_not_exponential {plan : Backoff}
    (hplan : ∀ base cap words, plan ≠ exponential base cap words) (words : Words) :
    plan.fed words = plan := by
  cases plan with
  | none => rfl
  | fixed span => rfl
  | exponential base cap own => exact absurd rfl (hplan base cap own)

end Backoff

/-- What a caller does with a policy that counts. Any time may have gone by before an attempt. -/
inductive Use where
  | attempt (time : Timeline)
  | reset

namespace CountingRetry

variable {β : Type} [Pausing β]

/-- Whether an attempt is granted, and the time after the sleep; nothing for a reset. -/
def perform (use : Use) (policy : CountingRetry β) :
    Option (Except Abort Bool × Timeline) × Option (CountingRetry β) :=
  match use with
  | .attempt time =>
      let asked := policy.attempt time
      (some (asked.granted, asked.time), some asked.policy)
  | .reset => (none, some policy.reset)

theorem attempt_refused {policy : CountingRetry β} (hspent : policy.maxRetries < policy.attempts)
    (time : Timeline) : policy.attempt time = ⟨.ok false, policy, time⟩ := by
  rw [attempt, if_pos hspent]

theorem attempt_first {policy : CountingRetry β} (hfresh : policy.attempts = 0)
    (time : Timeline) :
    policy.attempt time = ⟨.ok true, { policy with attempts := 1 }, time⟩ := by
  have hspent : ¬ policy.maxRetries < policy.attempts := by
    rw [hfresh]
    exact UInt32.not_lt_zero
  rw [attempt, if_neg hspent, if_pos hfresh, grant, hfresh]
  rfl

theorem attempt_later {policy : CountingRetry β} (hmade : policy.attempts ≠ 0)
    (hleft : policy.attempts ≤ policy.maxRetries) (hfits : policy.attempts.toNat + 1 < UInt32.size)
    (time : Timeline) :
    policy.attempt time =
      ⟨.ok true,
        { policy with
          attempts := policy.attempts + 1
          backoff := (Pausing.pause policy.attempts policy.backoff).2 },
        time.sleep (Pausing.pause policy.attempts policy.backoff).1 policy.sleeper⟩ := by
  rw [attempt, if_neg (UInt32.not_lt.mpr hleft), if_neg hmade]
  simp only [grant, nextCount?, if_pos hfits]

/-- Two policies that differ at most in where their words come from. -/
structure Alike (first second : CountingRetry Backoff) : Prop where
  maxRetries_eq : first.maxRetries = second.maxRetries
  attempts_eq : first.attempts = second.attempts
  sleeper_eq : first.sleeper = second.sleeper
  backoff : first.backoff.Alike second.backoff

theorem Alike.attempt {first second : CountingRetry Backoff} (halike : first.Alike second)
    (time : Timeline) :
    (first.attempt time).granted = (second.attempt time).granted ∧
      (first.attempt time).time = (second.attempt time).time ∧
      (first.attempt time).policy.Alike (second.attempt time).policy := by
  obtain ⟨hmax, hattempts, hsleeper, hbackoff⟩ := halike
  have hspan : (Pausing.pause second.attempts first.backoff).1 =
      (Pausing.pause second.attempts second.backoff).1 := (hbackoff.pause second.attempts).1
  have hnext := (hbackoff.pause second.attempts).2
  simp only [CountingRetry.attempt, grant, hmax, hattempts, hsleeper]
  split
  next => exact ⟨rfl, rfl, hmax, hattempts, hsleeper, hbackoff⟩
  next =>
    split
    next =>
      split
      next => exact ⟨rfl, rfl, rfl, rfl, rfl, hbackoff⟩
      next => exact ⟨rfl, rfl, hmax, hattempts, hsleeper, hbackoff⟩
    next =>
      rw [hspan]
      split
      next => exact ⟨rfl, rfl, rfl, rfl, rfl, hnext⟩
      next => exact ⟨rfl, rfl, rfl, rfl, rfl, hnext⟩

theorem Alike.answers {first second : CountingRetry Backoff} (halike : first.Alike second)
    (uses : List Use) : Runs.answers perform uses first = Runs.answers perform uses second := by
  induction uses generalizing first second with
  | nil => rfl
  | cons use uses ih =>
      cases use with
      | attempt time =>
          obtain ⟨hgranted, htime, hnext⟩ := halike.attempt time
          simp only [Runs.answers, perform, Option.elim_some, hgranted, htime, ih hnext]
      | reset =>
          have hreset : first.reset.Alike second.reset :=
            ⟨halike.maxRetries_eq, rfl, halike.sleeper_eq, halike.backoff⟩
          simp only [Runs.answers, perform, Option.elim_some, ih hreset]

end CountingRetry

/-- A policy, and how many attempts it has granted since it was made or last reset. -/
structure Tenure (β : Type) where
  policy : CountingRetry β
  granted : Nat := 0

namespace Tenure

variable {β : Type} [Pausing β]

def after (tenure : Tenure β) : Use → Tenure β
  | .attempt time =>
      let asked := tenure.policy.attempt time
      match asked.granted with
      | .ok true => ⟨asked.policy, tenure.granted + 1⟩
      | _ => ⟨asked.policy, tenure.granted⟩
  | .reset => ⟨tenure.policy.reset, 0⟩

def start (maxRetries : UInt32) (backoff : β) (sleeper : Sleeper) : Tenure β where
  policy := { maxRetries, backoff, sleeper }

/-- The policy counts the attempts that it has granted, up to one more than its retries. -/
structure Counts (tenure : Tenure β) (maxRetries : UInt32) (sleeper : Sleeper) : Prop where
  maxRetries_eq : tenure.policy.maxRetries = maxRetries
  sleeper_eq : tenure.policy.sleeper = sleeper
  attempts_eq : tenure.policy.attempts = UInt32.ofNat tenure.granted
  granted_le : tenure.granted ≤ maxRetries.toNat + 1

section

variable {tenure : Tenure β} {maxRetries : UInt32} {sleeper : Sleeper}

namespace Counts

omit [Pausing β] in
theorem toNat_attempts (hcounts : tenure.Counts maxRetries sleeper)
    (hmax : maxRetries.toNat + 1 < UInt32.size) :
    tenure.policy.attempts.toNat = tenure.granted := by
  have hle := hcounts.granted_le
  rw [hcounts.attempts_eq]
  exact UInt32.toNat_ofNat_of_lt (by omega)

theorem refused (hcounts : tenure.Counts maxRetries sleeper)
    (hmax : maxRetries.toNat + 1 < UInt32.size) (hspent : tenure.granted = maxRetries.toNat + 1)
    (time : Timeline) : tenure.policy.attempt time = ⟨.ok false, tenure.policy, time⟩ := by
  apply CountingRetry.attempt_refused
  rw [UInt32.lt_iff_toNat_lt, hcounts.toNat_attempts hmax, hcounts.maxRetries_eq]
  omega

theorem first (hcounts : tenure.Counts maxRetries sleeper) (hnone : tenure.granted = 0)
    (time : Timeline) :
    tenure.policy.attempt time = ⟨.ok true, { tenure.policy with attempts := 1 }, time⟩ := by
  apply CountingRetry.attempt_first
  rw [hcounts.attempts_eq, hnone]
  rfl

theorem later (hcounts : tenure.Counts maxRetries sleeper)
    (hmax : maxRetries.toNat + 1 < UInt32.size) {made : Nat} (hmade : tenure.granted = made + 1)
    (hleft : made < maxRetries.toNat) (time : Timeline) :
    tenure.policy.attempt time =
      ⟨.ok true,
        { tenure.policy with
          attempts := UInt32.ofNat (made + 2)
          backoff := (Pausing.pause (UInt32.ofNat (made + 1)) tenure.policy.backoff).2 },
        time.sleep (Pausing.pause (UInt32.ofNat (made + 1)) tenure.policy.backoff).1
          tenure.policy.sleeper⟩ := by
  have hcount := hcounts.toNat_attempts hmax
  have hattempts := hcounts.attempts_eq
  rw [hmade] at hattempts
  have hpos : tenure.policy.attempts ≠ 0 := by
    intro hzero
    rw [hzero, hmade] at hcount
    cases hcount
  have hle : tenure.policy.attempts ≤ tenure.policy.maxRetries := by
    rw [UInt32.le_iff_toNat_le, hcount, hcounts.maxRetries_eq]
    omega
  rw [CountingRetry.attempt_later hpos hle (by omega), hattempts, ← UInt32.ofNat_one,
    ← UInt32.ofNat_add]

theorem after (hcounts : tenure.Counts maxRetries sleeper)
    (hmax : maxRetries.toNat + 1 < UInt32.size) (use : Use) :
    (tenure.after use).Counts maxRetries sleeper := by
  cases use with
  | reset => exact ⟨hcounts.maxRetries_eq, hcounts.sleeper_eq, rfl, Nat.zero_le _⟩
  | attempt time =>
      have hle := hcounts.granted_le
      rcases Nat.lt_or_eq_of_le hle with hlt | hspent
      · cases hgranted : tenure.granted with
        | zero =>
            simp only [Tenure.after, hcounts.first hgranted time, hgranted]
            exact ⟨hcounts.maxRetries_eq, hcounts.sleeper_eq, rfl, Nat.succ_le_succ (Nat.zero_le _)⟩
        | succ made =>
            have hleft : made < maxRetries.toNat := by omega
            simp only [Tenure.after, hcounts.later hmax hgranted hleft time, hgranted]
            exact ⟨hcounts.maxRetries_eq, hcounts.sleeper_eq, rfl, Nat.succ_le_succ hleft⟩
      · simp only [Tenure.after, hcounts.refused hmax hspent time]
        exact hcounts

end Counts

omit [Pausing β] in
theorem counts_start (maxRetries : UInt32) (backoff : β) (sleeper : Sleeper) :
    (start maxRetries backoff sleeper).Counts maxRetries sleeper :=
  ⟨rfl, rfl, rfl, Nat.zero_le _⟩

theorem counts_of_uses (hmax : maxRetries.toNat + 1 < UInt32.size) (uses : List Use)
    (hcounts : tenure.Counts maxRetries sleeper) :
    (uses.foldl after tenure).Counts maxRetries sleeper := by
  induction uses generalizing tenure with
  | nil => exact hcounts
  | cons use uses ih => exact ih (hcounts.after hmax use)

/-- What a policy has granted so far decides what it answers next, in all of what it does. -/
structure Metered (tenure : Tenure β) (maxRetries : UInt32) (sleeper : Sleeper) : Prop where
  maxRetries_eq : tenure.policy.maxRetries = maxRetries
  sleeper_eq : tenure.policy.sleeper = sleeper
  attempts_eq : tenure.policy.attempts.toNat = tenure.granted
  granted_eq : ∀ time, (tenure.policy.attempt time).granted =
    .ok (decide (tenure.granted < maxRetries.toNat + 1))
  first : tenure.granted = 0 → ∀ time, tenure.policy.attempt time =
    ⟨.ok true, { tenure.policy with attempts := 1 }, time⟩
  later : ∀ made, tenure.granted = made + 1 → made < maxRetries.toNat → ∀ time,
    let paused := Pausing.pause (UInt32.ofNat (made + 1)) tenure.policy.backoff
    tenure.policy.attempt time =
      ⟨.ok true,
        { tenure.policy with attempts := UInt32.ofNat (made + 2), backoff := paused.2 },
        time.sleep paused.1 tenure.policy.sleeper⟩
  refused : tenure.granted = maxRetries.toNat + 1 → ∀ time, tenure.policy.attempt time =
    ⟨.ok false, tenure.policy, time⟩

theorem Counts.metered (hcounts : tenure.Counts maxRetries sleeper)
    (hmax : maxRetries.toNat + 1 < UInt32.size) : tenure.Metered maxRetries sleeper where
  maxRetries_eq := hcounts.maxRetries_eq
  sleeper_eq := hcounts.sleeper_eq
  attempts_eq := hcounts.toNat_attempts hmax
  granted_eq := by
    intro time
    rcases Nat.lt_or_eq_of_le hcounts.granted_le with hlt | hspent
    · rw [decide_eq_true hlt]
      cases hgranted : tenure.granted with
      | zero => rw [hcounts.first hgranted]
      | succ made => rw [hcounts.later hmax hgranted (by omega)]
    · rw [hcounts.refused hmax hspent, hspent, decide_eq_false (Nat.lt_irrefl _)]
  first := hcounts.first
  later := fun made hmade hleft => hcounts.later hmax hmade hleft
  refused := hcounts.refused hmax

end

/-! After a reset. -/

theorem backoff_after (tenure : Tenure Backoff) (use : Use) :
    (tenure.after use).policy.backoff = tenure.policy.backoff ∨
      ∃ attempts, (tenure.after use).policy.backoff =
        (tenure.policy.backoff.pause attempts).2 := by
  cases use with
  | reset => exact .inl rfl
  | attempt time =>
      have hattempt : (tenure.policy.attempt time).policy.backoff = tenure.policy.backoff ∨
          ∃ attempts, (tenure.policy.attempt time).policy.backoff =
            (tenure.policy.backoff.pause attempts).2 := by
        simp only [CountingRetry.attempt, CountingRetry.grant]
        split
        next => exact .inl rfl
        next =>
          split
          next =>
            left
            split <;> rfl
          next =>
            right
            refine ⟨tenure.policy.attempts, ?_⟩
            split <;> rfl
      simp only [Tenure.after]
      split <;> exact hattempt

/-- Whatever a policy was used for, its schedule is still the one that it was made with. -/
theorem exists_fed_of_uses (plan : Backoff) (uses : List Use) {tenure : Tenure Backoff}
    (hplan : ∃ words, tenure.policy.backoff = plan.fed words) :
    ∃ words, (uses.foldl after tenure).policy.backoff = plan.fed words := by
  induction uses generalizing tenure with
  | nil => exact hplan
  | cons use uses ih =>
      apply ih
      obtain ⟨words, hwords⟩ := hplan
      rcases tenure.backoff_after use with hsame | ⟨attempts, hpaused⟩
      · exact ⟨words, hsame.trans hwords⟩
      · obtain ⟨later, hlater⟩ := plan.exists_fed_pause words attempts
        refine ⟨later, ?_⟩
        rw [hpaused, hwords, hlater]

/-- A policy that counts grants one attempt more than its retries from one reset to the next: the
first at once, each other one after the pause that its schedule gives for the attempts before it, and
then none. A policy that has been reset is as good as new, for a schedule that draws no words or the
same words. -/
theorem metered_of_uses (maxRetries : UInt32) (hmax : maxRetries.toNat < 4294967295)
    (sleeper : Sleeper) :
    (∀ (backoff : β) (uses : List Use),
      (uses.foldl after (start maxRetries backoff sleeper)).Metered maxRetries sleeper) ∧
    ∀ (plan : Backoff) (uses : List Use),
      let spent := uses.foldl after (start maxRetries plan sleeper)
      ((∀ base cap words, plan ≠ .exponential base cap words) →
        spent.policy.reset = { maxRetries, backoff := plan, sleeper }) ∧
      ∀ first second : Words, (∀ count, first.ahead count = second.ahead count) →
        ∀ later : List Use,
          Runs.answers CountingRetry.perform later
              { spent.policy.reset with backoff := spent.policy.backoff.fed first } =
            Runs.answers CountingRetry.perform later
              { maxRetries, backoff := plan.fed second, sleeper } := by
  have hfits : maxRetries.toNat + 1 < UInt32.size := Nat.succ_lt_succ hmax
  refine ⟨fun backoff uses => ?_, fun plan uses => ?_⟩
  · exact (counts_of_uses hfits uses (counts_start maxRetries backoff sleeper)).metered hfits
  · have hcounts := counts_of_uses hfits uses (counts_start maxRetries plan sleeper)
    obtain ⟨words, hwords⟩ := exists_fed_of_uses plan uses
      (show ∃ words, (start maxRetries plan sleeper).policy.backoff = plan.fed words from
        plan.exists_fed)
    refine ⟨fun hplan => ?_, fun first second hahead later => ?_⟩
    · rw [Backoff.fed_of_not_exponential hplan] at hwords
      rw [CountingRetry.reset, hcounts.maxRetries_eq, hcounts.sleeper_eq, hwords]
    · apply CountingRetry.Alike.answers
      refine ⟨hcounts.maxRetries_eq, rfl, hcounts.sleeper_eq, ?_⟩
      rw [hwords, Backoff.fed_fed]
      exact plan.alike_fed hahead

/-- A schedule whose pauses are 10 ms and half as much again, doubled each time, below 50 ms. -/
def halves : Backoff :=
  .exponential (.ofMillis 10) (.ofMillis 50) { list := [UInt64.ofNat (1 <<< 63)] }

/-- Three attempts and one that is refused, then a reset and an attempt again. -/
def renewed : List Use :=
  [.attempt {}, .attempt {}, .attempt {}, .attempt {}, .reset, .attempt {}]

theorem metered_of_renewed :
    (2 : UInt32).toNat < 4294967295 ∧
      let spent := (renewed.take 4).foldl after (start 2 halves .recording)
      let again := renewed.foldl after (start 2 halves .recording)
      spent.granted = 3 ∧ (∀ time, spent.policy.attempt time = ⟨.ok false, spent.policy, time⟩) ∧
        again.granted = 1 ∧
        (∀ time, (again.policy.attempt time).time = time.sleep (.ofMillis 30) .recording) ∧
        ∀ words later,
          Runs.answers CountingRetry.perform later
              { spent.policy.reset with backoff := spent.policy.backoff.fed words } =
            Runs.answers CountingRetry.perform later
              { maxRetries := 2, backoff := halves.fed words, sleeper := .recording } := by
  have hmax : (2 : UInt32).toNat < 4294967295 := by decide
  obtain ⟨hmetered, hafter⟩ := metered_of_uses (β := Backoff) 2 hmax .recording
  have hspent : ((renewed.take 4).foldl after (start 2 halves .recording)).granted = 3 := by
    decide
  have hagain : (renewed.foldl after (start 2 halves .recording)).granted = 1 := by decide
  have hpaused : (Pausing.pause 1 (renewed.foldl after (start 2 halves .recording)).policy.backoff).1
      = .ofMillis 30 := by decide
  refine ⟨hmax, hspent, (hmetered halves (renewed.take 4)).refused hspent, hagain, fun time => ?_,
    fun words later => (hafter halves (renewed.take 4)).2 words words (fun _ => rfl) later⟩
  have hlater := (hmetered halves renewed).later 0 hagain (by decide) time
  rw [(hmetered halves renewed).sleeper_eq] at hlater
  rw [hlater]
  exact congrArg (fun span => time.sleep span .recording) hpaused

end Tenure

end Pooling
