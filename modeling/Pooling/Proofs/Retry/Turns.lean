import Mathlib.Logic.Function.Iterate
import Pooling.Proofs.Retry.Grants
import Pooling.Retry.Run

/-!
What becomes of an operation that is retried, told from what every turn would come to: an attempt
that the policy is asked for and a call of the operation after it.
-/

namespace Pooling

structure Turn (π σ : Type) where
  policy : π
  state : σ
  time : Timeline

namespace Turn

variable {π σ ε α : Type} [RetryPolicy π]

def asked (turn : Turn π σ) : Asked π := RetryPolicy.attempt turn.policy turn.time

def IsGranted (turn : Turn π σ) : Prop := turn.asked.granted = .ok true

def outcome (operation : Operation σ ε α) (turn : Turn π σ) : Except ε α :=
  (operation turn.state turn.asked.time).1

def Fails (operation : Operation σ ε α) (turn : Turn π σ) : Prop :=
  ∃ failure, turn.outcome operation = .error failure

/-- The next turn, whatever came of the attempt and of the call. -/
def next (operation : Operation σ ε α) (turn : Turn π σ) : Turn π σ where
  policy := turn.asked.policy
  state := (operation turn.state turn.asked.time).2.1
  time := (operation turn.state turn.asked.time).2.2

/-- The turn that comes after so many others, if none of them is the last. -/
def after (operation : Operation σ ε α) (turn : Turn π σ) (count : Nat) : Turn π σ :=
  (next operation)^[count] turn

variable {operation : Operation σ ε α} {turn : Turn π σ} {action : String}

@[simp] theorem after_zero : turn.after operation 0 = turn := rfl

theorem after_next (count : Nat) :
    (turn.next operation).after operation count = turn.after operation (count + 1) := rfl

theorem after_succ (count : Nat) :
    turn.after operation (count + 1) = (turn.after operation count).next operation :=
  Function.iterate_succ_apply' ..

/-- The attempt is granted and the call fails, so that another turn follows. -/
def GoesOn (operation : Operation σ ε α) (turn : Turn π σ) : Prop :=
  turn.IsGranted ∧ turn.Fails operation

def failure? (operation : Operation σ ε α) (turn : Turn π σ) : Option ε :=
  match turn.outcome operation with
  | .error failure => some failure
  | .ok _ => none

/-- The failure before a turn: that of the turn before it, or the one at hand at the start. -/
def lastFailure? (operation : Operation σ ε α) (turn : Turn π σ) (last? : Option ε) :
    Nat → Option ε
  | 0 => last?
  | count + 1 => (turn.after operation count).failure? operation

theorem lastFailure?_next {failure : ε} (houtcome : turn.outcome operation = .error failure)
    (last? : Option ε) (count : Nat) :
    (turn.next operation).lastFailure? operation (some failure) count =
      turn.lastFailure? operation last? (count + 1) := by
  cases count with
  | zero => simp only [lastFailure?, after_zero, failure?, houtcome]
  | succ count => rfl

/-- The ways in which a turn can be the last. -/
inductive Ends (action : String) (operation : Operation σ ε α) (last? : Option ε)
    (turn : Turn π σ) : RetryRun π σ ε α → Prop
  | raised {abort : Abort} (hraised : turn.asked.granted = .error abort) :
      Ends action operation last? turn
        ⟨.error abort, turn.asked.policy, turn.state, turn.asked.time⟩
  | refused (hrefused : turn.asked.granted = .ok false) :
      Ends action operation last? turn
        ⟨.ok (.error (.ofRefusal action (RetryPolicy.attempts turn.asked.policy) last?)),
          turn.asked.policy, turn.state, turn.asked.time⟩
  | succeeded {value : α} (hgranted : turn.IsGranted)
      (houtcome : turn.outcome operation = .ok value) :
      Ends action operation last? turn
        ⟨.ok (.ok value), (turn.next operation).policy, (turn.next operation).state,
          (turn.next operation).time⟩

theorem Ends.not_goesOn {last? : Option ε} {run : RetryRun π σ ε α}
    (hends : turn.Ends action operation last? run) : ¬ turn.GoesOn operation := by
  rintro ⟨hgranted, failure, hfailure⟩
  cases hends with
  | raised hraised => cases hraised.symm.trans hgranted
  | refused hrefused => cases hrefused.symm.trans hgranted
  | succeeded _ houtcome => cases houtcome.symm.trans hfailure

theorem Ends.unique {last? : Option ε} {first second : RetryRun π σ ε α}
    (hfirst : turn.Ends action operation last? first)
    (hsecond : turn.Ends action operation last? second) : first = second := by
  cases hfirst with
  | raised hraised =>
      cases hsecond with
      | raised hother => cases hraised.symm.trans hother; rfl
      | refused hother => cases hraised.symm.trans hother
      | succeeded hother => cases hraised.symm.trans hother
  | refused hrefused =>
      cases hsecond with
      | raised hother => cases hrefused.symm.trans hother
      | refused => rfl
      | succeeded hother => cases hrefused.symm.trans hother
  | succeeded hgranted houtcome =>
      cases hsecond with
      | raised hother => cases hgranted.symm.trans hother
      | refused hother => cases hgranted.symm.trans hother
      | succeeded _ hother => cases houtcome.symm.trans hother; rfl

theorem exists_ends (action : String) (last? : Option ε) (hlast : ¬ turn.GoesOn operation) :
    ∃ run, turn.Ends action operation last? run := by
  cases hgranted : turn.asked.granted with
  | error abort => exact ⟨_, .raised hgranted⟩
  | ok granted =>
      cases granted with
      | false => exact ⟨_, .refused hgranted⟩
      | true =>
          cases houtcome : turn.outcome operation with
          | ok value => exact ⟨_, .succeeded hgranted houtcome⟩
          | error failure => exact absurd ⟨hgranted, failure, houtcome⟩ hlast

theorem retryWithin_of_ends {last? : Option ε} {run : RetryRun π σ ε α} (fuel : Nat)
    (hends : turn.Ends action operation last? run) :
    retryWithin action operation (fuel + 1) last? turn.policy turn.state turn.time =
      some run := by
  cases hends with
  | raised hraised =>
      rw [asked] at hraised
      simp only [retryWithin, hraised, asked]
  | refused hrefused =>
      rw [asked] at hrefused
      simp only [retryWithin, hrefused, asked]
  | succeeded hgranted houtcome =>
      rw [IsGranted, asked] at hgranted
      rw [outcome, asked] at houtcome
      simp only [retryWithin, hgranted, next, asked]
      split
      next hcall => cases houtcome.symm.trans (congrArg Prod.fst hcall); rw [hcall]
      next hcall => cases houtcome.symm.trans (congrArg Prod.fst hcall)

theorem retryWithin_of_goesOn (last? : Option ε) (fuel : Nat) {failure : ε}
    (hgranted : turn.IsGranted) (houtcome : turn.outcome operation = .error failure) :
    retryWithin action operation (fuel + 1) last? turn.policy turn.state turn.time =
      retryWithin action operation fuel (some failure) (turn.next operation).policy
        (turn.next operation).state (turn.next operation).time := by
  rw [IsGranted, asked] at hgranted
  rw [outcome, asked] at houtcome
  simp only [retryWithin, hgranted, next, asked]
  split
  next hcall => cases houtcome.symm.trans (congrArg Prod.fst hcall)
  next hcall => cases houtcome.symm.trans (congrArg Prod.fst hcall); rw [hcall]

/-- The loop goes on up to the first turn that is the last, and ends as that turn does. -/
theorem retryWithin_eq_some_iff {last? : Option ε} {run : RetryRun π σ ε α} {fuel : Nat} :
    retryWithin action operation fuel last? turn.policy turn.state turn.time = some run ↔
      ∃ count < fuel, (∀ earlier < count, (turn.after operation earlier).GoesOn operation) ∧
        (turn.after operation count).Ends action operation
          (turn.lastFailure? operation last? count) run := by
  -- Where the first turn goes on, what is left is a loop of its own, from the next turn.
  induction fuel generalizing turn last? with
  | zero =>
      constructor
      · intro hrun
        cases hrun
      · rintro ⟨count, hcount, -⟩
        cases hcount
  | succ fuel ih =>
      by_cases hgoesOn : turn.GoesOn operation
      · obtain ⟨hgranted, failure, houtcome⟩ := hgoesOn
        rw [retryWithin_of_goesOn last? fuel hgranted houtcome, ih]
        constructor
        · rintro ⟨count, hcount, hearlier, hends⟩
          rw [lastFailure?_next houtcome last?, after_next] at hends
          refine ⟨count + 1, Nat.succ_lt_succ hcount, fun earlier hlt => ?_, hends⟩
          cases earlier with
          | zero => exact ⟨hgranted, failure, houtcome⟩
          | succ earlier => exact hearlier earlier (Nat.lt_of_succ_lt_succ hlt)
        · rintro ⟨count, hcount, hearlier, hends⟩
          cases count with
          | zero => exact absurd ⟨hgranted, failure, houtcome⟩ hends.not_goesOn
          | succ count =>
              rw [← lastFailure?_next houtcome last?] at hends
              exact ⟨count, Nat.lt_of_succ_lt_succ hcount,
                fun earlier hlt => hearlier (earlier + 1) (Nat.succ_lt_succ hlt), hends⟩
      · obtain ⟨ended, hended⟩ := exists_ends action last? hgoesOn
        rw [retryWithin_of_ends fuel hended, Option.some.injEq]
        constructor
        · rintro rfl
          exact ⟨0, Nat.succ_pos fuel, fun earlier hlt => absurd hlt (Nat.not_lt_zero _), hended⟩
        · rintro ⟨count, -, hearlier, hends⟩
          cases count with
          | zero => exact hended.unique hends
          | succ count => exact absurd (hearlier 0 (Nat.succ_pos count)) hgoesOn

theorem exists_run (action : String) {fuel count : Nat} (hfuel : count < fuel)
    (hlast : ¬ (turn.after operation count).GoesOn operation) (last? : Option ε) :
    ∃ run, retryWithin action operation fuel last? turn.policy turn.state turn.time =
      some run := by
  induction fuel generalizing turn last? count with
  | zero => cases hfuel
  | succ fuel ih =>
      by_cases hgoesOn : turn.GoesOn operation
      · obtain ⟨hgranted, failure, houtcome⟩ := hgoesOn
        rw [retryWithin_of_goesOn last? fuel hgranted houtcome]
        cases count with
        | zero => exact absurd ⟨hgranted, failure, houtcome⟩ hlast
        | succ count => exact ih (Nat.lt_of_succ_lt_succ hfuel) hlast _
      · obtain ⟨run, hends⟩ := exists_ends action last? hgoesOn
        exact ⟨run, retryWithin_of_ends fuel hends⟩

/-- The first call that succeeds, with every attempt up to it granted. -/
structure FirstSuccess (operation : Operation σ ε α) (start : Turn π σ) (count : Nat)
    (value : α) : Prop where
  granted : ∀ earlier ≤ count, (start.after operation earlier).IsGranted
  failed : ∀ earlier < count, (start.after operation earlier).Fails operation
  outcome_eq : (start.after operation count).outcome operation = .ok value

theorem FirstSuccess.eq_of_last {start : Turn π σ} {first count : Nat} {value : α}
    (hfirst : start.FirstSuccess operation first value)
    (hearlier : ∀ earlier < count, (start.after operation earlier).GoesOn operation)
    (hlast : ¬ (start.after operation count).GoesOn operation) : first = count := by
  rcases Nat.lt_trichotomy first count with hlt | heq | hgt
  · obtain ⟨-, failure, hfailure⟩ := hearlier first hlt
    cases hfirst.outcome_eq.symm.trans hfailure
  · exact heq
  · exact absurd ⟨hfirst.granted count (Nat.le_of_lt hgt), hfirst.failed count hgt⟩ hlast

/-- A run after so many calls: one for each attempt that was granted, and none after the first
success, a refusal or a raise. The result tells which of these it was. -/
structure Exact (action : String) (operation : Operation σ ε α) (start : Turn π σ) (calls : Nat)
    (run : RetryRun π σ ε α) : Prop where
  granted : ∀ count < calls, (start.after operation count).IsGranted
  failed : ∀ count, count + 1 < calls → (start.after operation count).Fails operation
  state_eq : run.state = (start.after operation calls).state
  asked_eq :
    ((∃ last value, calls = last + 1 ∧ run.result = .ok (.ok value) ∧
        (start.after operation last).outcome operation = .ok value) ∧
      run.policy = (start.after operation calls).policy ∧
      run.time = (start.after operation calls).time) ∨
    (¬ (start.after operation calls).IsGranted ∧
      (∀ count < calls, (start.after operation count).Fails operation) ∧
      run.policy = (start.after operation calls).asked.policy ∧
      run.time = (start.after operation calls).asked.time)
  succeeded_iff : ∀ value, run.result = .ok (.ok value) ↔
    ∃ count, start.FirstSuccess operation count value
  noAttempts_iff : ∀ name, run.result = .ok (.error (.noAttempts name)) ↔
    name = action ∧ start.asked.granted = .ok false
  exhausted_iff : ∀ name attempts failure,
    run.result = .ok (.error (.exhausted name attempts failure)) ↔
      name = action ∧ attempts = RetryPolicy.attempts run.policy ∧
        (start.after operation calls).asked.granted = .ok false ∧
        ∃ last, calls = last + 1 ∧
          (start.after operation last).outcome operation = .error failure
  raised_iff : ∀ abort, run.result = .error abort ↔
    (∀ count < calls, (start.after operation count).Fails operation) ∧
      (start.after operation calls).asked.granted = .error abort

section

variable {start : Turn π σ} {count : Nat}

theorem not_firstSuccess {first : Nat} {value : α}
    (hearlier : ∀ earlier < count, (start.after operation earlier).GoesOn operation)
    (hdenied : ¬ (start.after operation count).IsGranted) :
    ¬ start.FirstSuccess operation first value := by
  intro hfirst
  have heq := hfirst.eq_of_last hearlier fun hgoesOn => hdenied hgoesOn.1
  exact hdenied (hfirst.granted count (Nat.le_of_eq heq.symm))

theorem exact_of_raised {abort : Abort}
    (hearlier : ∀ earlier < count, (start.after operation earlier).GoesOn operation)
    (hraised : (start.after operation count).asked.granted = .error abort) :
    start.Exact action operation count
      ⟨.error abort, (start.after operation count).asked.policy,
        (start.after operation count).state, (start.after operation count).asked.time⟩ := by
  have hdenied : ¬ (start.after operation count).IsGranted := by
    intro hgranted
    cases hraised.symm.trans hgranted
  have hfailed : ∀ earlier < count, (start.after operation earlier).Fails operation :=
    fun earlier hlt => (hearlier earlier hlt).2
  refine {
    granted := fun earlier hlt => (hearlier earlier hlt).1
    failed := fun earlier hlt => hfailed earlier (Nat.lt_of_succ_lt hlt)
    state_eq := rfl
    asked_eq := .inr ⟨hdenied, hfailed, rfl, rfl⟩
    succeeded_iff := fun value => ⟨fun hresult => ?_, fun ⟨first, hfirst⟩ => ?_⟩
    noAttempts_iff := fun name => ⟨fun hresult => ?_, fun ⟨_, hrefused⟩ => ?_⟩
    exhausted_iff := fun name attempts failure =>
      ⟨fun hresult => ?_, fun ⟨_, _, hrefused, _⟩ => ?_⟩
    raised_iff := fun other => ⟨fun hresult => ?_, fun ⟨_, hother⟩ => ?_⟩ }
  · cases hresult
  · exact absurd hfirst (not_firstSuccess hearlier hdenied)
  · cases hresult
  · cases count with
    | zero => cases hraised.symm.trans hrefused
    | succ count => cases hrefused.symm.trans (hearlier 0 (Nat.succ_pos count)).1
  · cases hresult
  · cases hraised.symm.trans hrefused
  · cases hresult
    exact ⟨hfailed, hraised⟩
  · cases hraised.symm.trans hother
    rfl

theorem ofRefusal_lastFailure? (attempts : UInt32) (count : Nat) {failure : ε}
    (houtcome : (start.after operation count).outcome operation = .error failure) :
    RetryError.ofRefusal action attempts (start.lastFailure? operation none (count + 1)) =
      .exhausted action attempts failure := by
  simp only [lastFailure?, failure?, houtcome, RetryError.ofRefusal]

theorem exact_of_refused
    (hearlier : ∀ earlier < count, (start.after operation earlier).GoesOn operation)
    (hrefused : (start.after operation count).asked.granted = .ok false) :
    start.Exact action operation count
      ⟨.ok (.error (.ofRefusal action
          (RetryPolicy.attempts (start.after operation count).asked.policy)
          (start.lastFailure? operation none count))),
        (start.after operation count).asked.policy,
        (start.after operation count).state, (start.after operation count).asked.time⟩ := by
  have hdenied : ¬ (start.after operation count).IsGranted := by
    intro hgranted
    cases hrefused.symm.trans hgranted
  have hfailed : ∀ earlier < count, (start.after operation earlier).Fails operation :=
    fun earlier hlt => (hearlier earlier hlt).2
  refine {
    granted := fun earlier hlt => (hearlier earlier hlt).1
    failed := fun earlier hlt => hfailed earlier (Nat.lt_of_succ_lt hlt)
    state_eq := rfl
    asked_eq := .inr ⟨hdenied, hfailed, rfl, rfl⟩
    succeeded_iff := fun value => ⟨fun hresult => ?_, fun ⟨first, hfirst⟩ => ?_⟩
    noAttempts_iff := fun name => ?_
    exhausted_iff := fun name attempts failure => ?_
    raised_iff := fun other => ⟨fun hresult => ?_, fun ⟨_, hother⟩ => ?_⟩ }
  · cases hresult
  · exact absurd hfirst (not_firstSuccess hearlier hdenied)
  · cases count with
    | zero =>
        simp only [lastFailure?, RetryError.ofRefusal, Except.ok.injEq, Except.error.injEq,
          RetryError.noAttempts.injEq]
        exact ⟨fun hname => ⟨hname.symm, hrefused⟩, fun hboth => hboth.1.symm⟩
    | succ count =>
        obtain ⟨failure, houtcome⟩ := hfailed count (Nat.lt_succ_self count)
        rw [ofRefusal_lastFailure? _ _ houtcome]
        constructor
        · intro hresult
          cases hresult
        · rintro ⟨-, hatOnce⟩
          cases hatOnce.symm.trans (hearlier 0 (Nat.succ_pos count)).1
  · cases count with
    | zero =>
        constructor
        · intro hresult
          cases hresult
        · rintro ⟨-, -, -, last, hlast, -⟩
          cases hlast
    | succ count =>
        obtain ⟨last, houtcome⟩ := hfailed count (Nat.lt_succ_self count)
        rw [ofRefusal_lastFailure? _ _ houtcome]
        constructor
        · intro hresult
          cases hresult
          exact ⟨rfl, rfl, hrefused, count, rfl, houtcome⟩
        · rintro ⟨rfl, rfl, -, place, hplace, hother⟩
          cases hplace
          cases houtcome.symm.trans hother
          rfl
  · cases hresult
  · cases hrefused.symm.trans hother

theorem exact_of_succeeded {value : α}
    (hearlier : ∀ earlier < count, (start.after operation earlier).GoesOn operation)
    (hgranted : (start.after operation count).IsGranted)
    (houtcome : (start.after operation count).outcome operation = .ok value) :
    start.Exact action operation (count + 1)
      ⟨.ok (.ok value), (start.after operation (count + 1)).policy,
        (start.after operation (count + 1)).state, (start.after operation (count + 1)).time⟩ := by
  have hgrants : ∀ earlier ≤ count, (start.after operation earlier).IsGranted := by
    intro earlier hle
    rcases Nat.lt_or_eq_of_le hle with hlt | rfl
    · exact (hearlier earlier hlt).1
    · exact hgranted
  have hnotFailed : ¬ (start.after operation count).Fails operation := by
    rintro ⟨failure, hfailure⟩
    cases houtcome.symm.trans hfailure
  have hfirst : start.FirstSuccess operation count value :=
    ⟨hgrants, fun earlier hlt => (hearlier earlier hlt).2, houtcome⟩
  refine {
    granted := fun earlier hlt => hgrants earlier (Nat.le_of_lt_succ hlt)
    failed := fun earlier hlt => (hearlier earlier (Nat.lt_of_succ_lt_succ hlt)).2
    state_eq := rfl
    asked_eq := .inl ⟨⟨count, value, rfl, rfl, houtcome⟩, rfl, rfl⟩
    succeeded_iff := fun other => ⟨fun hresult => ?_, fun ⟨first, hother⟩ => ?_⟩
    noAttempts_iff := fun name => ⟨fun hresult => ?_, fun ⟨_, hrefused⟩ => ?_⟩
    exhausted_iff := fun name attempts failure =>
      ⟨fun hresult => ?_, fun ⟨_, _, _, last, hlast, hfailure⟩ => ?_⟩
    raised_iff := fun abort => ⟨fun hresult => ?_, fun ⟨hfailed, _⟩ => ?_⟩ }
  · cases hresult
    exact ⟨count, hfirst⟩
  · have heq := hother.eq_of_last hearlier fun hgoesOn => hnotFailed hgoesOn.2
    rw [heq] at hother
    cases houtcome.symm.trans hother.outcome_eq
    rfl
  · cases hresult
  · cases hrefused.symm.trans (hgrants 0 (Nat.zero_le count))
  · cases hresult
  · cases hlast
    exact absurd ⟨failure, hfailure⟩ hnotFailed
  · cases hresult
  · exact absurd (hfailed count (Nat.lt_succ_self count)) hnotFailed

end

theorem exists_exact {start : Turn π σ} {count : Nat} {run : RetryRun π σ ε α}
    (hearlier : ∀ earlier < count, (start.after operation earlier).GoesOn operation)
    (hends : (start.after operation count).Ends action operation
      (start.lastFailure? operation none count) run) :
    ∃ calls, start.Exact action operation calls run := by
  cases hends with
  | raised hraised => exact ⟨count, exact_of_raised hearlier hraised⟩
  | refused hrefused => exact ⟨count, exact_of_refused hearlier hrefused⟩
  | succeeded hgranted houtcome =>
      rw [← after_succ]
      exact ⟨count + 1, exact_of_succeeded hearlier hgranted houtcome⟩

/-! Of a policy that counts. -/

section

variable {β : Type} [Pausing β] {start : Turn (CountingRetry β) σ} {maxRetries : UInt32}
  {sleeper : Sleeper}

/-- The pause before the turn that comes after so many others. -/
def pause (operation : Operation σ ε α) (start : Turn (CountingRetry β) σ) (made : Nat) :
    Duration :=
  (Pausing.pause (UInt32.ofNat made) (start.after operation made).policy.backoff).1

theorem counts_after (operation : Operation σ ε α) (hmax : maxRetries.toNat + 1 < UInt32.size)
    (hstart : Tenure.Counts ⟨start.policy, 0⟩ maxRetries sleeper) {count : Nat}
    (hcount : count ≤ maxRetries.toNat + 1) :
    Tenure.Counts ⟨(start.after operation count).policy, count⟩ maxRetries sleeper := by
  induction count with
  | zero => exact hstart
  | succ count ih =>
      have hcounts := ih (Nat.le_of_succ_le hcount)
      have hgranted := (hcounts.metered hmax).granted_eq (start.after operation count).time
      rw [decide_eq_true (Nat.lt_of_succ_le hcount)] at hgranted
      have hafter := hcounts.after hmax (.attempt (start.after operation count).time)
      simp only [Tenure.after, hgranted] at hafter
      rw [after_succ]
      exact hafter

theorem isGranted_after_iff (hmax : maxRetries.toNat + 1 < UInt32.size)
    (hstart : Tenure.Counts ⟨start.policy, 0⟩ maxRetries sleeper) {count : Nat}
    (hcount : count ≤ maxRetries.toNat + 1) :
    (start.after operation count).IsGranted ↔ count < maxRetries.toNat + 1 := by
  have hmetered := (counts_after operation hmax hstart hcount).metered hmax
  have hgranted := hmetered.granted_eq (start.after operation count).time
  rw [IsGranted, asked]
  show ((start.after operation count).policy.attempt _).granted = _ ↔ _
  rw [hgranted, Except.ok.injEq, decide_eq_true_eq]

theorem time_asked_first (hstart : Tenure.Counts ⟨start.policy, 0⟩ maxRetries sleeper) :
    start.asked.time = start.time :=
  congrArg Asked.time (hstart.first rfl start.time)

theorem time_asked_later (hmax : maxRetries.toNat + 1 < UInt32.size)
    (hstart : Tenure.Counts ⟨start.policy, 0⟩ maxRetries sleeper) {made : Nat}
    (hmade : made < maxRetries.toNat) :
    (start.after operation (made + 1)).asked.time =
      (start.after operation (made + 1)).time.sleep (start.pause operation (made + 1)) sleeper := by
  have hcounts := counts_after operation hmax hstart
    (Nat.succ_le_succ (Nat.le_of_lt hmade))
  have hlater := hcounts.later hmax rfl hmade (start.after operation (made + 1)).time
  rw [hcounts.sleeper_eq] at hlater
  exact congrArg Asked.time hlater

theorem slept_after (hmax : maxRetries.toNat + 1 < UInt32.size)
    (hstart : Tenure.Counts ⟨start.policy, 0⟩ maxRetries .recording)
    (hsilent : ∀ state time, (operation state time).2.2.slept = time.slept) {made : Nat}
    (hmade : made ≤ maxRetries.toNat) :
    (start.after operation (made + 1)).time.slept = start.time.slept ++
      (List.range made).map fun earlier => start.pause operation (earlier + 1) := by
  induction made with
  | zero =>
      rw [after_succ, next, hsilent, after_zero, time_asked_first hstart]
      exact (List.append_nil _).symm
  | succ made ih =>
      rw [after_succ, next, hsilent, time_asked_later hmax hstart hmade,
        Timeline.slept_sleep_recording, ih (Nat.le_of_succ_le hmade), List.range_succ,
        List.map_append, List.append_assoc]
      rfl

/-- What is particular to a run under a policy that counts: the number of calls, the pauses between
them, and the number that an exhausted run reports. -/
structure Counted (action : String) (operation : Operation σ ε α)
    (start : Turn (CountingRetry β) σ) (maxRetries : UInt32) (sleeper : Sleeper) (calls : Nat)
    (run : RetryRun (CountingRetry β) σ ε α) : Prop where
  calls_eq_min : ∀ failures value,
    (∀ count < failures, (start.after operation count).Fails operation) →
    (start.after operation failures).outcome operation = .ok value →
    calls = min (failures + 1) (maxRetries.toNat + 1)
  calls_eq_of_failing :
    (∀ count ≤ maxRetries.toNat, (start.after operation count).Fails operation) →
    calls = maxRetries.toNat + 1
  asked_first : start.asked.time = start.time
  asked_later : ∀ made, made + 1 < calls → (start.after operation (made + 1)).asked.time =
    (start.after operation (made + 1)).time.sleep (start.pause operation (made + 1)) sleeper
  time_eq : run.time = (start.after operation calls).time
  slept_eq : sleeper = .recording →
    (∀ state time, (operation state time).2.2.slept = time.slept) →
    run.time.slept = start.time.slept ++
      (List.range (calls - 1)).map fun made => start.pause operation (made + 1)
  result_eq : (∃ value, run.result = .ok (.ok value)) ∨ ∃ attempts failure,
    run.result = .ok (.error (.exhausted action attempts failure)) ∧ attempts.toNat = calls

theorem Exact.counted {calls : Nat} {run : RetryRun (CountingRetry β) σ ε α}
    (hmax : maxRetries.toNat + 1 < UInt32.size)
    (hstart : Tenure.Counts ⟨start.policy, 0⟩ maxRetries sleeper)
    (hexact : start.Exact action operation calls run) :
    start.Counted action operation maxRetries sleeper calls run := by
  have hgrants : ∀ count ≤ maxRetries.toNat + 1,
      ((start.after operation count).IsGranted ↔ count < maxRetries.toNat + 1) :=
    fun count => isGranted_after_iff hmax hstart
  have hle : calls ≤ maxRetries.toNat + 1 := by
    by_contra hmore
    have hlast := hexact.granted (maxRetries.toNat + 1) (by omega)
    exact Nat.lt_irrefl _ ((hgrants _ (Nat.le_refl _)).mp hlast)
  have hclash : ∀ {count value}, (start.after operation count).Fails operation →
      (start.after operation count).outcome operation ≠ .ok value := by
    rintro count value ⟨failure, hfailure⟩ houtcome
    cases houtcome.symm.trans hfailure
  -- A run ends with a call that succeeds, or with a refusal, and that only once all are spent.
  rcases hexact.asked_eq with
    ⟨⟨last, value, rfl, hresult, houtcome⟩, -, htime⟩ | ⟨hdenied, hfailed, hpolicy, htime⟩
  · refine {
      calls_eq_min := fun failures other hfailures hother => ?_
      calls_eq_of_failing := fun hfailing => absurd houtcome (hclash (hfailing last (by omega)))
      asked_first := time_asked_first hstart
      asked_later := fun made hmade => time_asked_later hmax hstart (by omega)
      time_eq := htime
      slept_eq := ?_
      result_eq := .inl ⟨value, hresult⟩ }
    · rcases Nat.lt_trichotomy failures last with hlt | rfl | hgt
      · exact absurd hother (hclash (hexact.failed failures (Nat.succ_lt_succ hlt)))
      · omega
      · exact absurd houtcome (hclash (hfailures last hgt))
    · rintro rfl hsilent
      rw [htime]
      exact slept_after hmax hstart hsilent (by omega)
  · have hcalls : calls = maxRetries.toNat + 1 := by
      by_contra hne
      exact hdenied ((hgrants calls hle).mpr (by omega))
    have hcounts := counts_after operation hmax hstart hle
    have hrefused : (start.after operation calls).asked =
        ⟨.ok false, (start.after operation calls).policy, (start.after operation calls).time⟩ :=
      hcounts.refused hmax hcalls _
    rw [hrefused] at hpolicy htime
    refine {
      calls_eq_min := fun failures other _ hother => ?_
      calls_eq_of_failing := fun _ => hcalls
      asked_first := time_asked_first hstart
      asked_later := fun made hmade => time_asked_later hmax hstart (by omega)
      time_eq := htime
      slept_eq := ?_
      result_eq := .inr ?_ }
    · have hmany : calls ≤ failures := by
        by_contra hfew
        exact hclash (hfailed failures (by omega)) hother
      omega
    · rintro rfl hsilent
      rw [htime, hcalls]
      exact slept_after hmax hstart hsilent (Nat.le_refl _)
    · obtain ⟨failure, hfailure⟩ := hfailed maxRetries.toNat (by omega)
      refine ⟨_, failure, (hexact.exhausted_iff action _ failure).mpr
        ⟨rfl, rfl, congrArg Asked.granted hrefused, _, hcalls, hfailure⟩, ?_⟩
      rw [hpolicy]
      exact hcounts.toNat_attempts hmax

/-- Whatever the policy and the operation, `retry` calls the operation once for each attempt granted, up
to its first success or the first refusal, and answers accordingly: it comes to an end if and only if
there is such a turn. A policy that counts always comes to an end, and then calls an operation that
fails so many times before it succeeds once more than that, but no more often than once and for each
retry; it sleeps between the calls only. -/
theorem exact_of_retry (action : String) (operation : Operation σ ε α) :
    (∀ start : Turn π σ,
      ((∃ fuel run, retry action operation fuel start.policy start.state start.time = some run) ↔
        ∃ count, ¬ (start.after operation count).GoesOn operation) ∧
      ∀ fuel run, retry action operation fuel start.policy start.state start.time = some run →
        ∃ calls, start.Exact action operation calls run) ∧
    ∀ (maxRetries : UInt32) (backoff : β) (sleeper : Sleeper) (state : σ) (time : Timeline),
      maxRetries.toNat < 4294967295 →
      let policy : CountingRetry β := { maxRetries, backoff, sleeper }
      let start : Turn (CountingRetry β) σ := ⟨policy, state, time⟩
      (∀ fuel, maxRetries.toNat + 2 ≤ fuel →
        ∃ run, retry action operation fuel policy state time = some run) ∧
      ∀ fuel run, retry action operation fuel policy state time = some run →
        ∃ calls, start.Exact action operation calls run ∧
          start.Counted action operation maxRetries sleeper calls run := by
  have hexact : ∀ {π : Type} [RetryPolicy π] (start : Turn π σ) (fuel : Nat)
      (run : RetryRun π σ ε α),
      retry action operation fuel start.policy start.state start.time = some run →
      ∃ calls, start.Exact action operation calls run := by
    intro π _ start fuel run hrun
    obtain ⟨count, -, hearlier, hends⟩ := retryWithin_eq_some_iff.mp hrun
    exact exists_exact hearlier hends
  refine ⟨fun start => ⟨⟨?_, ?_⟩, hexact start⟩, ?_⟩
  · rintro ⟨fuel, run, hrun⟩
    obtain ⟨count, -, -, hends⟩ := retryWithin_eq_some_iff.mp hrun
    exact ⟨count, hends.not_goesOn⟩
  · rintro ⟨count, hlast⟩
    exact ⟨count + 1, exists_run action (Nat.lt_succ_self count) hlast none⟩
  · intro maxRetries backoff sleeper state time hmax policy start
    have hfits : maxRetries.toNat + 1 < UInt32.size := Nat.succ_lt_succ hmax
    have hstart := Tenure.counts_start maxRetries backoff sleeper
    refine ⟨fun fuel hfuel => ?_, fun fuel run hrun => ?_⟩
    · have hspent : ¬ (start.after operation (maxRetries.toNat + 1)).GoesOn operation := by
        intro hgoesOn
        exact Nat.lt_irrefl _ ((isGranted_after_iff hfits hstart (Nat.le_refl _)).mp hgoesOn.1)
      exact exists_run action hfuel hspent none
    · obtain ⟨calls, hcalls⟩ := hexact start fuel run hrun
      exact ⟨calls, hcalls, hcalls.counted hfits hstart⟩

end

/-- An operation that counts its calls, fails so many times and then gives the number of failures. -/
def stubborn (failures : Nat) : Operation Nat Nat Nat :=
  fun made time => (if made < failures then .error made else .ok made, made + 1, time)

def twice : CountingRetry Backoff where
  maxRetries := 2
  backoff := Tenure.halves
  sleeper := .recording

/-- A policy that has granted all that it grants. -/
def spent : CountingRetry Backoff := { noRetry with attempts := 1 }

theorem fails_stubborn {start : Turn (CountingRetry Backoff) Nat} (hstart : start.state = 0)
    (failures : Nat) {count : Nat} (hcount : count < failures) :
    (start.after (stubborn failures) count).Fails (stubborn failures) := by
  have hmade : ∀ count, (start.after (stubborn failures) count).state = count := by
    intro count
    induction count with
    | zero => exact hstart
    | succ count ih =>
        rw [after_succ]
        exact congrArg Nat.succ ih
  refine ⟨count, ?_⟩
  simp only [outcome, stubborn, hmade, if_pos hcount]

theorem exact_of_stubborn :
    (2 : UInt32).toNat < 4294967295 ∧
      (∃ run, retry "fetch" (stubborn 2) 4 twice 0 {} = some run ∧ run.result = .ok (.ok 2) ∧
        run.state = 3 ∧ run.time.slept = [Duration.ofMillis 30, Duration.ofMillis 50]) ∧
      (∃ run, retry "fetch" (stubborn 7) 4 twice 0 {} = some run ∧
        run.result = .ok (.error (.exhausted "fetch" 3 2)) ∧ run.state = 3 ∧
        run.time.slept.length = 2) ∧
      ∃ run, retry "fetch" (stubborn 0) 1 spent 0 {} = some run ∧
        run.result = .ok (.error (.noAttempts "fetch")) ∧ run.state = 0 := by
  have hmax : (2 : UInt32).toNat < 4294967295 := by decide
  have hsilent : ∀ failures state time,
      (stubborn failures state time).2.2.slept = time.slept := fun _ _ _ => rfl
  refine ⟨hmax, ?_, ?_, ?_⟩
  · obtain ⟨hends, hcounted⟩ := (exact_of_retry (π := CountingRetry Backoff) "fetch"
      (stubborn 2)).2 2 Tenure.halves .recording 0 {} hmax
    obtain ⟨run, hrun⟩ := hends 4 (by decide)
    obtain ⟨calls, hexact, hcalls⟩ := hcounted 4 run hrun
    have hfails : ∀ count < 2, ((⟨twice, 0, {}⟩ : Turn _ _).after (stubborn 2) count).Fails
        (stubborn 2) := fun count hlt => fails_stubborn rfl 2 hlt
    have hthree : calls = 3 := hcalls.calls_eq_min 2 2 hfails rfl
    subst hthree
    refine ⟨run, hrun, (hexact.succeeded_iff 2).mpr ⟨2, ?_⟩, hexact.state_eq, ?_⟩
    · exact ⟨fun earlier hle => hexact.granted earlier (Nat.lt_succ_of_le hle), hfails, rfl⟩
    · exact hcalls.slept_eq rfl (hsilent 2)
  · obtain ⟨-, hcounted⟩ := (exact_of_retry (π := CountingRetry Backoff) "fetch"
      (stubborn 7)).2 2 Tenure.halves .recording 0 {} hmax
    obtain ⟨calls, hexact, hcalls⟩ := hcounted 4 _ rfl
    have hthree : calls = 3 := by
      apply hcalls.calls_eq_of_failing
      intro count hle
      exact fails_stubborn rfl 7 (Nat.lt_of_le_of_lt hle (by decide))
    subst hthree
    refine ⟨_, rfl, ?_, rfl, congrArg List.length (hcalls.slept_eq rfl (hsilent 7))⟩
    exact (hexact.exhausted_iff "fetch" 3 2).mpr ⟨rfl, rfl, rfl, 2, rfl, rfl⟩
  · obtain ⟨-, hexact⟩ := (exact_of_retry (π := CountingRetry Backoff) (β := Backoff) "fetch"
      (stubborn 0)).1 ⟨spent, 0, {}⟩
    obtain ⟨calls, hexact⟩ := hexact 1 _ rfl
    exact ⟨_, rfl, (hexact.noAttempts_iff "fetch").mpr ⟨rfl, rfl⟩, rfl⟩

end Turn

end Pooling
