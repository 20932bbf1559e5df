import Pooling.Retry.Policy

/-!
Running an operation under a retry policy: one call for every attempt the policy grants, up to the
first success or the first refusal.
-/

namespace Pooling

/-- An operation with a state of its own, which also takes time. -/
abbrev Operation (σ : Type u) (ε : Type v) (α : Type w) :=
  σ → Timeline → Except ε α × σ × Timeline

structure RetryRun (π σ ε α : Type) where
  result : Except Abort (Except (RetryError ε) α)
  policy : π
  state : σ
  time : Timeline

section

variable {π σ ε α : Type} [RetryPolicy π]

/-- How a refusal reads, after the last failure if there was one. -/
def RetryError.ofRefusal (action : String) (attempts : UInt32) : Option ε → RetryError ε
  | some last => .exhausted action attempts last
  | none => .noAttempts action

def retryWithin (action : String) (operation : Operation σ ε α) :
    Nat → Option ε → π → σ → Timeline → Option (RetryRun π σ ε α)
  | 0, _, _, _, _ => none
  | fuel + 1, last?, policy, state, time =>
      let asked := RetryPolicy.attempt policy time
      match asked.granted with
      | .error abort => some ⟨.error abort, asked.policy, state, asked.time⟩
      | .ok false =>
          let refusal := RetryError.ofRefusal action (RetryPolicy.attempts asked.policy) last?
          some ⟨.ok (.error refusal), asked.policy, state, asked.time⟩
      | .ok true =>
          match operation state asked.time with
          | (.ok value, state, time) => some ⟨.ok (.ok value), asked.policy, state, time⟩
          | (.error failure, state, time) =>
              retryWithin action operation fuel (some failure) asked.policy state time

def retry (action : String) (operation : Operation σ ε α) (fuel : Nat) (policy : π) (state : σ)
    (time : Timeline) : Option (RetryRun π σ ε α) :=
  retryWithin action operation fuel none policy state time

end

end Pooling
