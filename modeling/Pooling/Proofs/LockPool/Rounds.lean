import Pooling.Proofs.LockPool.Contents
import Pooling.Proofs.LockPool.Vigil

/-!
Rounds of a lock pool's evictor, step by step.
-/

namespace Pooling.LockPool

variable {κ : Type} [DecidableEq κ]

namespace Phase

/-- How far a round has come, from its first look at a key to its end. -/
def progress? : Phase κ → Option (Progress κ)
  | sweeping progress => some progress
  | judging _ progress => some progress
  | ending progress => some progress
  | _ => none

/-- The keys that a round has not done with. -/
def ahead : Phase κ → List κ
  | sweeping progress => progress.cursor
  | judging key progress => key :: progress.cursor
  | ending progress => progress.cursor
  | _ => []

/-- How many steps are left at most of a round that nobody disturbs, in a store of a given size. -/
def weight (size : Nat) : Phase κ → Nat
  | sweeping progress =>
      2 * progress.cursor.length + (maxPasses - progress.refills) * (2 * size + 1) + 1
  | judging _ progress =>
      2 * progress.cursor.length + (maxPasses - progress.refills) * (2 * size + 1) + 2
  | _ => 0

end Phase

namespace Vigil

/-- What the evictor comes to, from a store and a phase, with one step of its round. -/
inductive Strode (store : Store κ) : Event κ → Phase κ → Store κ → Phase κ → Prop
  | ended {progress : Progress κ}
      (hdone : progress.left = 0 ∨ progress.cursor = [] ∧ progress.refills = maxPasses) :
      Strode store .turn (.sweeping progress) store (.ending progress)
  | passed {progress : Progress κ} {key : κ} {cursor : List κ} (hleft : progress.left ≠ 0)
      (hcursor : progress.cursor = key :: cursor)
      (hpassed : (store.entryOf? key).map Entry.accessed ≠ some false) :
      Strode store .turn (.sweeping progress) (store.clearAccessed key).2
        (.sweeping { progress with cursor })
  | found {progress : Progress κ} {key : κ} {cursor : List κ} (hleft : progress.left ≠ 0)
      (hcursor : progress.cursor = key :: cursor)
      (hfound : (store.entryOf? key).map Entry.accessed = some false) :
      Strode store .turn (.sweeping progress) (store.clearAccessed key).2
        (.judging key { progress with cursor })
  | dropped {progress : Progress κ} {key : κ} (hidle : store.idle? key = some false) :
      Strode store .turn (.judging key progress) (store.removeIdle key).2
        (.sweeping { progress with left := progress.left - 1, removed := progress.removed + 1 })
  | spared {progress : Progress κ} {key : κ} (hbusy : store.idle? key ≠ some false) :
      Strode store .turn (.judging key progress) store (.sweeping progress)
  | listed {progress : Progress κ} {keys : List κ} (hleft : progress.left ≠ 0)
      (hcursor : progress.cursor = []) (hrefills : progress.refills < maxPasses)
      (hkeys : ∀ key ∈ store.keys.keys, key ∈ keys) :
      Strode store (.refill keys) (.sweeping progress) store
        (.sweeping { progress with cursor := keys, refills := progress.refills + 1 })
  | bare {progress : Progress κ} (hleft : progress.left ≠ 0) (hcursor : progress.cursor = [])
      (hrefills : progress.refills < maxPasses) (hnone : store.keys.keys = []) :
      Strode store (.refill []) (.sweeping progress) store
        (.ending { progress with cursor := [], refills := progress.refills + 1 })

section

variable {vigil after : Vigil κ}

/-- Where a turn has brought a round; only the store and the phase change. -/
theorem strode_of_turn? (hunderway : vigil.phase.isUnderway = true)
    (hturn : vigil.turn? = some after) :
    Strode vigil.system.store .turn vigil.phase after.system.store after.phase ∧
      after = vigil.withRound after.system.store after.phase := by
  unfold turn? at hturn
  generalize hphase : vigil.phase = phase at *
  cases phase with
  | sweeping progress =>
      simp only [sweep?] at hturn
      split at hturn
      next hleft =>
        cases hturn
        exact ⟨.ended (.inl hleft), rfl⟩
      next hleft =>
        split at hturn
        next key cursor hcursor =>
          cases hturn
          refine ⟨?_, rfl⟩
          have hlooked := vigil.system.store.fst_clearAccessed key
          dsimp only
          split
          next hfound => exact .found hleft hcursor (hlooked ▸ hfound)
          next hpassed => exact .passed hleft hcursor (hlooked ▸ hpassed)
        next hcursor =>
          split at hturn
          next hrefills =>
            cases hturn
            exact ⟨.ended (.inr ⟨hcursor, hrefills⟩), rfl⟩
          next => cases hturn
  | judging key progress =>
      cases hturn
      refine ⟨?_, rfl⟩
      dsimp only [judge]
      by_cases hidle : vigil.system.store.idle? key = some false
      · rw [if_pos ((vigil.system.store.fst_removeIdle key).mpr hidle)]
        exact .dropped hidle
      · rw [Store.removeIdle_of_busy hidle]
        exact .spared hidle
  | _ => cases hunderway

theorem strode_of_refill? {keys : List κ} (hrefill : vigil.refill? keys = some after) :
    Strode vigil.system.store (.refill keys) vigil.phase after.system.store after.phase ∧
      after = vigil.withRound after.system.store after.phase := by
  unfold refill? at hrefill
  generalize hphase : vigil.phase = phase at *
  cases phase with
  | sweeping progress =>
      dsimp only at hrefill
      split at hrefill
      next hallowed =>
        obtain ⟨hleft, hcursor, hrefills, hkeys⟩ := hallowed
        cases hrefill
        refine ⟨?_, rfl⟩
        by_cases hempty : keys = []
        · subst hempty
          refine .bare hleft hcursor hrefills (List.eq_nil_iff_forall_not_mem.mpr ?_)
          intro key hmem
          cases hkeys key hmem
        · simp only [if_neg hempty]
          exact .listed hleft hcursor hrefills hkeys
      next => cases hrefill
  | _ => cases hrefill

/-- A round that has not come to its end can go on. -/
theorem exists_isSome_step? (hunderway : vigil.phase.isUnderway = true)
    (hrefills : ∀ progress, vigil.phase.progress? = some progress →
      progress.refills ≤ maxPasses) :
    ∃ event, (event = .turn ∨ event = .refill vigil.system.store.keys.keys) ∧
      (vigil.step? event).isSome := by
  cases hphase : vigil.phase with
  | judging key progress =>
      refine ⟨.turn, .inl rfl, ?_⟩
      simp only [step?, turn?, hphase, Option.isSome_some]
  | sweeping progress =>
      have hrefills : progress.refills ≤ maxPasses := hrefills progress (hphase ▸ rfl)
      by_cases hlists : progress.left ≠ 0 ∧ progress.cursor = [] ∧ progress.refills < maxPasses
      · obtain ⟨hleft, hcursor, hless⟩ := hlists
        refine ⟨.refill vigil.system.store.keys.keys, .inr rfl, ?_⟩
        simp only [step?, refill?, hphase]
        rw [if_pos ⟨hleft, hcursor, hless, fun _ hmem => hmem⟩]
        rfl
      · refine ⟨.turn, .inl rfl, ?_⟩
        simp only [step?, turn?, hphase, sweep?]
        split
        next => rfl
        next hleft =>
          split
          next => rfl
          next hcursor =>
            rw [if_pos (Nat.le_antisymm hrefills (Nat.not_lt.mp fun hless =>
              hlists ⟨hleft, hcursor, hless⟩))]
            rfl
  | _ =>
      rw [hphase] at hunderway
      cases hunderway

end

/-! Rounds that nobody disturbs. -/

/-- Nobody but the evictor does anything, and it stops at the end of its round. It lists every key
once, in any order. -/
def undisturbed (vigil : Vigil κ) : Event κ → Bool
  | .turn => vigil.phase.isUnderway
  | .refill keys => vigil.phase.isUnderway && keys.isPerm vigil.system.store.keys.keys
  | _ => false

/-- The event of a step that nobody disturbs, as a round tells of it. -/
theorem strode_of_undisturbed {before after : Vigil κ} {event : Event κ}
    (hlaw : undisturbed before event = true) (hstep : before.step? event = some after) :
    Strode before.system.store event before.phase after.system.store after.phase ∧
      ∀ keys, event = .refill keys → keys.Perm before.system.store.keys.keys := by
  cases event with
  | turn =>
      refine ⟨(strode_of_turn? hlaw hstep).1, fun keys heq => ?_⟩
      cases heq
  | refill keys =>
      refine ⟨(strode_of_refill? hstep).1, fun listed heq => ?_⟩
      cases heq
      exact List.isPerm_iff.mp (Bool.and_eq_true_iff.mp hlaw).2
  | _ => cases hlaw

namespace Strode

variable {store after : Store κ} {event : Event κ} {phase next : Phase κ}

theorem refills_le (hstrode : Strode store event phase after next)
    (hrefills : ∀ progress, phase.progress? = some progress → progress.refills ≤ maxPasses) :
    ∀ progress, next.progress? = some progress → progress.refills ≤ maxPasses := by
  intro later hlater
  cases hstrode with
  | ended | spared => exact hrefills later hlater
  | @passed progress | @found progress | @dropped progress =>
      cases hlater
      exact hrefills progress rfl
  | listed hleft hcursor hless | bare hleft hcursor hless =>
      cases hlater
      exact hless

theorem weight_lt (hstrode : Strode store event phase after next)
    (hperm : ∀ keys, event = .refill keys → keys.Perm store.keys.keys) :
    next.weight after.size < phase.weight store.size := by
  cases hstrode with
  | ended => exact Nat.succ_pos _
  | bare => exact Nat.succ_pos _
  | @passed progress key cursor hleft hcursor | @found progress key cursor hleft hcursor =>
      have hsize : (store.clearAccessed key).2.size = store.size := by
        rw [Store.size, Store.keys_clearAccessed, Store.size]
      simp only [Phase.weight, hcursor, List.length_cons, hsize]
      omega
  | spared => exact Nat.lt_succ_self _
  | @dropped progress key hidle =>
      have hsize : (store.removeIdle key).2.size ≤ store.size := by
        rw [Store.size, Store.keys_removeIdle hidle]
        exact Table.size_erase_le _ _
      have hless := Nat.mul_le_mul_left (maxPasses - progress.refills)
        (Nat.add_le_add_right (Nat.mul_le_mul_left 2 hsize) 1)
      simp only [Phase.weight]
      omega
  | @listed progress keys hleft hcursor hrefills hkeys =>
      have hlength : keys.length = store.size :=
        (hperm keys rfl).length_eq.trans store.keys.length_keys
      obtain ⟨more, hmore⟩ := Nat.exists_eq_add_of_lt hrefills
      have hbefore : maxPasses - progress.refills = more + 1 := by omega
      have hafter : maxPasses - (progress.refills + 1) = more := by omega
      simp only [Phase.weight, hcursor, hlength, hbefore, hafter, List.length_nil, Nat.add_mul]
      omega

end Strode

/-- What each step of a round keeps is true as long as nobody disturbs the round. -/
theorem holds_of_undisturbed (holds : Store κ → Phase κ → Prop)
    (hkept : ∀ {store after : Store κ} {event : Event κ} {phase next : Phase κ},
      Strode store event phase after next →
      (∀ keys, event = .refill keys → keys.Perm store.keys.keys) →
      holds store phase → holds after next)
    {vigil later : Vigil κ} (hreaches : Runs.Reaches step? undisturbed vigil later)
    (hstart : holds vigil.system.store vigil.phase) : holds later.system.store later.phase := by
  refine hreaches.invariant (fun vigil => holds vigil.system.store vigil.phase) hstart ?_
  intro before after event hbefore hlaw hstep
  obtain ⟨hstrode, hperm⟩ := strode_of_undisturbed hlaw hstep
  exact hkept hstrode hperm hbefore

/-- The evictor is at its round, and nobody else is there. -/
def amid (store : Store κ) (phase : Phase κ) : Vigil κ := { system := { store }, phase }

/-- What an evictor does at once is a round that nobody disturbs. -/
theorem reaches_evict {order : Store κ → List κ}
    (hperm : ∀ store, (order store).Perm store.keys.keys) (target : Nat) (evictor : Evictor κ)
    (store : Store κ) :
    let done := evictor.evict order target store
    ∃ refills, Runs.Reaches step? undisturbed
      (amid store (.sweeping { left := target, cursor := evictor.cursor }))
      (amid done.2.2 (.ending ⟨target - done.1, done.1, refills, done.2.1.cursor⟩)) := by
  have hallows : Allows undisturbed order := by
    refine ⟨fun vigil hunderway => hunderway, fun vigil hunderway => ?_⟩
    exact Bool.and_eq_true_iff.mpr ⟨hunderway, List.isPerm_iff.mpr (hperm _)⟩
  have hlists : Lists order := fun store key hmem => (hperm store).mem_iff.mpr hmem
  obtain ⟨refills, hsweep⟩ := hallows.reaches_sweep hlists (amid store .locking) store target 0 0
    maxPasses evictor.cursor (Nat.zero_add _)
  rw [Nat.zero_add] at hsweep
  exact ⟨refills, hsweep⟩

end Vigil

end Pooling.LockPool
