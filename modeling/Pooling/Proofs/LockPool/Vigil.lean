import Pooling.LockPool.Evictor
import Pooling.Proofs.LockPool.System

/-!
Callers of a lock pool who wake its evictor, and the evictor that sleeps and sweeps, step by step in any
order. Who has added an entry, or given up the last reference to one, compares the size of the pool
with its high watermark, tries the evictor's lock once, and signals if it has that.
-/

namespace Pooling.LockPool

/-- How far somebody who is to wake the evictor has come. -/
inductive Nudge where
  /-- The pool is changed, and its size not yet looked at. -/
  | comparing
  /-- The pool was found overfull, and the evictor's lock is to be tried. -/
  | trying
  /-- The evictor's lock is held, and no signal given. -/
  | notifying
  /-- The signal is given, and the evictor's lock still held. -/
  | leaving
  deriving DecidableEq

namespace Nudge

def holds : Nudge → Bool
  | notifying => true
  | leaving => true
  | _ => false

/-- A signal may still come. -/
def isPending : Nudge → Bool
  | leaving => false
  | _ => true

end Nudge

/-- How far a round has come. -/
structure Progress (κ : Type) where
  /-- How many entries are still to be removed. -/
  left : Nat
  removed : Nat := 0
  /-- How often the keys were listed anew. -/
  refills : Nat := 0
  cursor : List κ
  deriving DecidableEq

/-- What the evictor does next. It has its lock except in the first, third and fourth of these. -/
inductive Phase (κ : Type) where
  /-- It takes its lock, to begin. -/
  | locking
  /-- It goes to sleep at once if its last round removed nothing. -/
  | entered
  | parked
  /-- It has been woken, and takes its lock again. -/
  | waking
  /-- It compares the size of the pool with its high watermark. -/
  | checking
  /-- It found the pool not overfull, and goes to sleep. -/
  | resting
  /-- It found the pool overfull, and sees how many entries it is to remove. -/
  | aiming
  | sweeping (progress : Progress κ)
  /-- It has found the entry of a key not used again, and drops it if nobody refers to it. -/
  | judging (key : κ) (progress : Progress κ)
  /-- It gives its lock back. -/
  | ending (progress : Progress κ)
  deriving DecidableEq

def Phase.holds : Phase κ → Bool
  | locking => false
  | parked => false
  | waking => false
  | _ => true

/-- A round is going on, and not at its end. -/
def Phase.isUnderway : Phase κ → Bool
  | sweeping _ => true
  | judging _ _ => true
  | _ => false

variable {κ : Type} [DecidableEq κ]

structure Vigil (κ : Type) where
  /-- The pool and the references to its entries. -/
  system : System κ
  nudges : List Nudge := []
  phase : Phase κ := .locking
  /-- Keys left over from the last round. -/
  cursor : List κ := []
  /-- The last round removed nothing. -/
  stalled : Bool := false
  /-- Since the evictor last looked at the size of the pool, somebody found it at work, or gave a
  signal while it did not sleep. -/
  missed : Bool := false

namespace Vigil

/-- The next thing that happens: to a caller, to somebody who is to wake the evictor, or to the
evictor. When it lists the keys anew, it need not see those added meanwhile, and may see others. -/
inductive Event (κ : Type) where
  | caller (event : LockPool.Event κ)
  | nudge (index : Nat)
  | turn
  | refill (keys : List κ)
  /-- A sleep ends by itself. -/
  | rouse
  deriving DecidableEq

end Vigil

/-- Who is to wake the evictor after an event in the pool. -/
def System.nudges (system : System κ) : Event κ → List Nudge
  | .get _ _ => [.comparing]
  | .tryGet _ _ => [.comparing]
  | .undo index =>
      match system.references[index]? with
      | some reference => if (system.store.unreference reference.id).1 then [.comparing] else []
      | none => []
  | _ => []

namespace Vigil

def start (lowWatermark highWatermark : Nat) : Vigil κ where
  system := System.start lowWatermark highWatermark

/-- Somebody other than the evictor has its lock. -/
def isTaken (vigil : Vigil κ) : Bool := vigil.nudges.any Nudge.holds

def nudge? (vigil : Vigil κ) (index : Nat) : Option (Vigil κ) := do
  match ← vigil.nudges[index]? with
  | .comparing =>
      if vigil.system.store.isOverfull then
        some { vigil with nudges := vigil.nudges.set index .trying }
      else some { vigil with nudges := vigil.nudges.eraseIdx index }
  | .trying =>
      if vigil.phase.holds || vigil.isTaken then
        some { vigil with
          nudges := vigil.nudges.eraseIdx index
          missed := vigil.missed || vigil.phase.holds }
      else some { vigil with nudges := vigil.nudges.set index .notifying }
  | .notifying =>
      let nudges := vigil.nudges.set index .leaving
      if vigil.phase = .parked then some { vigil with nudges, phase := .waking }
      else some { vigil with nudges, missed := true }
  | .leaving => some { vigil with nudges := vigil.nudges.eraseIdx index }

/-- The evictor looks at the next key of its round. It has to list the keys anew if there is none. -/
def sweep? (vigil : Vigil κ) (progress : Progress κ) : Option (Vigil κ) :=
  if progress.left = 0 then some { vigil with phase := .ending progress }
  else
    match progress.cursor with
    | key :: cursor =>
        let progress := { progress with cursor }
        let looked := vigil.system.store.clearAccessed key
        some { vigil with
          system := { vigil.system with store := looked.2 }
          phase := if looked.1 = some false then .judging key progress else .sweeping progress }
    | [] =>
        if progress.refills = maxPasses then some { vigil with phase := .ending progress } else none

def judge (vigil : Vigil κ) (key : κ) (progress : Progress κ) : Vigil κ :=
  let dropped := vigil.system.store.removeIdle key
  { vigil with
    system := { vigil.system with store := dropped.2 }
    phase := .sweeping (if dropped.1 then
      { progress with left := progress.left - 1, removed := progress.removed + 1 }
      else progress) }

def turn? (vigil : Vigil κ) : Option (Vigil κ) :=
  let store := vigil.system.store
  match vigil.phase with
  | .locking => if vigil.isTaken then none else some { vigil with phase := .entered }
  | .entered => some { vigil with phase := if vigil.stalled then .parked else .checking }
  | .parked => none
  | .waking => if vigil.isTaken then none else some { vigil with phase := .checking }
  | .checking =>
      some { vigil with phase := if store.isOverfull then .aiming else .resting, missed := false }
  | .resting => some { vigil with phase := .parked }
  | .aiming =>
      let target := store.size - store.lowWatermark
      some { vigil with phase := .sweeping { left := target, cursor := vigil.cursor } }
  | .sweeping progress => vigil.sweep? progress
  | .judging key progress => some (vigil.judge key progress)
  | .ending progress =>
      some { vigil with
        phase := .locking
        cursor := progress.cursor
        stalled := progress.removed = 0 }

/-- The evictor lists the keys anew, and ends its round if there are none. -/
def refill? (vigil : Vigil κ) (keys : List κ) : Option (Vigil κ) :=
  match vigil.phase with
  | .sweeping progress =>
      if progress.left ≠ 0 ∧ progress.cursor = [] ∧ progress.refills < maxPasses ∧
          ∀ key ∈ vigil.system.store.keys.keys, key ∈ keys then
        let progress := { progress with cursor := keys, refills := progress.refills + 1 }
        some { vigil with phase := if keys = [] then .ending progress else .sweeping progress }
      else none
  | _ => none

def caller? (vigil : Vigil κ) (event : LockPool.Event κ) : Option (Vigil κ) :=
  match event with
  -- What the evictor does to a key belongs to its own turns.
  | .look _ => none
  | .evict _ => none
  | event => (vigil.system.step? event).map fun system =>
      { vigil with system, nudges := vigil.nudges ++ vigil.system.nudges event }

def step? (vigil : Vigil κ) : Event κ → Option (Vigil κ)
  | .caller event => vigil.caller? event
  | .nudge index => vigil.nudge? index
  | .turn => vigil.turn?
  | .refill keys => vigil.refill? keys
  | .rouse => if vigil.phase = .parked then some { vigil with phase := .waking } else none

def anyhow : Vigil κ → Event κ → Bool := fun _ _ => true

abbrev Reaches : Vigil κ → Vigil κ → Prop := Runs.Reaches step? anyhow

abbrev run? : List (Event κ) → Vigil κ → Option (Vigil κ) := Runs.run? step? anyhow

/-! Without anyone in between, the turns of the evictor make up its rounds. -/

/-- A round has come to a store and a phase. -/
def withRound (vigil : Vigil κ) (store : Store κ) (phase : Phase κ) : Vigil κ :=
  { vigil with system := { vigil.system with store }, phase }

/-- The order in which the keys are listed leaves none out. -/
def Lists (order : Store κ → List κ) : Prop :=
  ∀ store : Store κ, ∀ key ∈ store.keys.keys, key ∈ order store

/-- A law that lets a round go on to its end, with the keys listed in a certain order. -/
structure Allows (law : Vigil κ → Event κ → Bool) (order : Store κ → List κ) : Prop where
  turn : ∀ vigil : Vigil κ, vigil.phase.isUnderway = true → law vigil .turn = true
  refill : ∀ vigil : Vigil κ, vigil.phase.isUnderway = true →
    law vigil (.refill (order vigil.system.store)) = true

omit [DecidableEq κ] in
theorem allows_anyhow (order : Store κ → List κ) : Allows anyhow order :=
  ⟨fun _ _ => rfl, fun _ _ => rfl⟩

section

variable {law : Vigil κ → Event κ → Bool} {order : Store κ → List κ}

theorem Allows.reaches_turn (hallows : Allows law order) {before after : Vigil κ}
    (hunderway : before.phase.isUnderway = true) (hturn : before.turn? = some after) :
    Runs.Reaches step? law before after :=
  .single ⟨.turn, hallows.turn before hunderway, hturn⟩

theorem Allows.reaches_visit (hallows : Allows law order) (vigil : Vigil κ) (store : Store κ)
    (progress : Progress κ) {key : κ} {cursor : List κ} (hleft : progress.left ≠ 0)
    (hcursor : progress.cursor = key :: cursor) :
    Runs.Reaches step? law (vigil.withRound store (.sweeping progress))
      (vigil.withRound (visit store key).2 (.sweeping (if (visit store key).1 then
        { progress with cursor, left := progress.left - 1, removed := progress.removed + 1 }
        else { progress with cursor }))) := by
  have hlook : Runs.Reaches step? law (vigil.withRound store (.sweeping progress))
      (vigil.withRound (store.clearAccessed key).2 (if (store.clearAccessed key).1 = some false then
        .judging key { progress with cursor } else .sweeping { progress with cursor })) := by
    apply hallows.reaches_turn rfl
    simp only [turn?, withRound, sweep?, if_neg hleft, hcursor]
    rfl
  refine hlook.trans ?_
  unfold visit
  obtain ⟨used, looked⟩ := store.clearAccessed key
  cases used with
  | none => exact .refl
  | some used =>
      cases used with
      | true => exact .refl
      | false => exact hallows.reaches_turn rfl rfl

theorem Allows.reaches_pass (hallows : Allows law order) (vigil : Vigil κ) (store : Store κ)
    (left removed refills : Nat) (cursor : List κ) :
    let done := pass left cursor store
    Runs.Reaches step? law (vigil.withRound store (.sweeping ⟨left, removed, refills, cursor⟩))
        (vigil.withRound done.store
          (.sweeping ⟨left - done.removed, removed + done.removed, refills, done.cursor⟩)) ∧
      done.removed ≤ left ∧ (done.removed = left ∨ done.cursor = []) := by
  induction cursor generalizing left removed store with
  | nil =>
      unfold pass
      split <;> exact ⟨.refl, Nat.zero_le _, .inr rfl⟩
  | cons key cursor ih =>
      by_cases hleft : left = 0
      · unfold pass
        rw [if_pos hleft]
        exact ⟨.refl, Nat.zero_le _, .inl hleft.symm⟩
      · have hvisit := hallows.reaches_visit vigil store ⟨left, removed, refills, key :: cursor⟩
          hleft rfl
        unfold pass
        rw [if_neg hleft]
        cases hvisited : visit store key with
        | mk dropped visited =>
            rw [hvisited] at hvisit
            cases dropped with
            | true =>
                obtain ⟨hrest, hle, hend⟩ := ih visited (left - 1) (removed + 1)
                simp only [hvisited]
                have hleft : left - ((pass (left - 1) cursor visited).removed + 1) =
                    left - 1 - (pass (left - 1) cursor visited).removed := by omega
                have hremoved : removed + ((pass (left - 1) cursor visited).removed + 1) =
                    removed + 1 + (pass (left - 1) cursor visited).removed := by omega
                rw [hleft, hremoved]
                exact ⟨hvisit.trans hrest, by omega, hend.imp_left fun heq => by omega⟩
            | false =>
                obtain ⟨hrest, hend⟩ := ih visited left removed
                simp only [hvisited]
                exact ⟨hvisit.trans hrest, hend⟩

theorem Allows.reaches_end (hallows : Allows law order) (vigil : Vigil κ) (store : Store κ)
    {progress : Progress κ}
    (hend : progress.left = 0 ∨ progress.cursor = [] ∧ progress.refills = maxPasses) :
    Runs.Reaches step? law (vigil.withRound store (.sweeping progress))
      (vigil.withRound store (.ending progress)) := by
  apply hallows.reaches_turn rfl
  simp only [turn?, withRound, sweep?]
  split
  next => rfl
  next hleft =>
    obtain ⟨hcursor, hrefills⟩ := hend.resolve_left hleft
    rw [hcursor, hrefills]
    rfl

theorem Allows.reaches_refill (hallows : Allows law order) (hlists : Lists order)
    (vigil : Vigil κ) (store : Store κ) (progress : Progress κ) (hleft : progress.left ≠ 0)
    (hcursor : progress.cursor = []) (hrefills : progress.refills < maxPasses) :
    Runs.Reaches step? law (vigil.withRound store (.sweeping progress))
      (vigil.withRound store (if order store = [] then
        .ending { progress with cursor := order store, refills := progress.refills + 1 }
        else .sweeping { progress with cursor := order store, refills := progress.refills + 1 })) :=
  .single ⟨.refill (order store), hallows.refill _ rfl,
    if_pos ⟨hleft, hcursor, hrefills, hlists store⟩⟩

theorem Allows.reaches_sweep (hallows : Allows law order) (hlists : Lists order)
    (vigil : Vigil κ) (store : Store κ) (left removed refills more : Nat) (cursor : List κ)
    (hmore : refills + more = maxPasses) :
    let done := sweep order left more cursor store
    ∃ last, Runs.Reaches step? law (vigil.withRound store (.sweeping ⟨left, removed, refills, cursor⟩))
      (vigil.withRound done.store
        (.ending ⟨left - done.removed, removed + done.removed, last, done.cursor⟩)) := by
  induction more generalizing refills left removed cursor store with
  | zero =>
      obtain ⟨hpass, -, hend⟩ := hallows.reaches_pass vigil store left removed refills cursor
      refine ⟨refills, hpass.trans (hallows.reaches_end vigil _ ?_)⟩
      exact hend.imp (fun hdone => Nat.sub_eq_zero_of_le (Nat.le_of_eq hdone.symm))
        fun hcursor => ⟨hcursor, hmore⟩
  | succ more ih =>
      obtain ⟨hpass, hle, hend⟩ := hallows.reaches_pass vigil store left removed refills cursor
      unfold sweep
      dsimp only
      generalize pass left cursor store = first at *
      split
      next hdone =>
        refine ⟨refills, hpass.trans (hallows.reaches_end vigil _ (.inl ?_))⟩
        exact Nat.sub_eq_zero_of_le (Nat.le_of_eq hdone.symm)
      next hdone =>
        have hcursor := hend.resolve_left hdone
        have hrefill := hallows.reaches_refill hlists vigil first.store
          ⟨left - first.removed, removed + first.removed, refills, first.cursor⟩
          (by dsimp only; omega) hcursor (by dsimp only; omega)
        split
        next hempty =>
          rw [hempty, if_pos rfl] at hrefill
          rw [hcursor]
          exact ⟨refills + 1, hpass.trans hrefill⟩
        next hkeys =>
          rw [if_neg hkeys] at hrefill
          obtain ⟨last, hrest⟩ := ih first.store (left - first.removed) (removed + first.removed)
            (refills + 1) (order first.store) (by omega)
          rw [Nat.sub_sub, Nat.add_comm first.removed, Nat.add_assoc,
            Nat.add_comm first.removed] at hrest
          exact ⟨last, hpass.trans (hrefill.trans hrest)⟩

end

/-- A round that nobody comes in between of is one of the evictor. -/
theorem reaches_round {order : Store κ → List κ} (hlists : Lists order) {vigil : Vigil κ}
    (haiming : vigil.phase = .aiming) :
    let done := Evictor.round order ⟨vigil.cursor, vigil.stalled⟩ vigil.system.store
    Reaches vigil { vigil with
      system := { vigil.system with store := done.2 }
      phase := .locking
      cursor := done.1.cursor
      stalled := done.1.stalled } := by
  have haim : Reaches vigil (vigil.withRound vigil.system.store (.sweeping
      ⟨vigil.system.store.size - vigil.system.store.lowWatermark, 0, 0, vigil.cursor⟩)) := by
    refine .single ⟨.turn, rfl, ?_⟩
    simp only [step?, turn?, haiming]
    rfl
  obtain ⟨last, hsweep⟩ := (allows_anyhow order).reaches_sweep hlists vigil vigil.system.store
    (vigil.system.store.size - vigil.system.store.lowWatermark) 0 0 maxPasses vigil.cursor
    (Nat.zero_add _)
  rw [Nat.zero_add] at hsweep
  exact (haim.trans hsweep).trans (.single ⟨.turn, rfl, rfl⟩)

end Vigil

end Pooling.LockPool
