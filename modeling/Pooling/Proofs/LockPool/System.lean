import Pooling.LockPool.Entry
import Pooling.Proofs.Runs
import Pooling.Proofs.Tally

/-!
Callers and the evictor at work on one lock pool. Every call and every guard has a reference to the
entry of its key, from the moment it has found that entry until it has given its count back.
-/

namespace Pooling.LockPool

variable {κ : Type} [DecidableEq κ]

/-- How far the owner of a reference has come. -/
inductive Stage where
  /-- A call that waits for the lock. -/
  | waiting (mode : LockMode)
  /-- A call that tries the lock once. -/
  | trying (mode : LockMode)
  /-- A call that did not get the lock. -/
  | failed
  /-- A guard. -/
  | holding (mode : LockMode)
  /-- A guard that has let go of the lock. -/
  | dropped
  deriving DecidableEq

def Stage.share (stage : Stage) (mode : LockMode) : Nat := if stage = .holding mode then 1 else 0

structure Reference (κ : Type) where
  key : κ
  /-- The number of the entry referred to. -/
  id : Nat
  stage : Stage
  deriving DecidableEq

/-- One for a reference that belongs to a key and is at one of certain stages. -/
def Reference.weight (reference : Reference κ) (key : κ) (chosen : Stage → Bool) : Nat :=
  if reference.key = key ∧ chosen reference.stage then 1 else 0

theorem Reference.weight_of_ne (reference : Reference κ) {key : κ} (hne : reference.key ≠ key)
    (chosen : Stage → Bool) : reference.weight key chosen = 0 :=
  if_neg fun hboth => hne hboth.1

theorem Reference.weight_pos {reference : Reference κ} {key : κ} {chosen : Stage → Bool}
    (hkey : reference.key = key) (hchosen : chosen reference.stage = true) :
    0 < reference.weight key chosen := by
  rw [weight, if_pos ⟨hkey, hchosen⟩]
  exact Nat.one_pos

/-- What the owner of a reference does with the lock. -/
inductive Act where
  | grant
  | giveUp
  | downgrade
  | drop
  deriving DecidableEq

/-- What comes of an act for the store and for the reference, if it can happen. -/
def Act.perform? (act : Act) (store : Store κ) (reference : Reference κ) :
    Option (Store κ × Stage) :=
  match act, reference.stage with
  | grant, .waiting mode =>
      (store.takeLock? reference.id mode).map fun store => (store, .holding mode)
  | grant, .trying mode =>
      (store.takeLock? reference.id mode).map fun store => (store, .holding mode)
  | giveUp, .trying _ => some (store, .failed)
  | downgrade, .holding .write => some (store.downgradeLock reference.id, .holding .read)
  | drop, .holding mode => some (store.releaseLock reference.id mode, .dropped)
  | _, _ => none

/-- The next thing that happens. The evictor looks at a key and drops a key in two events, and may
turn to any key at any time. -/
inductive Event (κ : Type) where
  | get (key : κ) (mode : LockMode)
  | tryGet (key : κ) (mode : LockMode)
  | act (index : Nat) (act : Act)
  | undo (index : Nat)
  | look (key : κ)
  | evict (key : κ)
  deriving DecidableEq

structure System (κ : Type) where
  store : Store κ
  references : List (Reference κ) := []

namespace System

def start (lowWatermark highWatermark : Nat) : System κ where
  store := { lowWatermark, highWatermark }

def refer (system : System κ) (key : κ) (stage : Stage) : System κ where
  store := (system.store.reference key).2
  references := system.references ++ [⟨key, (system.store.reference key).1, stage⟩]

def step? (system : System κ) (event : Event κ) : Option (System κ) :=
  match event with
  | .get key mode => some (system.refer key (.waiting mode))
  | .tryGet key mode => some (system.refer key (.trying mode))
  | .act index act => do
      let reference ← system.references[index]?
      let (store, stage) ← act.perform? system.store reference
      some { store, references := system.references.set index { reference with stage } }
  | .undo index => do
      let reference ← system.references[index]?
      if reference.stage = .failed ∨ reference.stage = .dropped then
        some {
          store := (system.store.unreference reference.id).2
          references := system.references.eraseIdx index }
      else none
  | .look key => some { system with store := (system.store.clearAccessed key).2 }
  | .evict key => some { system with store := (system.store.removeIdle key).2 }

def count (system : System κ) (key : κ) (chosen : Stage → Bool) : Nat :=
  tally (fun reference => reference.weight key chosen) system.references

def outstanding (system : System κ) (key : κ) : Nat := system.count key fun _ => true

def holders (system : System κ) (key : κ) (mode : LockMode) : Nat :=
  system.count key fun stage => stage = .holding mode

/-- The number of references at which a count of 32 bits, sign included, goes wrong. -/
def countLimit : Nat := 2147483648

/-- No key has as many references at once as its count cannot show. -/
def countable (system : System κ) (event : Event κ) : Bool :=
  match event with
  | .get key _ => system.outstanding key + 1 < countLimit
  | .tryGet key _ => system.outstanding key + 1 < countLimit
  | _ => true

theorem count_refer (system : System κ) (key other : κ) (stage : Stage) (chosen : Stage → Bool) :
    (system.refer key stage).count other chosen =
      system.count other chosen +
        (⟨key, (system.store.reference key).1, stage⟩ : Reference κ).weight other chosen := by
  simp [count, refer]

theorem outstanding_refer (system : System κ) (key : κ) (stage : Stage) :
    (system.refer key stage).outstanding key = system.outstanding key + 1 := by
  rw [outstanding, count_refer]
  simp [Reference.weight, outstanding]

theorem count_refer_of_ne (system : System κ) {key other : κ} (hne : other ≠ key) (stage : Stage)
    (chosen : Stage → Bool) :
    (system.refer key stage).count other chosen = system.count other chosen := by
  rw [count_refer, Reference.weight_of_ne _ hne.symm, Nat.add_zero]

theorem holders_refer (system : System κ) {key other : κ} {stage : Stage}
    (hwaits : ∀ mode, stage ≠ .holding mode) (mode : LockMode) :
    (system.refer key stage).holders other mode = system.holders other mode := by
  rw [holders, count_refer]
  simp [Reference.weight, hwaits, holders]

theorem count_set {system : System κ} {index : Nat} {reference : Reference κ}
    (hreference : system.references[index]? = some reference) (store : Store κ) (stage : Stage)
    (key : κ) (chosen : Stage → Bool) :
    (⟨store, system.references.set index { reference with stage }⟩ : System κ).count key chosen +
        reference.weight key chosen =
      system.count key chosen + ({ reference with stage } : Reference κ).weight key chosen :=
  Tally.tally_set _ hreference _

theorem count_eraseIdx {system : System κ} {index : Nat} {reference : Reference κ}
    (hreference : system.references[index]? = some reference) (store : Store κ) (key : κ)
    (chosen : Stage → Bool) :
    (⟨store, system.references.eraseIdx index⟩ : System κ).count key chosen +
        reference.weight key chosen = system.count key chosen :=
  Tally.tally_eraseIdx _ hreference

/-- The holders of a lock are its owner, if that is one, and others, whom a change of stage leaves
alone. -/
theorem holders_set {system : System κ} {index : Nat} {reference : Reference κ}
    (hreference : system.references[index]? = some reference) (store : Store κ) (stage : Stage)
    (mode : LockMode) :
    ∃ others, system.holders reference.key mode = others + reference.stage.share mode ∧
      (⟨store, system.references.set index { reference with stage }⟩ : System κ).holders
        reference.key mode = others + stage.share mode := by
  have hset := count_set hreference store stage reference.key fun stage => stage = .holding mode
  have hle := Tally.le_tally
    (fun other => other.weight reference.key fun stage => stage = .holding mode)
    (List.mem_of_getElem? hreference)
  refine ⟨system.holders reference.key mode - reference.stage.share mode, ?_, ?_⟩
  · simp only [holders, count, Stage.share, Reference.weight, decide_eq_true_eq, true_and]
      at hset hle ⊢
    omega
  · simp only [holders, count, Stage.share, Reference.weight, decide_eq_true_eq, true_and]
      at hset hle ⊢
    omega

theorem outstanding_set {system : System κ} {index : Nat} {reference : Reference κ}
    (hreference : system.references[index]? = some reference) (store : Store κ) (stage : Stage)
    (key : κ) :
    (⟨store, system.references.set index { reference with stage }⟩ : System κ).outstanding key =
      system.outstanding key := by
  have hset := count_set hreference store stage key fun _ => true
  simp only [outstanding, Reference.weight] at hset ⊢
  omega

abbrev Reaches : System κ → System κ → Prop := Runs.Reaches step? countable

abbrev run? : List (Event κ) → System κ → Option (System κ) := Runs.run? step? countable

end System

end Pooling.LockPool
