import Pooling.Proofs.LockPool.Operations

/-!
What there is to see of locks by key for those who use them: how each lock is held and how many refer
to it, and for each guard its mode and the key that it keeps locked. Every operation on a lock pool
can be followed on this alone, and so can every operation on lasting locks as long as no count is
exceeded.
-/

namespace Pooling.LockPool

/-- Changes the values of some keys. -/
def amend (keys : κ → Bool) (change : α → α) (values : κ → α) : κ → α :=
  fun key => if keys key then change (values key) else values key

def only [DecidableEq κ] (key : κ) : κ → Bool := fun other => other = key

@[simp] theorem amend_same (keys : κ → Bool) (values : κ → α) :
    amend keys (fun value => value) values = values := by
  funext key
  simp [amend]

@[simp] theorem amend_only_self [DecidableEq κ] (key : κ) (change : α → α) (values : κ → α) :
    amend (only key) change values key = change (values key) := by
  simp [amend, only]

theorem amend_only_of_ne [DecidableEq κ] {key other : κ} (hne : other ≠ key) (change : α → α)
    (values : κ → α) : amend (only key) change values other = values other := by
  simp [amend, only, hne]

theorem amend_only_congr [DecidableEq κ] {key : κ} {change other : α → α} {values : κ → α}
    (hsame : change (values key) = other (values key)) :
    amend (only key) change values = amend (only key) other values := by
  funext found
  by_cases heq : found = key
  · subst heq
    rw [amend_only_self, amend_only_self, hsame]
  · rw [amend_only_of_ne heq, amend_only_of_ne heq]

/-- A guard as it is seen: its mode, and whether its lock is the lock of a key. -/
structure Seat (κ : Type) where
  mode : LockMode
  keys : κ → Bool

structure View (κ γ : Type) where
  lock : κ → RwLock
  references : κ → Int32
  guard : γ → Option (Seat κ)

variable {κ γ : Type} [DecidableEq κ] [DecidableEq γ]

namespace View

omit [DecidableEq κ] [DecidableEq γ] in
theorem ext {first second : View κ γ} (hlock : ∀ key, first.lock key = second.lock key)
    (hreferences : ∀ key, first.references key = second.references key)
    (hguard : ∀ name, first.guard name = second.guard name) : first = second := by
  obtain ⟨lock, references, guard⟩ := first
  rw [View.mk.injEq]
  exact ⟨funext hlock, funext hreferences, funext hguard⟩

/-- A key gets a new lock, with one reference to it. -/
def renew (view : View κ γ) (key : κ) : View κ γ where
  lock := amend (only key) (fun _ => RwLock.free) view.lock
  references := amend (only key) (fun _ => 1) view.references
  guard := fun name => (view.guard name).map fun seat =>
    { seat with keys := amend (only key) (fun _ => false) seat.keys }

/-- One more reference to the lock of a key. Where the count shows its sign, the key gets another
lock instead. -/
def refer (view : View κ γ) (key : κ) : View κ γ :=
  if 0 ≤ view.references key then
    { view with references := amend (only key) (· + 1) view.references }
  else view.renew key

omit [DecidableEq γ] in
/-- Nobody can tell a new lock from one that nobody refers to. -/
theorem renew_eq_refer {view : View κ γ} {key : κ} (hlock : view.lock key = RwLock.free)
    (hreferences : view.references key = 0)
    (hguard : ∀ name seat, view.guard name = some seat → seat.keys key = false) :
    view.renew key = view.refer key := by
  rw [refer, if_pos (by rw [hreferences]; exact Int32.le_refl 0)]
  have hlocks : amend (only key) (fun _ => RwLock.free) view.lock = view.lock :=
    (amend_only_congr hlock.symm).trans (amend_same (only key) view.lock)
  have hcounts : amend (only key) (fun _ => 1) view.references =
      amend (only key) (· + 1) view.references := amend_only_congr (by rw [hreferences]; rfl)
  refine ext (congrFun hlocks) (congrFun hcounts) fun name => ?_
  cases hseat : view.guard name with
  | none => simp only [renew, hseat, Option.map_none]
  | some seat =>
      have hkeys : amend (only key) (fun _ => false) seat.keys = seat.keys :=
        (amend_only_congr (hguard name seat hseat).symm).trans (amend_same (only key) seat.keys)
      simp only [renew, hseat, Option.map_some, hkeys]

def unrefer (view : View κ γ) (keys : κ → Bool) : View κ γ :=
  { view with references := amend keys (· - 1) view.references }

def setLock (view : View κ γ) (key : κ) (lock : RwLock) : View κ γ :=
  { view with lock := amend (only key) (fun _ => lock) view.lock }

def letGo (view : View κ γ) (seat : Seat κ) : View κ γ :=
  unrefer { view with lock := amend seat.keys (·.release seat.mode) view.lock } seat.keys

def setGuard (view : View κ γ) (name : γ) (seat : Option (Seat κ)) : View κ γ :=
  { view with guard := fun other => if other = name then seat else view.guard other }

omit [DecidableEq κ] in
theorem setGuard_setGuard (view : View κ γ) (name : γ) (first second : Option (Seat κ)) :
    (view.setGuard name first).setGuard name second = view.setGuard name second := by
  refine ext (fun _ => rfl) (fun _ => rfl) fun other => ?_
  simp only [setGuard]
  split <;> rfl

def drop (view : View κ γ) (name : γ) : View κ γ :=
  match view.guard name with
  | some seat => (view.setGuard name none).letGo seat
  | none => view

def name (view : View κ γ) (name : γ) (seat : Seat κ) : View κ γ :=
  match view.guard name with
  | some previous => (view.setGuard name (some seat)).letGo previous
  | none => view.setGuard name (some seat)

/-- Takes the lock of a key already referred to, if its holders allow. -/
def grant? (view : View κ γ) (name : γ) (key : κ) (mode : LockMode) : Option (View κ γ) :=
  ((view.lock key).take? mode).map fun lock => (view.setLock key lock).name name ⟨mode, only key⟩

def downgrade (view : View κ γ) (name : γ) : Bool × View κ γ :=
  match view.guard name with
  | some ⟨.write, keys⟩ =>
      (true, setGuard { view with lock := amend keys (·.downgrade) view.lock } name
        (some ⟨.read, keys⟩))
  | _ => (false, view)

def perform (operation : Operation κ γ) (view : View κ γ) : Answer × Option (View κ γ) :=
  match operation with
  | .get name key mode =>
      match (view.refer key).grant? name key mode with
      | some view => (.granted, some view)
      | none => (.waits, none)
  | .tryGet name key mode =>
      match (view.refer key).grant? name key mode with
      | some view => (.granted, some view)
      | none => (.refused, some ((view.refer key).unrefer (only key)))
  | .mode name => (.held ((view.guard name).map Seat.mode), some view)
  | .downgrade name => (.downgraded (view.downgrade name).1, some (view.downgrade name).2)
  | .drop name => (.dropped, some (view.drop name))

end View

end Pooling.LockPool
