import Pooling.Proofs.Fixed.Transitions

/-!
What the calls and callers of a fixed pool have: the slots that are counted for them, and the
resources that are on their way from one place to the next.
-/

namespace Pooling.Fixed

variable {R : Type}

/-- The resources that still have to be closed, once the one at hand is. -/
def Next.rest : Next R → List R
  | .finish _ => []
  | .drain rest => rest

/-- The closing of a resource is no end that hands one out. -/
def Next.Barren : Next R → Prop
  | .finish outcome => ∀ resource, outcome ≠ .acquired resource
  | .drain _ => True

/-- The resource that a call gives back or has drawn from the queue, as long as its slot is counted. -/
def Locked.inHand : Locked R → List R
  | .deciding resource => [resource]
  | .drained resource _ => [resource]
  | _ => []

def Locked.doomed : Locked R → List R
  | .draining taken => taken
  | .drained _ taken => taken
  | .dismissing taken => taken
  | _ => []

namespace Call

/-- The slot that a call has reserved: one until the factory's answer has been seen to. -/
def reserved : Call R → Nat
  | making => 1
  | made _ => 1
  | _ => 0

/-- The resource that the factory has made for a call, before it is handed out. -/
def newborn : Call R → List R
  | made (.ok resource) => [resource]
  | _ => []

def inHand : Call R → List R
  | returning resource => [resource]
  | entering locked => locked.inHand
  | inside locked => locked.inHand
  | leaving resource => [resource]
  | _ => []

/-- The resources whose slots a call has given up, and that it still has to close. -/
def doomed : Call R → List R
  | entering locked => locked.doomed
  | inside locked => locked.doomed
  | closing resource next => resource :: next.rest
  | after next => next.rest
  | _ => []

def Barren : Call R → Prop
  | closing _ next => next.Barren
  | after next => next.Barren
  | _ => True

@[simp] theorem reserved_woken (call : Call R) : call.woken.reserved = call.reserved := by
  cases call <;> rfl

@[simp] theorem newborn_woken (call : Call R) : call.woken.newborn = call.newborn := by
  cases call <;> rfl

@[simp] theorem inHand_woken (call : Call R) : call.woken.inHand = call.inHand := by
  cases call <;> rfl

@[simp] theorem doomed_woken (call : Call R) : call.woken.doomed = call.doomed := by
  cases call <;> rfl

theorem barren_request (request : Request R) (now : Moment) : (request.call now).Barren := by
  cases request <;> trivial

theorem Barren.woken {call : Call R} (hbarren : call.Barren) : call.woken.Barren := by
  cases call <;> exact hbarren

end Call

namespace Caller

def holdings (caller : Caller R) : List R := caller.held ++ caller.call.inHand

@[simp] theorem holdings_woken (caller : Caller R) : caller.woken.holdings = caller.holdings :=
  congrArg (caller.held ++ ·) caller.call.inHand_woken

/-- The slots that are counted for a caller: those of its resources, and the one it has reserved. -/
def slots (caller : Caller R) : Nat := caller.holdings.length + caller.call.reserved

theorem slots_woken (caller : Caller R) : caller.woken.slots = caller.slots := by
  rw [slots, slots, holdings_woken]
  exact congrArg (caller.holdings.length + ·) caller.call.reserved_woken

/-- A resource that is given back goes from the caller to its call. -/
theorem holdings_release_perm [DecidableEq R] {caller : Caller R} {resource : R}
    (hheld : resource ∈ caller.held) (now : Moment) :
    (caller.follow (.begin (.release resource) now) (.returning resource)).holdings.Perm
      caller.held :=
  (List.perm_append_comm.trans (List.perm_cons_erase hheld).symm)

end Caller

def System.reserved (system : System R) : Nat :=
  tally (fun caller => caller.call.reserved) system.callers

namespace Pool

theorem size_reserve {pool : Pool R} (hroom : pool.size < pool.maxCapacity)
    (hmax : pool.maxCapacity < UInt64.size) :
    ({ pool with capacity := pool.capacity + 1 } : Pool R).size = pool.size + 1 := by
  simp only [size] at hroom ⊢
  rw [UInt64.toNat_add]
  exact Nat.mod_eq_of_lt (Nat.lt_of_le_of_lt hroom hmax)

theorem size_giveUpSlot {pool : Pool R} (hslot : 0 < pool.size) :
    pool.giveUpSlot.size + 1 = pool.size := by
  have hone : (1 : UInt64) ≤ pool.capacity := UInt64.le_iff_toNat_le.mpr hslot
  rw [size, giveUpSlot, UInt64.toNat_sub_of_le _ _ hone]
  exact Nat.sub_add_cancel hslot

end Pool

/-- The slots that a move leaves counted for nobody: one where the making of a resource raises. -/
def Move.wastes : Move R → Call R → Nat
  | raise _, .making => 1
  | _, _ => 0

theorem Move.wastes_of_unraised {move : Move R} (hunraised : ∀ text, move ≠ .raise text)
    (call : Call R) : move.wastes call = 0 := by
  cases move with
  | raise text => exact absurd rfl (hunraised text)
  | _ => rfl

/-- What a move finds where callers give back what they hold. -/
structure Fair (move : Move R) (caller : Caller R) : Prop where
  held : ∀ resource now, move = .begin (.release resource) now → resource ∈ caller.held
  barren : caller.call.Barren

/-- What a move finds where nothing is raised either. -/
structure Orderly (move : Move R) (caller : Caller R) : Prop extends Fair move caller where
  unraised : ∀ text, move ≠ .raise text

namespace Transition

variable {move : Move R} {call : Call R} {pool : Pool R} {advanced : Call.Advanced R}

theorem barren (htransition : Transition move call pool advanced) (hbarren : call.Barren) :
    advanced.call.Barren := by
  cases htransition with
  | begin request now outcome => exact Call.barren_request request now
  | disposed | drains => exact hbarren
  | left => exact fun _ => nofun
  | _ => trivial

theorem same_maxCapacity (htransition : Transition move call pool advanced) :
    advanced.pool.maxCapacity = pool.maxCapacity := by
  cases htransition <;> rfl

variable [DecidableEq R]

/-- The count of slots goes along with what is in the queue, what the caller has, and what is
wasted. -/
theorem counted {caller : Caller R} (htransition : Transition move caller.call pool advanced)
    (hfair : Fair move caller) (hmax : pool.maxCapacity < UInt64.size)
    (hslots : caller.slots ≤ pool.size) :
    advanced.pool.size + pool.queue.length + caller.slots =
      pool.size + advanced.pool.queue.length + (caller.follow move advanced.call).slots +
        move.wastes caller.call := by
  obtain ⟨call, held, called⟩ := caller
  simp only [Caller.slots, Caller.holdings, List.length_append] at hslots ⊢
  cases htransition with
  | begin request now outcome =>
      cases request with
      | release resource =>
          have hperm := Caller.holdings_release_perm (hfair.held resource now rfl) now
          have hlength := hperm.length_eq
          rw [Caller.holdings, List.length_append] at hlength
          exact congrArg (pool.size + pool.queue.length + · + 0) hlength.symm
      | _ => rfl
  | @popped patience now _ resource rest hqueue | @repopped patience now _ resource rest hqueue =>
      rw [hqueue]
      show pool.size + (rest.length + 1) + (held.length + 0 + 0) =
        pool.size + rest.length + (held.length + 1 + 0 + 0)
      omega
  | reserved patience now hroom | rereserved patience now hroom =>
      have hsize := Pool.size_reserve hroom hmax
      simp only [Caller.follow, Call.inHand, Locked.inHand, Call.reserved, Move.wastes] at hsize ⊢
      omega
  | failed source now =>
      have hsize := pool.size_giveUpSlot (Nat.lt_of_lt_of_le (Nat.succ_pos _) hslots)
      show pool.giveUpSlot.size + pool.queue.length + (held.length + 0 + 1) =
        pool.size + pool.queue.length + (held.length + 0 + 0)
      omega
  | pooled resource now hopen =>
      show pool.size + pool.queue.length + (held.length + 1 + 0) =
        pool.size + (pool.queue ++ [resource]).length + (held.length + 0 + 0)
      rw [List.length_append]
      simp only [List.length_singleton]
      omega
  | left resource now =>
      have hsize := pool.size_giveUpSlot (Nat.lt_of_lt_of_le (Nat.succ_pos _) hslots)
      show pool.giveUpSlot.size + pool.queue.length + (held.length + 1 + 0) =
        pool.size + pool.queue.length + (held.length + 0 + 0)
      omega
  | @drew taken now _ resource rest hqueue =>
      rw [hqueue]
      show pool.size + (rest.length + 1) + (held.length + 0 + 0) =
        pool.size + rest.length + (held.length + 1 + 0)
      omega
  | struckOff resource taken now =>
      have hsize := pool.size_giveUpSlot (Nat.lt_of_lt_of_le (Nat.succ_pos _) hslots)
      show pool.giveUpSlot.size + pool.queue.length + (held.length + 1 + 0) =
        pool.size + pool.queue.length + (held.length + 0 + 0)
      omega
  | finished outcome now =>
      cases outcome with
      | acquired taken => exact absurd rfl (hfair.barren taken)
      | _ => rfl
  | raised text call pool hasked => rcases hasked with rfl | ⟨gone, next, rfl⟩ <;> rfl
  | _ => rfl

omit [DecidableEq R] in
theorem size_le {caller : Caller R} (htransition : Transition move caller.call pool advanced)
    (hmax : pool.maxCapacity < UInt64.size) (hslots : caller.slots ≤ pool.size)
    (hle : pool.size ≤ pool.maxCapacity) : advanced.pool.size ≤ pool.maxCapacity := by
  obtain ⟨call, held, called⟩ := caller
  simp only [Caller.slots, Caller.holdings, List.length_append] at hslots
  cases htransition with
  | reserved patience now hroom | rereserved patience now hroom =>
      rw [Pool.size_reserve hroom hmax]
      exact hroom
  | failed | left | struckOff =>
      have hsize := pool.size_giveUpSlot (Nat.lt_of_lt_of_le (Nat.succ_pos _) hslots)
      show pool.giveUpSlot.size ≤ pool.maxCapacity
      omega
  | _ => exact hle

/-- A resource comes to be by being made and ends by being closed; in between it is new, in the
queue, with somebody, or about to be closed. -/
theorem conserved {caller : Caller R} (htransition : Transition move caller.call pool advanced)
    (horderly : Orderly move caller) (resource : R) :
    advanced.call.newborn.count resource + advanced.pool.queue.count resource +
        (caller.follow move advanced.call).holdings.count resource +
        advanced.call.doomed.count resource + (move.disposes caller.call).count resource =
      caller.call.newborn.count resource + pool.queue.count resource +
        caller.holdings.count resource + caller.call.doomed.count resource +
        move.makes.count resource := by
  obtain ⟨call, held, called⟩ := caller
  simp only [Caller.holdings, List.count_append]
  cases htransition with
  | begin request now outcome =>
      cases request with
      | release returned =>
          have hperm := Caller.holdings_release_perm (horderly.held returned now rfl) now
          have hcount := hperm.count_eq resource
          rw [Caller.holdings, List.count_append] at hcount
          exact congrArg (0 + pool.queue.count resource + · + 0 + 0) hcount
      | _ => rfl
  | @popped patience now _ taken rest hqueue | @repopped patience now _ taken rest hqueue =>
      rw [hqueue]
      show 0 + rest.count resource + ((taken :: held).count resource + 0) + 0 + 0 =
        0 + (taken :: rest).count resource + (held.count resource + 0) + 0 + 0
      simp only [List.count_cons]
      omega
  | made answer =>
      cases answer with
      | failed source => rfl
      | ok made =>
          show [made].count resource + pool.queue.count resource + (held.count resource + 0) + 0 + 0 =
            0 + pool.queue.count resource + (held.count resource + 0) + 0 + [made].count resource
          omega
  | kept made now =>
      show 0 + pool.queue.count resource + ((made :: held).count resource + 0) + 0 + 0 =
        [made].count resource + pool.queue.count resource + (held.count resource + 0) + 0 + 0
      simp only [List.count_cons, List.count_nil]
      omega
  | pooled returned now hopen =>
      show 0 + (pool.queue ++ [returned]).count resource + (held.count resource + 0) + 0 + 0 =
        0 + pool.queue.count resource + (held.count resource + [returned].count resource) + 0 + 0
      rw [List.count_append]
      omega
  | left returned now =>
      show 0 + pool.queue.count resource + (held.count resource + 0) + [returned].count resource + 0 =
        0 + pool.queue.count resource + (held.count resource + [returned].count resource) + 0 + 0
      omega
  | @drew taken now _ drawn rest hqueue =>
      rw [hqueue]
      show 0 + rest.count resource + (held.count resource + [drawn].count resource) +
          taken.count resource + 0 =
        0 + (drawn :: rest).count resource + (held.count resource + 0) + taken.count resource + 0
      simp only [List.count_cons, List.count_nil]
      omega
  | struckOff drawn taken now =>
      show 0 + pool.queue.count resource + (held.count resource + 0) +
          (taken ++ [drawn]).count resource + 0 =
        0 + pool.queue.count resource + (held.count resource + [drawn].count resource) +
          taken.count resource + 0
      rw [List.count_append]
      omega
  | disposed gone next =>
      show 0 + pool.queue.count resource + (held.count resource + 0) + next.rest.count resource +
          [gone].count resource =
        0 + pool.queue.count resource + (held.count resource + 0) +
          (gone :: next.rest).count resource + 0
      simp only [List.count_cons, List.count_nil]
      omega
  | finished outcome now =>
      cases outcome with
      | acquired taken => exact absurd rfl (horderly.barren taken)
      | _ => rfl
  | raised text call hasked => exact absurd rfl (horderly.unraised text)
  | _ => rfl

end Transition

end Pooling.Fixed
