import Pooling.Proofs.Elastic.Representation

/-!
Where a resource can be between its making and its end, and how the moves of a call take it from
one place to the next.
-/

namespace Pooling.Elastic

variable {R : Type} [DecidableEq R]

/-- The resources that wait to be closed after the one at hand. -/
def Next.rest : Next R → List R
  | .sweep rest _ => rest
  | .drain rest => rest
  | _ => []

/-- What follows the closing of a resource is no end that hands one out. -/
def Next.Barren : Next R → Prop
  | .finish outcome => ∀ resource, outcome ≠ .acquired resource
  | _ => True

namespace Call

/-- The resource that the factory has made for a call, before the pool knows of it. -/
def newborn : Call R → List R
  | .registering (.ok resource) => [resource]
  | _ => []

/-- The resources that a call has taken out of the pool for good, and still has to close. -/
def doomed : Call R → List R
  | .closing resource next => resource :: next.rest
  | .after next => next.rest
  | _ => []

def Barren : Call R → Prop
  | .closing _ next => next.Barren
  | .after next => next.Barren
  | _ => True

omit [DecidableEq R]

@[simp] theorem newborn_request (request : Request R) (now : Reading) :
    (request.call now).newborn = [] := by
  cases request <;> rfl

@[simp] theorem newborn_woken (call : Call R) : call.woken.newborn = call.newborn := by
  cases call <;> rfl

@[simp] theorem doomed_request (request : Request R) (now : Reading) :
    (request.call now).doomed = [] := by
  cases request <;> rfl

@[simp] theorem doomed_woken (call : Call R) : call.woken.doomed = call.doomed := by
  cases call <;> rfl

@[simp] theorem returned_woken (call : Call R) : call.woken.returned = call.returned := by
  cases call <;> rfl

theorem barren_request (request : Request R) (now : Reading) : (request.call now).Barren := by
  cases request <;> trivial

theorem Barren.woken {call : Call R} (hbarren : call.Barren) : call.woken.Barren := by
  cases call <;> exact hbarren

end Call

def Caller.holdings (caller : Caller R) : List R := caller.held ++ caller.call.returned

omit [DecidableEq R] in
@[simp] theorem Caller.holdings_woken (caller : Caller R) :
    caller.woken.holdings = caller.holdings :=
  congrArg (caller.held ++ ·) caller.call.returned_woken

namespace Pool

/-- One for a resource that the pool tracks, and nothing for any other. -/
def owned (pool : Pool R) (resource : R) : Nat :=
  if (pool.checkedOut? resource).isSome then 1 else 0

theorem owned_of_same {pool other : Pool R} {resource : R}
    (hsame : (other.checkedOut? resource).isSome = (pool.checkedOut? resource).isSome) :
    other.owned resource = pool.owned resource := by
  rw [owned, owned, hsame]

theorem owned_checkOut (pool : Pool R) (chosen : R) (rest : List R) (resource : R) :
    (pool.checkOut chosen rest).owned resource = pool.owned resource := by
  apply owned_of_same
  rw [checkedOut?_checkOut]
  split <;> simp

theorem owned_markReturned (pool : Pool R) (returned : R) (now : Reading) (resource : R) :
    (pool.markReturned returned now).owned resource = pool.owned resource := by
  apply owned_of_same
  rw [checkedOut?_markReturned]
  split <;> simp

theorem owned_untrack {pool : Pool R} {gone : R} (htracked : (pool.checkedOut? gone).isSome)
    (resource : R) :
    (pool.untrack gone).owned resource + [gone].count resource = pool.owned resource := by
  rw [owned, owned, checkedOut?_untrack]
  by_cases heq : resource = gone
  · subst heq
    simp [htracked]
  · simp [heq, Ne.symm heq]

theorem owned_track (pool : Pool R) {made : R} (hnew : pool.checkedOut? made = none)
    (now : Reading) (resource : R) :
    (pool.track made now).owned resource = pool.owned resource + [made].count resource := by
  rw [owned, owned, checkedOut?_track]
  by_cases heq : resource = made
  · subst heq
    simp [hnew]
  · simp [heq, Ne.symm heq]

theorem owned_foldl_untrack {pool : Pool R} {taken : List R} (hnodup : taken.Nodup)
    (htracked : ∀ resource ∈ taken, (pool.checkedOut? resource).isSome) (resource : R) :
    (taken.foldl untrack pool).owned resource + taken.count resource = pool.owned resource := by
  rw [owned, owned, checkedOut?_foldl_untrack]
  by_cases hmem : resource ∈ taken
  · simp [htracked resource hmem, hnodup.count, hmem]
  · simp [hmem, List.count_eq_zero_of_not_mem hmem]

theorem Consistent.count_available {pool : Pool R} (hconsistent : pool.Consistent)
    (resource : R) :
    pool.available.count resource + pool.out resource = pool.owned resource := by
  have hidle := hconsistent.mem_available_iff resource
  unfold out owned
  cases hchecked : pool.checkedOut? resource with
  | none =>
      have hnot : resource ∉ pool.available := by simp [hidle, hchecked]
      simp [List.count_eq_zero_of_not_mem hnot]
  | some inUse =>
      cases inUse with
      | true =>
          have hnot : resource ∉ pool.available := by simp [hidle, hchecked]
          simp [List.count_eq_zero_of_not_mem hnot]
      | false =>
          have hmem : resource ∈ pool.available := by simp [hidle, hchecked]
          simp [hconsistent.nodup_available.count, hmem]

theorem count_keys {pool : Pool R} (hkeys : pool.tracked.keys.Nodup) (resource : R) :
    pool.tracked.keys.count resource = pool.owned resource := by
  rw [hkeys.count, owned, ← contains_eq_isSome]
  simp only [Table.contains_iff_mem_keys]

end Pool

/-- The resource that a move leaves checked out for nobody: the one whose check raises. -/
def Move.strands : Move R → Call R → List R
  | raise _, .checking _ resource => [resource]
  | _, _ => []

omit [DecidableEq R] in
theorem Move.strands_of_unraised {move : Move R} (hunraised : ∀ text, move ≠ .raise text)
    (call : Call R) : move.strands call = [] := by
  cases move with
  | raise text => exact absurd rfl (hunraised text)
  | _ => rfl

/-- What a move finds where callers give back what they hold: the resources that its call has are
checked out. -/
structure Fair (move : Move R) (caller : Caller R) (pool : Pool R) : Prop where
  held : ∀ resource now, move = .begin (.release resource) now → resource ∈ caller.held
  vetted : ∀ resource ∈ caller.call.vetted, pool.checkedOut? resource = some true
  returned : ∀ resource ∈ caller.call.returned, pool.checkedOut? resource = some true
  barren : caller.call.Barren

/-- What a move finds where, besides, nothing is raised and the factory makes new resources only. -/
structure Orderly (move : Move R) (caller : Caller R) (pool : Pool R) : Prop extends
    Fair move caller pool where
  unraised : ∀ text, move ≠ .raise text
  newborn : ∀ resource ∈ caller.call.newborn, pool.checkedOut? resource = none

namespace Transition

variable {move : Move R} {call : Call R} {pool : Pool R} {advanced : Call.Advanced R}

theorem barren (htransition : Transition move call pool advanced) (hbarren : call.Barren) :
    advanced.call.Barren := by
  cases htransition with
  | begin request now outcome => exact Call.barren_request request now
  | disposed | sweeps | drains => exact hbarren
  | late | returnedLate => exact fun _ => nofun
  | _ => trivial

/-- A resource comes to be by being made and ends by being closed; in between it is new, tracked or
doomed. -/
theorem conserved {caller : Caller R} (htransition : Transition move caller.call pool advanced)
    (hconsistent : pool.Consistent) (horderly : Orderly move caller pool) (resource : R) :
    advanced.call.newborn.count resource + advanced.pool.owned resource +
        advanced.call.doomed.count resource + (move.disposes caller.call).count resource =
      caller.call.newborn.count resource + pool.owned resource +
        caller.call.doomed.count resource + move.makes.count resource := by
  obtain ⟨call, held⟩ := caller
  cases htransition with
  | begin request now outcome =>
      simp only [Call.newborn_request, Call.doomed_request]
      rfl
  | granted patience waited now hopen hchosen =>
      exact congrArg (0 + · + 0 + 0) (pool.owned_checkOut _ _ resource)
  | made answer =>
      cases answer with
      | failed source => rfl
      | ok made =>
          simp only [Call.newborn, Call.doomed, Move.makes, Move.disposes, List.count_nil]
          omega
  | late made now hclosed =>
      simp only [Call.newborn, Call.doomed, Next.rest, Move.makes, Move.disposes, List.count_nil]
      show 0 + pool.owned resource + [made].count resource + 0 = _
      omega
  -- What is new is not tracked yet, so the factory's answer is never refused as a duplicate.
  | duplicate made now hopen htracked =>
      have hnew := horderly.newborn made (by simp [Call.newborn])
      simp [hnew] at htracked
  | kept made now hopen hnew =>
      have hsame : (Pool.track { pool with creating := pool.creating - 1 } made now).owned
          resource = pool.owned resource + [made].count resource :=
        Pool.owned_track { pool with creating := pool.creating - 1 } hnew now resource
      simp only [Call.newborn, Call.doomed, Move.makes, Move.disposes, List.count_nil]
      omega
  | forgot patience gone now htracked =>
      have hgone := Pool.owned_untrack htracked resource
      simp only [Call.newborn, Call.doomed, Next.rest, Move.makes, Move.disposes, List.count_nil]
      show 0 + (pool.untrack gone).owned resource + [gone].count resource + 0 = _
      omega
  | forgotAgain patience gone now hgone =>
      have hout := horderly.vetted gone (by simp [Call.vetted])
      simp [hgone] at hout
  | pooled returned reading now hopen hout =>
      exact congrArg (0 + · + 0 + 0) (pool.owned_markReturned returned reading resource)
  | returnedLate returned reading now hclosed hout =>
      have htracked : ((pool.markReturned returned reading).checkedOut? returned).isSome := by
        simp [Pool.checkedOut?_markReturned, hout]
      have hgone := Pool.owned_untrack htracked resource
      have hsame := pool.owned_markReturned returned reading resource
      simp only [Call.newborn, Call.doomed, Next.rest, Move.makes, Move.disposes, List.count_nil]
      omega
  | @scanned now _ hopen taken left hperm hnodup htracked =>
      have hgone := Pool.owned_foldl_untrack hnodup htracked resource
      simp only [Call.newborn, Call.doomed, Next.rest, Move.makes, Move.disposes, List.count_nil]
      show 0 + (taken.foldl Pool.untrack pool).owned resource + taken.count resource + 0 = _
      omega
  | shut now hopen hcount =>
      have htracked : ∀ other ∈ pool.available, (pool.checkedOut? other).isSome :=
        fun other hmem => by simp [(hconsistent.mem_available_iff other).mp hmem]
      have hgone := Pool.owned_foldl_untrack hconsistent.nodup_available htracked resource
      have hsame : (pool.available.foldl Pool.untrack
          { pool with closed := true, available := [] }).owned resource =
            (pool.available.foldl Pool.untrack pool).owned resource :=
        Pool.owned_of_same (congrArg Option.isSome (pool.checkedOut?_shut resource))
      simp only [Call.newborn, Call.doomed, Next.rest, Move.makes, Move.disposes, List.count_nil]
      omega
  | disposed gone next =>
      simp only [Call.newborn, Call.doomed, Move.makes, Move.disposes, List.count_cons,
        List.count_nil]
      omega
  | raised text call hasked => exact absurd rfl (horderly.unraised text)
  | _ => rfl

/-- A resource is checked out while it is vetted or held, and from then on if it is stranded. -/
theorem out_eq {caller : Caller R} (htransition : Transition move caller.call pool advanced)
    (hconsistent : pool.Consistent) (hfair : Fair move caller pool) (resource : R) :
    pool.out resource + advanced.call.vetted.count resource +
        (caller.follow move advanced.call).holdings.count resource +
        (move.strands caller.call).count resource =
      advanced.pool.out resource + caller.call.vetted.count resource +
        caller.holdings.count resource := by
  obtain ⟨call, held⟩ := caller
  cases htransition with
  | begin request now outcome =>
      have hsame : (Caller.follow ⟨.done outcome, held⟩ (.begin request now)
          (request.call now)).holdings.count resource = (held ++ []).count resource := by
        cases request with
        | release returned =>
            have hheld := List.perm_cons_erase (hfair.held returned now rfl)
            have hcount := hheld.count_eq resource
            simpa [Caller.follow, Caller.holdings, Request.call, Call.release, Call.returned,
              List.count_cons] using hcount.symm
        | _ => rfl
      rw [Call.vetted_request, hsame]
      rfl
  | @granted patience waited now _ chosen rest hopen hchosen =>
      have hidle := (hconsistent.mem_available_iff chosen).mp (by simp [hchosen.mem_iff])
      have hout := Pool.out_checkOut hidle rest resource
      simp only [Call.vetted, List.count_nil, Caller.follow, Caller.holdings, Call.returned,
        Move.strands]
      omega
  | kept made now hopen hnew =>
      have hout : (Pool.track { pool with creating := pool.creating - 1 } made now).out resource =
          pool.out resource + [made].count resource :=
        Pool.out_track { pool with creating := pool.creating - 1 } hnew now resource
      simp only [Call.vetted, Caller.follow, Caller.holdings, Call.returned, Move.strands,
        List.append_nil, List.count_nil, List.count_cons] at hout ⊢
      omega
  | forgot patience gone now htracked =>
      have hle := Pool.count_le_out (hfair.vetted gone (by simp [Call.vetted])) resource
      have hout := pool.out_untrack gone resource
      show pool.out resource + 0 + (held ++ []).count resource =
        (pool.untrack gone).out resource + [gone].count resource + (held ++ []).count resource
      omega
  | forgotAgain patience gone now hgone =>
      have hout := hfair.vetted gone (by simp [Call.vetted])
      simp [hgone] at hout
  | pooled returned reading now hopen hout =>
      have hle := Pool.count_le_out hout resource
      have hreturned := pool.out_markReturned returned reading resource
      show pool.out resource + 0 + (held ++ []).count resource =
        (pool.markReturned returned reading).out resource + 0 + (held ++ [returned]).count resource
      simp only [List.count_append, List.count_nil]
      omega
  | returnedLate returned reading now hclosed hout =>
      have hle := Pool.count_le_out hout resource
      have honce := pool.out_le_one resource
      have hreturned := pool.out_markReturned returned reading resource
      have hgone := (pool.markReturned returned reading).out_untrack returned resource
      simp only [Call.vetted, Caller.follow, Caller.holdings, Call.returned, Move.strands,
        List.count_append, List.count_nil]
      omega
  | refused returned reading now misuse hnot =>
      have hout := hfair.returned returned (by simp [Call.returned])
      exact absurd hout hnot
  | @scanned now _ hopen taken left hperm hnodup htracked =>
      have hsame := hconsistent.out_collect hperm resource
      exact congrArg (· + 0 + (held ++ []).count resource) hsame.symm
  | shut now hopen hcount =>
      exact congrArg (· + 0 + (held ++ []).count resource) (hconsistent.out_shut resource).symm
  | passed patience chosen =>
      simp only [Call.vetted, Caller.follow, Caller.holdings, Call.returned, List.append_nil,
        List.count_nil, List.count_cons]
      show pool.out resource + 0 + _ = pool.out resource + _ + _
      omega
  | finished outcome now =>
      cases outcome with
      | acquired taken => exact absurd rfl (hfair.barren taken)
      | _ => rfl
  | raised text call pool hasked =>
      rcases hasked with rfl | ⟨patience, chosen, rfl⟩ | ⟨gone, next, rfl⟩
      · rfl
      · show pool.out resource + 0 + (held ++ []).count resource + [chosen].count resource =
          pool.out resource + [chosen].count resource + (held ++ []).count resource
        omega
      · rfl
  | _ => rfl

theorem doomed_le (htransition : Transition move call pool advanced)
    (hunraised : ∀ text, move ≠ .raise text) (resource : R) :
    call.doomed.count resource ≤
      advanced.call.doomed.count resource + (move.disposes call).count resource := by
  cases htransition with
  | begin request now outcome => exact Nat.zero_le _
  | raised text call hasked => exact absurd rfl (hunraised text)
  | disposed gone next =>
      simp only [Call.doomed, Move.disposes, List.count_cons, List.count_nil]
      omega
  | sweeps | drains => exact Nat.le_refl _
  | _ => exact Nat.zero_le _

end Transition

end Pooling.Elastic
