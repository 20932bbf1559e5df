import Pooling.Proofs.Elastic.Representation
import Pooling.Proofs.Tables

/-!
The order in which an elastic pool keeps what is available: last released, first in the list. What
is taken out of the list, at either end or in the middle, leaves the others in their order.
-/

namespace Pooling.Elastic

variable {R : Type} [DecidableEq R]

namespace Pool

omit [DecidableEq R] in
theorem available_of_choose?_lifo {available rest : List R} {resource : R}
    (hchoose : choose? .lifo available = some (resource, rest)) :
    available = resource :: rest := by
  cases available with
  | nil => cases hchoose
  | cons first others =>
      cases hchoose
      rfl

omit [DecidableEq R] in
theorem rest_sublist {selection : Selection} {available rest : List R} {resource : R}
    (hchoose : choose? selection available = some (resource, rest)) : rest.Sublist available := by
  cases selection with
  | lifo =>
      rw [available_of_choose?_lifo hchoose]
      exact List.sublist_cons_self _ _
  | fifo =>
      rw [available_of_choose? hchoose]
      exact List.sublist_append_left _ _

theorem takeSlot_sublist (pool : Pool R) :
    pool.takeSlot.2.available.Sublist pool.available := by
  unfold takeSlot
  split
  next => exact List.Sublist.refl _
  next =>
    split
    next resource rest hchoose => exact rest_sublist hchoose
    next => split <;> exact List.Sublist.refl _

theorem kept_sublist (now : Reading) (available : List R) (pool : Pool R) :
    (sweep now available pool).2.1.Sublist available := by
  induction available generalizing pool with
  | nil => exact List.Sublist.refl _
  | cons resource available ih =>
      rw [sweep]
      split
      next => exact (ih (pool.untrack resource)).cons resource
      next => exact (ih pool).cons_cons resource

theorem collect_sublist (pool : Pool R) (now : Reading) :
    (pool.collect now).2.available.Sublist pool.available := by
  unfold collect
  split
  next => exact List.Sublist.refl _
  next => exact kept_sublist now pool.available pool

/-- When a resource was last given back, or was made if it was not given back yet. -/
def accessed (pool : Pool R) (resource : R) : Reading :=
  ((pool.tracked.get? resource).map fun tracked => tracked.lifetime.lastAccess).getD 0

theorem accessed_of_same {pool other : Pool R} {resource : R}
    (hsame : (other.tracked.get? resource).map (fun tracked => tracked.lifetime.lastAccess) =
      (pool.tracked.get? resource).map fun tracked => tracked.lifetime.lastAccess) :
    other.accessed resource = pool.accessed resource :=
  congrArg (Option.getD · 0) hsame

theorem accessed_checkOut (pool : Pool R) (resource other : R) (rest : List R) :
    (pool.checkOut resource rest).accessed other = pool.accessed other := by
  apply accessed_of_same
  simp only [checkOut, Table.get?_modify]
  split
  next => simp [Function.comp_def]
  next => rfl

theorem accessed_markReturned {pool : Pool R} {resource : R}
    (hout : pool.checkedOut? resource = some true) (reading : Reading) (other : R) :
    (pool.markReturned resource reading).accessed other =
      if other = resource then reading else pool.accessed other := by
  obtain ⟨tracked, htracked, -⟩ := Option.map_eq_some_iff.mp hout
  simp only [accessed, markReturned, Table.get?_modify]
  split
  next heq => simp [heq, htracked, Lifetime.touch]
  next => rfl

theorem accessed_track (pool : Pool R) (resource other : R) (now : Reading) :
    (pool.track resource now).accessed other =
      if other = resource then now else pool.accessed other := by
  simp only [accessed, track, Table.get?_insert]
  split
  next => rfl
  next => rfl

theorem accessed_or_gone (pool : Pool R) (gone : List R) (other : R) :
    (gone.foldl untrack pool).accessed other = pool.accessed other ∨
      (gone.foldl untrack pool).tracked.get? other = none := by
  have hget : (gone.foldl untrack pool).tracked.get? other =
      if other ∈ gone then none else pool.tracked.get? other := by
    rw [foldl_untrack]
    exact Table.get?_foldl_erase _ _ _
  by_cases hgone : other ∈ gone
  · exact .inr (hget.trans (if_pos hgone))
  · rw [if_neg hgone] at hget
    exact .inl (accessed_of_same (by rw [hget]))

end Pool

namespace Call

omit [DecidableEq R] in
theorem available_sleepOrGiveUp (patience : Patience) (now : Reading) (pool : Pool R) :
    (sleepOrGiveUp patience now pool).pool.available = pool.available := by
  unfold sleepOrGiveUp
  split
  next => rfl
  next => rfl
  next => split <;> rfl

omit [DecidableEq R] in
theorem sleepOrGiveUp_ne_checking (patience : Patience) (now : Reading) (pool : Pool R)
    (patience' : Patience) (resource : R) :
    (sleepOrGiveUp patience now pool).call ≠ checking patience' resource := by
  unfold sleepOrGiveUp
  split
  next => simp
  next => simp
  next => split <;> simp [timedOut]

theorem available_seek (patience : Patience) (waited : Bool) (now : Reading) (pool : Pool R) :
    (seek patience waited now pool).pool.available = pool.takeSlot.2.available := by
  unfold seek
  split
  next after hslot => rw [hslot]
  next resource after hslot => rw [hslot]
  next after hslot => rw [hslot]
  next after hslot =>
    rw [hslot]
    exact available_sleepOrGiveUp patience now after

/-- The resource that a look for a slot takes is the one whose turn it is. -/
theorem chosen_of_seek {patience patience' : Patience} {waited : Bool} {now : Reading}
    {pool : Pool R} {resource : R}
    (hpolled : (seek patience waited now pool).call = checking patience' resource) :
    ∃ rest, Pool.choose? pool.selection pool.available = some (resource, rest) := by
  unfold seek at hpolled
  split at hpolled
  next => cases hpolled
  next chosen after hslot =>
    cases hpolled
    unfold Pool.takeSlot at hslot
    split at hslot
    next => cases hslot
    next =>
      split at hslot
      next chosen rest hchoose =>
        cases hslot
        exact ⟨rest, hchoose⟩
      next => split at hslot <;> cases hslot
  next => cases hpolled
  next after hslot => exact absurd hpolled (sleepOrGiveUp_ne_checking patience now after _ _)

/-- The resource that a move has given back. -/
def givenBack? (before after : Call R) : Option R :=
  match before, after with
  | returning resource _, done .released => some resource
  | returning resource _, closing _ (.finish .released) => some resource
  | _, _ => none

end Call

/-- What a move does to the list of the available. -/
theorem available_of_perform? {move : Move R} {call : Call R} {pool : Pool R}
    {advanced : Call.Advanced R} (hperformed : move.perform? call pool = some advanced) :
    advanced.pool.available.Sublist pool.available ∧
        (call.givenBack? advanced.call = none ∨ pool.closed = true) ∨
      ∃ resource reading, call = .returning resource reading ∧ advanced.call = .done .released ∧
        pool.checkedOut? resource = some true ∧
        advanced.pool = { pool.markReturned resource reading with
          available := resource :: pool.available } := by
  have htransition := transition_of_perform? hperformed
  cases htransition with
  | granted patience waited now =>
      have hsame := congrArg (fun advanced => advanced.pool.available)
        (Option.some.inj hperformed)
      refine .inl ⟨?_, .inl rfl⟩
      rw [← hsame]
      exact (Call.available_seek patience waited now pool).symm ▸ pool.takeSlot_sublist
  | scanned now =>
      have hsame := congrArg (fun advanced => advanced.pool.available)
        (Option.some.inj hperformed)
      refine .inl ⟨?_, .inl rfl⟩
      rw [← hsame]
      exact pool.collect_sublist now
  | shut now hopen hcount =>
      refine .inl ⟨?_, .inl rfl⟩
      rw [Pool.foldl_untrack_eq]
      exact List.nil_sublist _
  | pooled resource reading now hopen hout =>
      exact .inr ⟨resource, reading, rfl, rfl, hout, rfl⟩
  | returnedLate resource reading now hclosed hout => exact .inl ⟨List.Sublist.refl _, .inr hclosed⟩
  | begin | barred | reserved | waits | givesUp | timesOut | made | failed | late | duplicate | kept
  | passed | condemned | forgot | forgotAgain | refused | scannedNothing | shutAgain | cutShort
  | disposed | finished | swept | sweeps | drained | drains | retries | retriesTooLate | overslept
  | retired => exact .inl ⟨List.Sublist.refl _, .inl rfl⟩
  | raised text call pool hasked =>
      refine .inl ⟨List.Sublist.refl _, .inl ?_⟩
      rcases hasked with rfl | ⟨_, _, rfl⟩ | ⟨_, _, rfl⟩ <;> rfl

def Move.reading? : Move R → Option Reading
  | begin _ now => some now
  | turn now => some now
  | _ => none

/-- What a move does to the time of a resource's last access. -/
theorem Transition.accessed_eq {move : Move R} {call : Call R} {pool : Pool R}
    {advanced : Call.Advanced R} (htransition : Transition move call pool advanced) (other : R) :
    advanced.pool.accessed other = pool.accessed other ∨
      advanced.pool.tracked.get? other = none ∨
      move.reading? = some (advanced.pool.accessed other) ∧
        advanced.pool.checkedOut? other = some true ∨
      call = .returning other (advanced.pool.accessed other) ∧
        pool.checkedOut? other = some true := by
  cases htransition with
  | granted => exact .inl (Pool.accessed_checkOut _ _ _ _)
  | kept resource now hopen hnew =>
      have haccessed := Pool.accessed_track { pool with creating := pool.creating - 1 } resource
        other now
      by_cases heq : other = resource
      · rw [if_pos heq] at haccessed
        refine .inr (.inr (.inl ⟨congrArg some haccessed.symm, ?_⟩))
        exact (Pool.checkedOut?_track _ _ _ _).trans (if_pos heq)
      · exact .inl (haccessed.trans (if_neg heq))
  | forgot patience resource now htracked =>
      exact (pool.accessed_or_gone [resource] other).imp_right .inl
  | pooled resource reading now hopen hout =>
      have haccessed := Pool.accessed_markReturned hout reading other
      by_cases heq : other = resource
      · subst heq
        rw [if_pos rfl] at haccessed
        exact .inr (.inr (.inr ⟨congrArg (Call.returning other) haccessed.symm, hout⟩))
      · exact .inl (haccessed.trans (if_neg heq))
  | returnedLate resource reading now hclosed hout =>
      by_cases heq : other = resource
      · refine .inr (.inl ((Table.get?_erase _ _ _).trans (if_pos heq)))
      · rcases (pool.markReturned resource reading).accessed_or_gone [resource] other with
          hsame | hgone
        · refine .inl (hsame.trans ?_)
          exact (Pool.accessed_markReturned hout reading other).trans (if_neg heq)
        · exact .inr (.inl hgone)
  | @scanned now _ hopen taken left => exact (pool.accessed_or_gone taken other).imp_right .inl
  | shut now hopen hcount =>
      exact (Pool.accessed_or_gone { pool with closed := true, available := [] } pool.available
        other).imp_right .inl
  | begin | barred | reserved | waits | givesUp | timesOut | made | failed | late | duplicate
  | passed | condemned | forgotAgain | refused | scannedNothing | shutAgain | cutShort
  | disposed | finished | swept | sweeps | drained | drains | retries | retriesTooLate | overslept
  | retired | raised => exact .inl rfl

/-- A system, and when each of its resources was last given back: the number of the event. -/
structure Annals (R : Type) where
  system : System R
  count : Nat := 0
  returned : R → Nat := fun _ => 0
  /-- The latest reading of the clock. -/
  latest : Reading := 0

namespace Annals

def start (options : ElasticOptions) (counter : Counter) (count : Nat) : Annals R where
  system := System.start options counter count

def step? (annals : Annals R) (event : Event R) : Option (Annals R) := do
  let caller ← annals.system.callers[event.caller]?
  let advanced ← event.move.perform? caller.call annals.system.pool
  let system ← annals.system.step? event
  some {
    system
    count := annals.count + 1
    returned := fun resource =>
      if caller.call.givenBack? advanced.call = some resource then annals.count + 1
      else annals.returned resource
    latest := event.move.reading?.getD annals.latest }

def carefully (annals : Annals R) (event : Event R) : Bool := System.careful annals.system event

abbrev Reaches (law : Annals R → Event R → Bool) : Annals R → Annals R → Prop :=
  Runs.Reaches step? law

abbrev run? (law : Annals R → Event R → Bool) : List (Event R) → Annals R → Option (Annals R) :=
  Runs.run? step? law

/-- What an event does, and what is told of it. -/
structure Stepped (before : Annals R) (event : Event R) (after : Annals R) (caller : Caller R)
    (advanced : Call.Advanced R) : Prop where
  stepped : System.Stepped before.system event after.system caller advanced
  count_eq : after.count = before.count + 1
  returned_eq : ∀ resource, after.returned resource =
    if caller.call.givenBack? advanced.call = some resource then before.count + 1
    else before.returned resource
  latest_eq : after.latest = event.move.reading?.getD before.latest

theorem stepped_of_step? {before after : Annals R} {event : Event R}
    (hstep : before.step? event = some after) :
    ∃ caller advanced, Stepped before event after caller advanced := by
  simp only [step?, Option.bind_eq_bind, Option.bind_eq_some_iff, Option.some.injEq] at hstep
  obtain ⟨caller, hcaller, advanced, hperformed, system, hsystem, rfl⟩ := hstep
  obtain ⟨caller', advanced', hstepped⟩ := System.stepped_of_step? hsystem
  obtain rfl : caller' = caller := Option.some.inj (hstepped.caller_at.symm.trans hcaller)
  obtain rfl : advanced' = advanced := Option.some.inj (hstepped.performed.symm.trans hperformed)
  exact ⟨caller', advanced', hstepped, rfl, fun _ => rfl, rfl⟩

/-- Last given back is first in the list. -/
structure Ordered (counter : Counter) (annals : Annals R) : Prop where
  sound : annals.system.Sound counter
  ordered : annals.system.pool.available.Pairwise fun front back =>
    annals.returned back < annals.returned front
  returned_le : ∀ resource, annals.returned resource ≤ annals.count
  returned_pos : ∀ resource ∈ annals.system.pool.available, 0 < annals.returned resource

theorem ordered_start (options : ElasticOptions) (counter : Counter) (count : Nat) :
    (start options counter count : Annals R).Ordered counter where
  sound := System.sound_start options counter count
  ordered := List.Pairwise.nil
  returned_le := fun _ => Nat.le_refl _
  returned_pos := fun resource hmem => by cases hmem

theorem Stepped.ordered {counter : Counter} {before after : Annals R} {event : Event R}
    {caller : Caller R} {advanced : Call.Advanced R}
    (hstepped : Stepped before event after caller advanced) (hordered : before.Ordered counter)
    (hcareful : before.carefully event = true) : after.Ordered counter := by
  have hconsistent := hordered.sound.consistent
  have hsystem := hstepped.stepped
  have hcount := hstepped.count_eq
  have hle : ∀ resource, after.returned resource ≤ after.count := by
    intro resource
    have hbefore := hordered.returned_le resource
    rw [hstepped.returned_eq]
    split <;> omega
  rcases available_of_perform? hsystem.performed with ⟨hsublist, hnone⟩ | hpooled
  · rw [← hsystem.pool_eq] at hsublist
    -- What is given back to a closed pool is not available, nor is anything else.
    have hsame : ∀ resource ∈ after.system.pool.available,
        after.returned resource = before.returned resource := by
      intro resource hmem
      rw [hstepped.returned_eq]
      rcases hnone with hnone | hclosed
      · rw [hnone]
        rfl
      · rw [hconsistent.available_of_closed hclosed] at hsublist
        rw [List.sublist_nil.mp hsublist] at hmem
        cases hmem
    refine ⟨hsystem.sound hordered.sound hcareful, ?_, hle, ?_⟩
    · refine (hordered.ordered.sublist hsublist).imp_of_mem ?_
      intro front back hfront hback hlater
      rwa [hsame front hfront, hsame back hback]
    · intro resource hmem
      rw [hsame resource hmem]
      exact hordered.returned_pos resource (hsublist.subset hmem)
  · obtain ⟨resource, reading, hcall, hdone, hout, hpool⟩ := hpooled
    have havailable : after.system.pool.available = resource :: before.system.pool.available := by
      rw [hsystem.pool_eq, hpool]
    have hback : caller.call.givenBack? advanced.call = some resource := by
      rw [hcall, hdone]
      rfl
    have hnew : ∀ other ∈ before.system.pool.available,
        after.returned other = before.returned other := by
      intro other hmem
      have hne : resource ≠ other := by
        rintro rfl
        rw [hconsistent.mem_available_iff, hout] at hmem
        cases hmem
      rw [hstepped.returned_eq, hback, if_neg fun heq => hne (Option.some.inj heq)]
    have hnow : after.returned resource = before.count + 1 := by
      rw [hstepped.returned_eq, if_pos hback]
    refine ⟨hsystem.sound hordered.sound hcareful, ?_, hle, ?_⟩
    · rw [havailable, List.pairwise_cons]
      constructor
      · intro other hmem
        rw [hnew other hmem, hnow]
        exact Nat.lt_succ_of_le (hordered.returned_le other)
      · refine hordered.ordered.imp_of_mem ?_
        intro front back hfront hback hlater
        rwa [hnew front hfront, hnew back hback]
    · intro other hmem
      rw [havailable] at hmem
      rcases List.mem_cons.mp hmem with rfl | hmem
      · rw [hnow]
        exact Nat.succ_pos _
      · rw [hnew other hmem]
        exact hordered.returned_pos other hmem

theorem Reaches.ordered {options : ElasticOptions} {counter : Counter} {count : Nat}
    {annals : Annals R} (hreaches : Reaches carefully (start options counter count) annals) :
    annals.Ordered counter := by
  refine Runs.Reaches.invariant hreaches (Ordered counter) (ordered_start options counter count) ?_
  intro before after event hordered hcareful hstep
  obtain ⟨caller, advanced, hstepped⟩ := stepped_of_step? hstep
  exact hstepped.ordered hordered hcareful

/-- The available resources stand in the list in the order in which they were given back. -/
structure Succession (annals : Annals R) : Prop where
  ordered : annals.system.pool.available.Pairwise fun front back =>
    annals.returned back < annals.returned front
  returned_pos : ∀ resource ∈ annals.system.pool.available, 0 < annals.returned resource
  newest_of_lifo : annals.system.pool.selection = .lifo →
    ∀ patience waited now patience' resource,
      (Call.seek patience waited now annals.system.pool).call = .checking patience' resource →
        resource ∈ annals.system.pool.available ∧
          ∀ other ∈ annals.system.pool.available, other ≠ resource →
            annals.returned other < annals.returned resource
  oldest_of_fifo : annals.system.pool.selection = .fifo →
    ∀ patience waited now patience' resource,
      (Call.seek patience waited now annals.system.pool).call = .checking patience' resource →
        resource ∈ annals.system.pool.available ∧
          ∀ other ∈ annals.system.pool.available, other ≠ resource →
            annals.returned resource < annals.returned other

theorem Ordered.succession {counter : Counter} {annals : Annals R}
    (hordered : annals.Ordered counter) : annals.Succession where
  ordered := hordered.ordered
  returned_pos := hordered.returned_pos
  newest_of_lifo := by
    intro hlifo patience waited now patience' resource hpolled
    obtain ⟨rest, hchoose⟩ := Call.chosen_of_seek hpolled
    rw [hlifo] at hchoose
    have hsplit := Pool.available_of_choose?_lifo hchoose
    have hpairwise := hordered.ordered
    rw [hsplit, List.pairwise_cons] at hpairwise
    rw [hsplit]
    refine ⟨List.mem_cons_self, fun other hmem hne => ?_⟩
    exact hpairwise.1 other ((List.mem_cons.mp hmem).resolve_left hne)
  oldest_of_fifo := by
    intro hfifo patience waited now patience' resource hpolled
    obtain ⟨rest, hchoose⟩ := Call.chosen_of_seek hpolled
    rw [hfifo] at hchoose
    have hsplit := Pool.available_of_choose? hchoose
    have hpairwise := hordered.ordered
    rw [hsplit, List.pairwise_append] at hpairwise
    rw [hsplit]
    refine ⟨List.mem_append_right _ (List.mem_singleton_self _), fun other hmem hne => ?_⟩
    rcases List.mem_append.mp hmem with hmem | hmem
    · exact hpairwise.2.2 other hmem resource (List.mem_singleton_self _)
    · exact absurd (List.mem_singleton.mp hmem) hne

end Annals

end Pooling.Elastic
