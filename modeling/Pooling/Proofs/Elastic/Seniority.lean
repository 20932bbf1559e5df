import Pooling.Proofs.Elastic.Succession

/-!
Calls on an elastic pool one after another, by a clock that never goes back: what is available has
been idle the longer, the later it comes in the list.
-/

namespace Pooling.Elastic

variable {R : Type} [DecidableEq R]

def Call.isDone : Call R → Bool
  | done _ => true
  | _ => false

omit [DecidableEq R] in
theorem Call.vetted_of_isDone {call : Call R} (hdone : call.isDone = true) : call.vetted = [] := by
  cases call with
  | done => rfl
  | _ => cases hdone

/-- Where what comes after a good one is good as well, the good ones are the end of the list. -/
theorem exists_suffix {α : Type u} {good : α → Bool} {items : List α}
    (hpairwise : items.Pairwise fun front back => good front = true → good back = true) :
    ∃ others rest, items = others ++ rest ∧ (∀ item ∈ others, good item = false) ∧
      ∀ item ∈ rest, good item = true := by
  induction items with
  | nil => exact ⟨[], [], rfl, List.forall_mem_nil _, List.forall_mem_nil _⟩
  | cons first items ih =>
      obtain ⟨hfirst, hitems⟩ := List.pairwise_cons.mp hpairwise
      cases hgood : good first with
      | true =>
          refine ⟨[], first :: items, rfl, List.forall_mem_nil _, ?_⟩
          exact List.forall_mem_cons.mpr ⟨hgood, fun item hmem => hfirst item hmem hgood⟩
      | false =>
          obtain ⟨others, rest, rfl, hothers, hrest⟩ := ih hitems
          exact ⟨first :: others, rest, rfl, List.forall_mem_cons.mpr ⟨hgood, hothers⟩, hrest⟩

theorem Pool.isExpired_idleTimeout {pool : Pool R} {resource : R}
    (htracked : (pool.tracked.get? resource).isSome) (limit : Duration) (now : Reading) :
    isExpired { pool with expiry := .idleTimeout limit } now resource =
      decide (limit.millis < now.since (pool.accessed resource)) := by
  obtain ⟨tracked, hget⟩ := Option.isSome_iff_exists.mp htracked
  rw [isExpired, accessed, hget]
  rfl

/-- A resource is given back from when the caller asks for that. -/
theorem Transition.begins_of_returning {move : Move R} {call : Call R} {pool : Pool R}
    {advanced : Call.Advanced R} (htransition : Transition move call pool advanced) {resource : R}
    {reading : Reading} (hreturning : advanced.call = .returning resource reading) :
    move.reading? = some reading := by
  cases htransition with
  | begin request now =>
      cases request <;> cases hreturning
      rfl
  | _ => cases hreturning

namespace Annals

/-- Nobody else is in a call, and the clock does not go back. -/
def inTurn (annals : Annals R) (event : Event R) : Bool :=
  (annals.system.callers.zipIdx.all fun (caller, index) =>
      index = event.caller || caller.call.isDone) &&
    annals.latest ≤ event.move.reading?.getD annals.latest

omit [DecidableEq R] in
theorem isDone_of_inTurn {annals : Annals R} {event : Event R}
    (hturn : annals.inTurn event = true) {index : Nat} {caller : Caller R}
    (hcaller : annals.system.callers[index]? = some caller) (hne : index ≠ event.caller) :
    caller.call.isDone = true := by
  have hall := List.all_eq_true.mp (Bool.and_eq_true_iff.mp hturn).1 (caller, index)
    (List.mem_zipIdx_iff_getElem?.mpr hcaller)
  simpa [hne] using hall

omit [DecidableEq R] in
theorem latest_le_of_inTurn {annals : Annals R} {event : Event R}
    (hturn : annals.inTurn event = true) :
    annals.latest ≤ event.move.reading?.getD annals.latest :=
  of_decide_eq_true (Bool.and_eq_true_iff.mp hturn).2

/-- Where nobody else is in a call, nobody vets what is given back. -/
theorem carefully_of_inTurn {annals : Annals R} {event : Event R}
    (hturn : annals.inTurn event = true) : annals.carefully event = true := by
  unfold carefully System.careful
  split
  next caller hcaller =>
    rw [List.all_eq_true]
    intro resource hreturned
    rw [decide_eq_true_eq, System.vetted, List.mem_flatMap]
    rintro ⟨other, hother, hvetted⟩
    obtain ⟨index, hindex⟩ := List.getElem?_of_mem hother
    by_cases hself : index = event.caller
    · subst hself
      obtain rfl : other = caller := Option.some.inj (hindex.symm.trans hcaller)
      cases hcall : other.call <;> simp [hcall, Call.returned, Call.vetted] at hreturned hvetted
    · rw [Call.vetted_of_isDone (isDone_of_inTurn hturn hindex hself)] at hvetted
      cases hvetted
  next => rfl

structure Senior (annals : Annals R) : Prop where
  accessed_le : ∀ resource, annals.system.pool.accessed resource ≤ annals.latest
  ordered : annals.system.pool.available.Pairwise fun front back =>
    annals.system.pool.accessed back ≤ annals.system.pool.accessed front
  returning_le : ∀ caller ∈ annals.system.callers, ∀ resource reading,
    caller.call = .returning resource reading →
      reading ≤ annals.latest ∧ ∀ other, annals.system.pool.accessed other ≤ reading

theorem senior_start (options : ElasticOptions) (counter : Counter) (count : Nat) :
    (start options counter count : Annals R).Senior where
  accessed_le := fun _ => UInt64.le_refl _
  ordered := List.Pairwise.nil
  returning_le := by
    intro caller hcaller resource reading hreturning
    rw [System.eq_of_mem_start hcaller] at hreturning
    cases hreturning

namespace Stepped

variable {before after : Annals R} {event : Event R} {caller : Caller R}
  {advanced : Call.Advanced R}

theorem latest_le (hstepped : Stepped before event after caller advanced)
    (hturn : before.inTurn event = true) : before.latest ≤ after.latest := by
  rw [hstepped.latest_eq]
  exact latest_le_of_inTurn hturn

theorem accessed_le (hstepped : Stepped before event after caller advanced)
    (hturn : before.inTurn event = true) (hsenior : before.Senior) (resource : R) :
    after.system.pool.accessed resource ≤ after.latest := by
  have hlatest := hstepped.latest_le hturn
  have hsystem := hstepped.stepped
  rw [hsystem.pool_eq]
  rcases hsystem.transition.accessed_eq resource with hsame | hgone | ⟨hnow, -⟩ | ⟨hreturned, -⟩
  · rw [hsame]
    exact UInt64.le_trans (hsenior.accessed_le resource) hlatest
  · have hzero : advanced.pool.accessed resource = 0 := by rw [Pool.accessed, hgone]; rfl
    rw [hzero]
    exact UInt64.zero_le
  · rw [hstepped.latest_eq, hnow]
    exact UInt64.le_refl _
  · exact UInt64.le_trans
      (hsenior.returning_le caller hsystem.mem_callers resource _ hreturned).1 hlatest

theorem ordered_accessed (hstepped : Stepped before event after caller advanced)
    (hbefore : before.system.pool.Consistent) (hafter : after.system.pool.Consistent)
    (hsenior : before.Senior) :
    after.system.pool.available.Pairwise fun front back =>
      after.system.pool.accessed back ≤ after.system.pool.accessed front := by
  have hsystem := hstepped.stepped
  have hpool := hsystem.pool_eq
  rcases available_of_perform? hsystem.performed with ⟨hsublist, -⟩ | hpooled
  · rw [← hpool] at hsublist
    -- What stays available was not in use before, and is not in use after.
    have hsame : ∀ resource ∈ after.system.pool.available,
        after.system.pool.accessed resource = before.system.pool.accessed resource := by
      intro resource hmem
      have hidle := (hafter.mem_available_iff resource).mp hmem
      have hwas := (hbefore.mem_available_iff resource).mp (hsublist.subset hmem)
      have haccessed := hsystem.transition.accessed_eq resource
      rw [← hpool] at haccessed
      rcases haccessed with hsame | hgone | ⟨-, hout⟩ | ⟨-, hout⟩
      · exact hsame
      · rw [Pool.checkedOut?, hgone] at hidle
        cases hidle
      · cases hidle.symm.trans hout
      · cases hwas.symm.trans hout
    refine (hsenior.ordered.sublist hsublist).imp_of_mem ?_
    intro front back hfront hback hle
    rwa [hsame front hfront, hsame back hback]
  · obtain ⟨resource, reading, hcall, -, hout, hgiven⟩ := hpooled
    have haccessed : ∀ other, after.system.pool.accessed other =
        if other = resource then reading else before.system.pool.accessed other := by
      rw [hpool, hgiven]
      exact Pool.accessed_markReturned hout reading
    have hle := (hsenior.returning_le caller hsystem.mem_callers resource reading hcall).2
    have hspared : ∀ other ∈ before.system.pool.available, other ≠ resource := by
      rintro other hmem rfl
      cases ((hbefore.mem_available_iff other).mp hmem).symm.trans hout
    have havailable : after.system.pool.available = resource :: before.system.pool.available := by
      rw [hpool, hgiven]
    rw [havailable, List.pairwise_cons]
    constructor
    · intro other hmem
      rw [haccessed, haccessed, if_pos rfl, if_neg (hspared other hmem)]
      exact hle other
    · refine hsenior.ordered.imp_of_mem ?_
      intro front back hfront hback hle
      rwa [haccessed, haccessed, if_neg (hspared front hfront), if_neg (hspared back hback)]

theorem returning_le (hstepped : Stepped before event after caller advanced)
    (hturn : before.inTurn event = true) (hsenior : before.Senior) :
    ∀ moved ∈ after.system.callers, ∀ resource reading,
      moved.call = .returning resource reading →
        reading ≤ after.latest ∧ ∀ other, after.system.pool.accessed other ≤ reading := by
  intro moved hmoved resource reading hreturning
  obtain ⟨index, hindex⟩ := List.getElem?_of_mem hmoved
  obtain ⟨mid, hmid, hwoken⟩ := hstepped.stepped.caller_after hindex
  have hcall : mid.call = .returning resource reading := by
    rcases hwoken with rfl | rfl
    · exact hreturning
    · exact Call.eq_of_woken hreturning (by simp)
  rcases hmid with ⟨rfl, -⟩ | ⟨hother, hne⟩
  · have hreading := hstepped.stepped.transition.begins_of_returning hcall
    have hnow : after.latest = reading := by
      rw [hstepped.latest_eq, hreading]
      rfl
    rw [← hnow]
    exact ⟨UInt64.le_refl _, hstepped.accessed_le hturn hsenior⟩
  · have hdone := isDone_of_inTurn hturn hother hne
    rw [hcall] at hdone
    cases hdone

theorem senior (hstepped : Stepped before event after caller advanced)
    (hturn : before.inTurn event = true) (hbefore : before.system.pool.Consistent)
    (hafter : after.system.pool.Consistent) (hsenior : before.Senior) : after.Senior where
  accessed_le := hstepped.accessed_le hturn hsenior
  ordered := hstepped.ordered_accessed hbefore hafter hsenior
  returning_le := hstepped.returning_le hturn hsenior

end Stepped

theorem Reaches.careful {before after : Annals R}
    (hreaches : Reaches inTurn before after) : Reaches carefully before after :=
  Runs.Reaches.mono hreaches fun _ _ => carefully_of_inTurn

theorem Reaches.senior {options : ElasticOptions} {counter : Counter} {count : Nat}
    {annals : Annals R} (hreaches : Reaches inTurn (start options counter count) annals) :
    annals.Ordered counter ∧ annals.Senior := by
  refine Runs.Reaches.invariant hreaches (fun annals => annals.Ordered counter ∧ annals.Senior)
    ⟨ordered_start options counter count, senior_start options counter count⟩ ?_
  rintro before after event ⟨hordered, hsenior⟩ hturn hstep
  obtain ⟨caller, advanced, hstepped⟩ := stepped_of_step? hstep
  have hafter := hstepped.ordered hordered (carefully_of_inTurn hturn)
  exact ⟨hafter, hstepped.senior hturn hordered.sound.consistent hafter.sound.consistent hsenior⟩

/-- What comes later in the list of the available has been idle as long or longer. -/
structure Seniority (annals : Annals R) : Prop where
  isSome : ∀ resource ∈ annals.system.pool.available,
    (annals.system.pool.tracked.get? resource).isSome
  ordered : annals.system.pool.available.Pairwise fun front back =>
    annals.system.pool.accessed back ≤ annals.system.pool.accessed front
  idlest_of_fifo : annals.system.pool.selection = .fifo →
    ∀ patience waited now patience' resource,
      (Call.seek patience waited now annals.system.pool).call = .checking patience' resource →
        ∀ other ∈ annals.system.pool.available,
          annals.system.pool.accessed resource ≤ annals.system.pool.accessed other
  expired_suffix : ∀ limit now, ∃ fresh idle, annals.system.pool.available = fresh ++ idle ∧
    (∀ resource ∈ fresh,
      Pool.isExpired { annals.system.pool with expiry := .idleTimeout limit } now resource =
        false) ∧
    ∀ resource ∈ idle,
      Pool.isExpired { annals.system.pool with expiry := .idleTimeout limit } now resource = true

theorem Senior.seniority {annals : Annals R} (hsenior : annals.Senior)
    (hconsistent : annals.system.pool.Consistent) : annals.Seniority := by
  have hisSome : ∀ resource ∈ annals.system.pool.available,
      (annals.system.pool.tracked.get? resource).isSome := by
    intro resource hmem
    have hidle := (hconsistent.mem_available_iff resource).mp hmem
    rw [Pool.checkedOut?, Option.map_eq_some_iff] at hidle
    obtain ⟨tracked, hget, -⟩ := hidle
    rw [hget]
    rfl
  refine ⟨hisSome, hsenior.ordered, ?_, fun limit now => exists_suffix ?_⟩
  · intro hfifo patience waited now patience' resource hpolled other hmem
    obtain ⟨rest, hchoose⟩ := Call.chosen_of_seek hpolled
    rw [hfifo] at hchoose
    have hpairwise := hsenior.ordered
    rw [Pool.available_of_choose? hchoose] at hmem hpairwise
    rcases List.mem_append.mp hmem with hmem | hmem
    · exact (List.pairwise_append.mp hpairwise).2.2 other hmem resource
        (List.mem_singleton_self _)
    · rw [List.mem_singleton.mp hmem]
      exact UInt64.le_refl _
  · refine hsenior.ordered.imp_of_mem ?_
    intro front back hfront hback hle hexpired
    rw [Pool.isExpired_idleTimeout (hisSome front hfront)] at hexpired
    rw [Pool.isExpired_idleTimeout (hisSome back hback)]
    have hlonger := Reading.since_le_since hle now
    exact decide_eq_true (UInt64.lt_of_lt_of_le (of_decide_eq_true hexpired) hlonger)

/-- What is available stands in the order in which it was given back, whatever calls come in
between each other; where they come one after another, that is the order of its age as well. -/
theorem succession_of_reaches {options : ElasticOptions} {counter : Counter} {count : Nat}
    {annals : Annals R} :
    (Reaches carefully (start options counter count) annals → annals.Succession) ∧
      (Reaches inTurn (start options counter count) annals →
        annals.Succession ∧ annals.Seniority) := by
  constructor
  · exact fun hreaches => hreaches.ordered.succession
  · intro hreaches
    obtain ⟨hordered, hsenior⟩ := hreaches.senior
    exact ⟨hordered.succession, hsenior.seniority hordered.sound.consistent⟩

/-- Three resources, the second of them made before the others, are given back one after another.
It is the one that is too old to be kept, and the one given back first is handed out again. -/
def turnover : List (Event Nat) :=
  [(2, 0), (1, 5), (3, 5)].flatMap (fun (resource, now) =>
      [⟨0, .begin .acquire now, 0⟩, ⟨0, .turn now, 0⟩, ⟨0, .make (.ok resource), 0⟩,
        ⟨0, .turn now, 0⟩]) ++
    [(1, 10), (2, 11), (3, 12)].flatMap (fun (resource, now) =>
      [⟨0, .begin (.release resource) now, 0⟩, ⟨0, .turn now, 0⟩]) ++
    [⟨0, .begin .collect 13, 0⟩, ⟨0, .turn 13, 0⟩, ⟨0, .turn 13, 0⟩, ⟨0, .dispose, 0⟩,
      ⟨0, .turn 13, 0⟩, ⟨0, .begin .tryAcquire 14, 0⟩, ⟨0, .turn 14, 0⟩, ⟨0, .check true, 0⟩,
      ⟨0, .begin (.release 1) 15, 0⟩, ⟨0, .turn 15, 0⟩]

/-- Two callers take what is there, and the one that took the first gives it back the last. -/
def overtaking : List (Event Nat) :=
  [⟨1, .begin .tryAcquire 16, 0⟩, ⟨1, .turn 16, 0⟩, ⟨0, .begin .tryAcquire 16, 0⟩,
    ⟨0, .turn 16, 0⟩, ⟨1, .check true, 0⟩, ⟨0, .check true, 0⟩, ⟨1, .begin (.release 3) 17, 0⟩,
    ⟨0, .begin (.release 1) 18, 0⟩, ⟨0, .turn 18, 0⟩, ⟨1, .turn 19, 0⟩]

/-- A pool that hands out what has been idle the longest, and keeps nothing for longer than eight
milliseconds. -/
def shortLived : ElasticOptions where
  maxCapacity := 3
  minCapacity := 0
  selection := .fifo
  expiry := .timeToLive (.ofMillis 8)

theorem succession_of_turnover : ∃ annals later : Annals Nat,
    run? inTurn turnover (start shortLived .silent 2) = some annals ∧
      annals.system.pool.available = [1, 3] ∧ annals.system.disposed = [2] ∧
      annals.Succession ∧ annals.Seniority ∧
      run? carefully overtaking annals = some later ∧
      later.system.pool.available = [3, 1] ∧ later.Succession := by
  have hruns : ((run? inTurn turnover (start shortLived .silent 2)).bind fun annals =>
      (run? carefully overtaking annals).map fun later =>
        ((annals.system.pool.available, annals.system.disposed), later.system.pool.available)) =
      some (([1, 3], [2]), [3, 1]) := by decide
  obtain ⟨annals, hrun, hlater⟩ := Option.bind_eq_some_iff.mp hruns
  obtain ⟨later, hlate, hends⟩ := Option.map_eq_some_iff.mp hlater
  simp only [Prod.mk.injEq] at hends
  obtain ⟨⟨havailable, hdisposed⟩, havailable'⟩ := hends
  have hreaches : Reaches inTurn (start shortLived .silent 2) annals := Runs.reaches_of_run? hrun
  obtain ⟨hsuccession, hseniority⟩ := succession_of_reaches.2 hreaches
  exact ⟨annals, later, hrun, havailable, hdisposed, hsuccession, hseniority, hlate, havailable',
    succession_of_reaches.1 (hreaches.careful.trans (Runs.reaches_of_run? hlate))⟩

end Annals

end Pooling.Elastic
