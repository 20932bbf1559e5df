import Pooling.Proofs.Elastic.Lifecycle

/-!
Resources that are given back to an elastic pool while a call checks them, by callers that do not
have them any more. The pool takes no harm from that, but in one case: the check fails, and the
resource is among the available ones again when the call gives it up.
-/

namespace Pooling.Elastic

variable {R : Type} [DecidableEq R]

namespace Pool

theorem owned_of_available {pool : Pool R} (hconsistent : pool.Consistent) {resource : R}
    (hmem : resource ∈ pool.available) : pool.owned resource = 1 := by
  have hidle := (hconsistent.mem_available_iff resource).mp hmem
  simp [owned, hidle]

theorem owned_untrack_le (pool : Pool R) (gone resource : R) :
    (pool.untrack gone).owned resource ≤ pool.owned resource := by
  rw [owned, owned, checkedOut?_untrack]
  split
  next => exact Nat.zero_le _
  next => exact Nat.le_refl _

theorem owned_untrack_self (pool : Pool R) (gone : R) : (pool.untrack gone).owned gone = 0 := by
  simp [owned, checkedOut?_untrack]

theorem owned_foldl_untrack_le (pool : Pool R) (taken : List R) (resource : R) :
    (taken.foldl untrack pool).owned resource ≤ pool.owned resource := by
  induction taken generalizing pool with
  | nil => exact Nat.le_refl _
  | cons gone taken ih => exact Nat.le_trans (ih _) (pool.owned_untrack_le gone resource)

theorem owned_foldl_untrack_of_mem (pool : Pool R) {taken : List R} {resource : R}
    (hmem : resource ∈ taken) : (taken.foldl untrack pool).owned resource = 0 := by
  rw [owned, checkedOut?_foldl_untrack, if_pos hmem]
  rfl

theorem owned_shut (pool : Pool R) (resource : R) :
    (pool.available.foldl untrack { pool with closed := true, available := [] }).owned resource =
      (pool.available.foldl untrack pool).owned resource :=
  owned_of_same (congrArg Option.isSome (pool.checkedOut?_shut resource))

end Pool

namespace Transition

variable {move : Move R} {call : Call R} {pool : Pool R} {advanced : Call.Advanced R}

theorem newborn_le (htransition : Transition move call pool advanced) (resource : R) :
    advanced.call.newborn.count resource ≤
      call.newborn.count resource + move.makes.count resource := by
  cases htransition with
  | begin request now outcome =>
      rw [Call.newborn_request]
      exact Nat.zero_le _
  | made answer =>
      cases answer with
      | ok made => exact Nat.le_add_left _ _
      | failed source => exact Nat.zero_le _
  | _ => exact Nat.zero_le _

/-- A resource is not known more often after a move than before, unless the move makes it. -/
theorem known_le (htransition : Transition move call pool advanced) (resource : R) :
    advanced.call.newborn.count resource + advanced.pool.owned resource ≤
      call.newborn.count resource + pool.owned resource + move.makes.count resource := by
  have hnewborn := htransition.newborn_le resource
  cases htransition with
  | begin request now outcome =>
      rw [Call.newborn_request]
      exact Nat.le_refl _
  | @granted patience waited now _ chosen rest hopen hchosen =>
      exact Nat.le_of_eq (congrArg (0 + ·) (pool.owned_checkOut chosen rest resource))
  | made answer =>
      show _ + pool.owned resource ≤ _
      omega
  | kept made now hopen hnew =>
      have hmore :
          (Pool.track { pool with creating := pool.creating - 1 } made now).owned resource =
            pool.owned resource + [made].count resource :=
        Pool.owned_track { pool with creating := pool.creating - 1 } hnew now resource
      simp only [Call.newborn, Move.makes, List.count_nil]
      omega
  | forgot patience gone now htracked =>
      exact Nat.add_le_add_left (pool.owned_untrack_le gone resource) 0
  | pooled returned reading now hopen hout =>
      exact Nat.le_of_eq (congrArg (0 + ·) (pool.owned_markReturned returned reading resource))
  | returnedLate returned reading now hclosed hout =>
      have hless := (pool.markReturned returned reading).owned_untrack_le returned resource
      rw [pool.owned_markReturned] at hless
      exact Nat.add_le_add_left hless 0
  | @scanned now _ hopen taken left hperm hnodup htracked =>
      exact Nat.add_le_add_left (pool.owned_foldl_untrack_le taken resource) 0
  | shut now hopen hcount =>
      have hless := pool.owned_foldl_untrack_le pool.available resource
      rw [← pool.owned_shut] at hless
      exact Nat.add_le_add_left hless 0
  | failed | late | duplicate | raised => exact Nat.add_le_add_right (Nat.zero_le _) _
  | _ => exact Nat.le_refl _

/-- A call comes to close a resource where it was known and is so no longer, or where the call was
about to give it up. -/
theorem known_lt_of_doomed (htransition : Transition move call pool advanced)
    (hconsistent : pool.Consistent) {resource : R}
    (hdoomed : resource ∈ advanced.call.doomed) (hnot : resource ∉ call.doomed) :
    resource ∈ call.rejected ∧
        advanced.call.newborn.count resource + advanced.pool.owned resource = 0 ∨
      advanced.call.newborn.count resource + advanced.pool.owned resource <
        call.newborn.count resource + pool.owned resource := by
  cases htransition with
  | begin request now outcome => simp at hdoomed
  | late made now hclosed =>
      have heq : resource = made := List.mem_singleton.mp hdoomed
      subst heq
      right
      simp only [Call.newborn, List.count_nil, List.count_singleton_self]
      show 0 + pool.owned resource < 1 + pool.owned resource
      omega
  | forgot patience gone now htracked =>
      have heq : resource = gone := List.mem_singleton.mp hdoomed
      subst heq
      refine .inl ⟨List.mem_cons_self, ?_⟩
      show 0 + (pool.untrack resource).owned resource = 0
      rw [pool.owned_untrack_self]
  | forgotAgain patience gone now hgone =>
      have heq : resource = gone := List.mem_singleton.mp hdoomed
      subst heq
      refine .inl ⟨List.mem_cons_self, ?_⟩
      show 0 + pool.owned resource = 0
      simp [Pool.owned, hgone]
  | returnedLate returned reading now hclosed hout =>
      have heq : resource = returned := List.mem_singleton.mp hdoomed
      subst heq
      have hnone := (pool.markReturned resource reading).owned_untrack_self resource
      have howned : pool.owned resource = 1 := by simp [Pool.owned, hout]
      right
      simp only [Call.newborn, List.count_nil]
      omega
  | @scanned now _ hopen taken left hperm hnodup htracked =>
      have hmem : resource ∈ taken := hdoomed
      have hnone := pool.owned_foldl_untrack_of_mem hmem
      have howned : pool.owned resource = 1 := by simp [Pool.owned, htracked resource hmem]
      right
      show 0 + (taken.foldl Pool.untrack pool).owned resource < 0 + pool.owned resource
      omega
  | shut now hopen hcount =>
      have hmem : resource ∈ pool.available := hdoomed
      have hnone := pool.owned_foldl_untrack_of_mem hmem
      have howned := Pool.owned_of_available hconsistent hmem
      rw [← pool.owned_shut] at hnone
      right
      simp only [Call.newborn, List.count_nil]
      omega
  | disposed gone next => exact absurd (List.mem_cons_of_mem gone hdoomed) hnot
  | sweeps | drains => exact absurd hdoomed hnot
  | _ => cases hdoomed

theorem available_of_vetted (htransition : Transition move call pool advanced) {resource : R}
    (hvetted : resource ∈ advanced.call.vetted) (hnot : resource ∉ call.vetted) :
    resource ∈ pool.available ∧ advanced.call.newborn = [] := by
  cases htransition with
  | begin request now outcome => simp at hvetted
  | granted patience waited now hopen hchosen =>
      refine ⟨?_, rfl⟩
      rw [hchosen.mem_iff]
      exact List.mem_cons.mpr (.inl (List.mem_singleton.mp hvetted))
  | condemned => exact absurd hvetted hnot
  | _ => cases hvetted

theorem of_begin {request : Request R} {now : Reading}
    (htransition : Transition (.begin request now) call pool advanced) :
    ∃ outcome, call = .done outcome ∧ advanced = { pool, call := request.call now } := by
  cases htransition with
  | begin request now outcome => exact ⟨outcome, rfl, rfl⟩

theorem mem_of_acquired (htransition : Transition move call pool advanced) (hbarren : call.Barren)
    {resource : R} (hacquired : advanced.call = .done (.acquired resource)) :
    resource ∈ call.newborn ∨ resource ∈ call.vetted := by
  cases htransition with
  | kept made now hopen hnew =>
      cases hacquired
      exact .inl List.mem_cons_self
  | passed patience chosen =>
      cases hacquired
      exact .inr List.mem_cons_self
  | finished outcome now =>
      cases hacquired
      exact absurd rfl (hbarren resource)
  | begin request now outcome => cases request <;> cases hacquired
  | _ => cases hacquired

/-- Giving up a resource that is among the available ones leaves it there, and untracks it. -/
theorem untracked_of_rejected (htransition : Transition move call pool advanced) {resource : R}
    (hrejected : resource ∈ call.rejected) :
    advanced.pool.available = pool.available ∧ advanced.pool.checkedOut? resource = none := by
  cases htransition with
  | forgot patience gone now htracked =>
      have heq : resource = gone := List.mem_singleton.mp hrejected
      subst heq
      refine ⟨rfl, ?_⟩
      show (pool.untrack resource).checkedOut? resource = none
      rw [Pool.checkedOut?_untrack, if_pos rfl]
  | forgotAgain patience gone now hgone =>
      have heq : resource = gone := List.mem_singleton.mp hrejected
      subst heq
      exact ⟨rfl, hgone⟩
  | raised text call pool hasked =>
      rcases hasked with rfl | ⟨_, _, rfl⟩ | ⟨_, _, rfl⟩ <;> cases hrejected
  | _ => cases hrejected

end Transition

omit [DecidableEq R] in
theorem Move.mem_doomed_of_disposes {move : Move R} {call : Call R} {resource : R}
    (hdisposes : resource ∈ move.disposes call) : resource ∈ call.doomed := by
  unfold disposes at hdisposes
  split at hdisposes
  next gone next => exact List.mem_cons.mpr (.inl (List.mem_singleton.mp hdisposes))
  next gone next => exact List.mem_cons.mpr (.inl (List.mem_singleton.mp hdisposes))
  next => cases hdisposes

/-- A call that neither has a resource to hand it out nor has handed it out. -/
structure Call.Without (resource : R) (call : Call R) : Prop where
  not_vetted : resource ∉ call.vetted
  not_acquired : call ≠ .done (.acquired resource)

omit [DecidableEq R] in
theorem Call.Without.woken {resource : R} {call : Call R} (hwithout : call.Without resource) :
    call.woken.Without resource where
  not_vetted := by
    rw [call.vetted_woken]
    exact hwithout.not_vetted
  not_acquired := by
    cases call with
    | parked patience => nofun
    | _ => exact hwithout.not_acquired

omit [DecidableEq R] in
theorem Call.without_request (resource : R) (request : Request R) (now : Reading) :
    (request.call now).Without resource := by
  refine ⟨?_, ?_⟩
  · rw [Call.vetted_request]
    exact List.not_mem_nil
  · cases request <;> nofun

theorem Transition.without {move : Move R} {call : Call R} {pool : Pool R}
    {advanced : Call.Advanced R} (htransition : Transition move call pool advanced)
    (hbarren : call.Barren) {resource : R} (hwithout : call.Without resource)
    (hnewborn : resource ∉ call.newborn) (havailable : resource ∉ pool.available) :
    advanced.call.Without resource where
  not_vetted := fun hvetted =>
    havailable (htransition.available_of_vetted hvetted hwithout.not_vetted).1
  not_acquired := fun hacquired => by
    rcases htransition.mem_of_acquired hbarren hacquired with hmem | hmem
    · exact hnewborn hmem
    · exact hwithout.not_vetted hmem

namespace System

/-- No call gives up a resource that is among the available ones. What callers give back is free. -/
def undisputed : Law R := fun system event =>
  match system.callers[event.caller]? with
  | some caller => caller.call.rejected.all fun resource => resource ∉ system.pool.available
  | none => true

theorem not_available_of_undisputed {system : System R} {event : Event R} {caller : Caller R}
    (hundisputed : undisputed system event = true)
    (hcaller : system.callers[event.caller]? = some caller) :
    ∀ resource ∈ caller.call.rejected, resource ∉ system.pool.available := by
  simpa [undisputed, hcaller] using hundisputed

theorem available_of_disputed {system : System R} {event : Event R} {caller : Caller R}
    (hdisputed : undisputed system event = false)
    (hcaller : system.callers[event.caller]? = some caller) :
    ∃ resource ∈ caller.call.rejected, resource ∈ system.pool.available := by
  simpa [undisputed, hcaller] using hdisputed

/-- How often a resource is known: on its way from the factory, or to the pool. -/
def known (system : System R) (resource : R) : Nat :=
  (system.residents .newborn).count resource + system.pool.owned resource

/-- A resource is known as often as it was made, and once less where a call has come to close it. -/
structure Untangled (system : System R) : Prop where
  consistent : system.pool.Consistent
  barren : ∀ caller ∈ system.callers, caller.call.Barren
  known_le : ∀ resource, system.known resource ≤ system.made.count resource
  known_lt : ∀ resource, resource ∈ system.residents .doomed ∨ resource ∈ system.disposed →
    system.known resource < system.made.count resource
  unborn_lt : ∀ resource ∈ system.residents .vetted,
    (system.residents .newborn).count resource < system.made.count resource

theorem untangled_start (options : ElasticOptions) (counter : Counter) (count : Nat) :
    (start options counter count : System R).Untangled where
  consistent := Pool.consistent_start options counter
  barren := by
    intro caller hcaller
    rw [eq_of_mem_start hcaller]
    trivial
  known_le := by
    intro resource
    have hnewborn := count_part_start (R := R) options counter count .newborn resource
    exact Nat.le_of_eq (congrArg (· + 0) hnewborn)
  known_lt := by
    intro resource hgone
    have hdoomed := count_part_start (R := R) options counter count .doomed resource
    rcases hgone with hgone | hgone
    · exact absurd hgone (List.count_eq_zero.mp hdoomed)
    · cases hgone
  unborn_lt := by
    intro resource hvetted
    have hnone := count_part_start (R := R) options counter count .vetted resource
    exact absurd hvetted (List.count_eq_zero.mp hnone)

namespace Stepped

variable {before after : System R} {event : Event R} {caller : Caller R}
  {advanced : Call.Advanced R}

theorem mem_before_or_call (hstepped : Stepped before event after caller advanced) (place : Place)
    {resource : R} (hmem : resource ∈ after.callers.flatMap place.part) :
    resource ∈ before.callers.flatMap place.part ∨
      resource ∈ place.part (caller.follow event.move advanced.call) ∧
        resource ∉ place.part caller := by
  by_cases hbefore : resource ∈ before.callers.flatMap place.part
  · exact .inl hbefore
  · have hparts := hstepped.count_part place resource
    have hpos := List.count_pos_iff.mpr hmem
    have hnone := List.count_eq_zero.mpr hbefore
    have hold : (place.part caller).count resource = 0 := by
      apply List.count_eq_zero.mpr
      exact fun hpart => hbefore (List.mem_flatMap.mpr ⟨caller, hstepped.mem_callers, hpart⟩)
    have hnew : 0 < (place.part (caller.follow event.move advanced.call)).count resource := by
      omega
    exact .inr ⟨List.count_pos_iff.mp hnew, List.count_eq_zero.mp hold⟩

theorem known_le (hstepped : Stepped before event after caller advanced) (resource : R) :
    after.known resource + before.made.count resource ≤
      before.known resource + after.made.count resource := by
  have hparts := hstepped.count_part .newborn resource
  have hmove := hstepped.transition.known_le resource
  simp only [known, residents, Place.part, Caller.call_follow] at hparts ⊢
  rw [hstepped.pool_eq, hstepped.made_eq, List.count_append]
  omega

theorem newborn_le (hstepped : Stepped before event after caller advanced) (resource : R) :
    (after.residents .newborn).count resource + before.made.count resource ≤
      (before.residents .newborn).count resource + after.made.count resource := by
  have hparts := hstepped.count_part .newborn resource
  have hmove := hstepped.transition.newborn_le resource
  simp only [residents, Place.part, Caller.call_follow] at hparts ⊢
  rw [hstepped.made_eq, List.count_append]
  omega

theorem known_lt_of_gone (hstepped : Stepped before event after caller advanced)
    (huntangled : before.Untangled) {resource : R}
    (hgone : resource ∈ before.residents .doomed ∨ resource ∈ before.disposed) :
    after.known resource < after.made.count resource := by
  have hbefore := huntangled.known_lt resource hgone
  have hstep := hstepped.known_le resource
  omega

/-- Once a call comes to close a resource, one of the times that it was made is used up. -/
theorem known_lt_of_doomed (hstepped : Stepped before event after caller advanced)
    (huntangled : before.Untangled) {resource : R} (hdoomed : resource ∈ advanced.call.doomed)
    (hnot : resource ∉ caller.call.doomed) :
    after.known resource < after.made.count resource := by
  have hparts := hstepped.count_part .newborn resource
  have hbefore := huntangled.known_le resource
  have hmade : after.made.count resource =
      before.made.count resource + event.move.makes.count resource := by
    rw [hstepped.made_eq, List.count_append]
  simp only [known, residents, Place.part, Caller.call_follow] at hparts hbefore ⊢
  rw [hstepped.pool_eq]
  rcases hstepped.transition.known_lt_of_doomed huntangled.consistent hdoomed hnot with
    ⟨hrejected, hnone⟩ | hless
  · have hvetted : resource ∈ before.residents .vetted :=
      List.mem_flatMap.mpr ⟨caller, hstepped.mem_callers, Call.mem_vetted_of_rejected hrejected⟩
    have hunborn := huntangled.unborn_lt resource hvetted
    simp only [residents] at hunborn
    omega
  · omega

theorem untangled (hstepped : Stepped before event after caller advanced)
    (huntangled : before.Untangled) (hundisputed : undisputed before event = true) :
    after.Untangled where
  consistent := by
    rw [hstepped.pool_eq]
    exact hstepped.transition.consistent huntangled.consistent
      (not_available_of_undisputed hundisputed hstepped.caller_at)
  barren := by
    refine hstepped.forall_callers (fun caller hbarren => hbarren.woken) huntangled.barren ?_
    exact hstepped.transition.barren (huntangled.barren caller hstepped.mem_callers)
  known_le := by
    intro resource
    have hbefore := huntangled.known_le resource
    have hstep := hstepped.known_le resource
    omega
  known_lt := by
    intro resource hgone
    rcases hgone with hdoomed | hdisposed
    · rcases hstepped.mem_before_or_call .doomed hdoomed with hbefore | ⟨hnew, hnot⟩
      · exact hstepped.known_lt_of_gone huntangled (.inl hbefore)
      · exact hstepped.known_lt_of_doomed huntangled hnew hnot
    · rw [hstepped.disposed_eq, List.mem_append] at hdisposed
      rcases hdisposed with hbefore | hnow
      · exact hstepped.known_lt_of_gone huntangled (.inr hbefore)
      · exact hstepped.known_lt_of_gone huntangled (.inl (List.mem_flatMap.mpr
          ⟨caller, hstepped.mem_callers, Move.mem_doomed_of_disposes hnow⟩))
  unborn_lt := by
    intro resource hvetted
    have hstep := hstepped.newborn_le resource
    rcases hstepped.mem_before_or_call .vetted hvetted with hbefore | ⟨hnew, hnot⟩
    · have hbefore := huntangled.unborn_lt resource hbefore
      omega
    · obtain ⟨havailable, hnone⟩ := hstepped.transition.available_of_vetted hnew hnot
      have howned := Pool.owned_of_available huntangled.consistent havailable
      have hbefore := huntangled.known_le resource
      simp only [known] at hbefore
      omega

end Stepped

theorem Reaches.untangled {options : ElasticOptions} {counter : Counter} {count : Nat}
    {system : System R} (hreaches : Reaches undisputed (start options counter count) system) :
    system.Untangled :=
  hreaches.stepwise Untangled (untangled_start options counter count)
    fun huntangled hundisputed hstepped => hstepped.untangled huntangled hundisputed

theorem Untangled.known_eq_zero {system : System R} (huntangled : system.Untangled) {resource : R}
    (hdisposed : resource ∈ system.disposed) (honce : system.made.count resource ≤ 1) :
    system.known resource = 0 := by
  have hless := huntangled.known_lt resource (.inr hdisposed)
  omega

theorem Untangled.unknown_of_disposed {system : System R} (huntangled : system.Untangled)
    {resource : R} (hdisposed : resource ∈ system.disposed)
    (honce : system.made.count resource ≤ 1) :
    resource ∉ system.residents .newborn ∧ resource ∉ system.pool.available := by
  have hnone := huntangled.known_eq_zero hdisposed honce
  rw [known, Nat.add_eq_zero_iff] at hnone
  refine ⟨List.count_eq_zero.mp hnone.1, fun hmem => ?_⟩
  have howned := Pool.owned_of_available huntangled.consistent hmem
  omega

/-- Once a resource was closed, a call that has nothing to do with it never comes to have it, unless
the factory makes it twice. -/
theorem Reaches.without {system later : System R} (hreaches : Reaches undisputed system later)
    (huntangled : system.Untangled) {resource : R} (hdisposed : resource ∈ system.disposed)
    {index : Nat}
    (hwithout : ∀ caller, system.callers[index]? = some caller → caller.call.Without resource)
    (honce : later.made.count resource ≤ 1) :
    ∀ caller, later.callers[index]? = some caller → caller.call.Without resource := by
  refine (hreaches.stepwise (fun system => system.Untangled ∧ resource ∈ system.disposed ∧
    (system.made.count resource ≤ 1 → ∀ caller, system.callers[index]? = some caller →
      caller.call.Without resource)) ⟨huntangled, hdisposed, fun _ => hwithout⟩ ?_).2.2 honce
  intro before after event caller advanced hkept hundisputed hstepped
  obtain ⟨huntangled, hdisposed, hwithout⟩ := hkept
  refine ⟨hstepped.untangled huntangled hundisputed, ?_, ?_⟩
  · rw [hstepped.disposed_eq]
    exact List.mem_append_left _ hdisposed
  · intro honce moved hmoved
    rw [hstepped.made_eq, List.count_append] at honce
    have hwithout := hwithout (Nat.le_of_add_right_le honce)
    obtain ⟨hnewborn, havailable⟩ :=
      huntangled.unknown_of_disposed hdisposed (Nat.le_of_add_right_le honce)
    obtain ⟨mid, hmid, hawake⟩ := hstepped.caller_after hmoved
    have hnext : mid.call.Without resource := by
      rcases hmid with ⟨rfl, hindex⟩ | ⟨hmid, -⟩
      · have hbefore := hwithout caller (hindex ▸ hstepped.caller_at)
        apply hstepped.transition.without (huntangled.barren caller hstepped.mem_callers) hbefore
        · exact fun hmem => hnewborn (List.mem_flatMap.mpr ⟨caller, hstepped.mem_callers, hmem⟩)
        · exact havailable
      · exact hwithout mid hmid
    rcases hawake with rfl | rfl
    · exact hnext
    · exact hnext.woken

theorem Stepped.without_of_begin {before after : System R} {event : Event R} {caller : Caller R}
    {advanced : Call.Advanced R} (hstepped : Stepped before event after caller advanced)
    {request : Request R} {now : Reading} (hbegin : event.move = .begin request now)
    (resource : R) :
    ∀ moved, after.callers[event.caller]? = some moved → moved.call.Without resource := by
  intro moved hmoved
  obtain ⟨mid, hmid, hawake⟩ := hstepped.caller_after hmoved
  have hnext : mid.call.Without resource := by
    rcases hmid with ⟨rfl, -⟩ | ⟨-, hne⟩
    · obtain ⟨outcome, -, hadvanced⟩ := Transition.of_begin (hbegin ▸ hstepped.transition)
      rw [Caller.call_follow, hadvanced]
      exact Call.without_request resource request now
    · exact absurd rfl hne
  rcases hawake with rfl | rfl
  · exact hnext
  · exact hnext.woken

theorem begin_undisputed {system begun : System R} {event : Event R} {request : Request R}
    {now : Reading} (hbegin : event.move = .begin request now)
    (hstep : system.step? event = some begun) : undisputed system event = true := by
  obtain ⟨caller, advanced, hstepped⟩ := stepped_of_step? hstep
  obtain ⟨outcome, hdone, -⟩ := Transition.of_begin (hbegin ▸ hstepped.transition)
  simp [undisputed, hstepped.caller_at, hdone, Call.rejected]

/-- What returns of resources that nobody has to give leave as it was: the available resources are
tracked, each is there once, and none of them was closed. It ends with a step that gives up an
available resource, and with no other. -/
structure Undamaged (system : System R) : Prop where
  tracked_of_available : ∀ resource ∈ system.pool.available, ∃ tracked,
    system.pool.tracked.get? resource = some tracked ∧ tracked.inUse = false
  nodup_available : system.pool.available.Nodup
  inUse_eq : system.pool.inUse = .ok (system.pool.size - system.pool.available.length)
  never_again : ∀ resource ∈ system.disposed, ∀ index request now sleeper begun,
    system.step? ⟨index, .begin request now, sleeper⟩ = some begun →
    ∀ later, Reaches undisputed begun later → later.made.count resource ≤ 1 →
    ∀ caller, later.callers[index]? = some caller → caller.call ≠ .done (.acquired resource)
  untracked_of_disputed : ∀ event after, undisputed system event = false →
    system.step? event = some after →
    ∃ resource ∈ after.pool.available, after.pool.tracked.get? resource = none

/-- Whoever gives back whatever, and whenever, an elastic pool comes to no harm as long as no call
gives up a resource that somebody has put among the available ones while the call checked it. -/
theorem undamaged_of_reaches {options : ElasticOptions} {counter : Counter} {count : Nat}
    {system : System R} (hreaches : Reaches undisputed (start options counter count) system) :
    system.Undamaged := by
  have huntangled := hreaches.untangled
  constructor
  case tracked_of_available =>
    intro resource hmem
    have hidle := (huntangled.consistent.mem_available_iff resource).mp hmem
    exact Option.map_eq_some_iff.mp hidle
  case nodup_available => exact huntangled.consistent.nodup_available
  case inUse_eq => rw [Pool.inUse, if_pos huntangled.consistent.available_length_le]
  case never_again =>
    intro resource hdisposed index request now sleeper begun hstep later hlater honce caller hcaller
    obtain ⟨mover, advanced, hstepped⟩ := stepped_of_step? hstep
    have hkept := hstepped.untangled huntangled (begin_undisputed rfl hstep)
    have hstill : resource ∈ begun.disposed := by
      rw [hstepped.disposed_eq]
      exact List.mem_append_left _ hdisposed
    have hwithout := hlater.without hkept hstill (hstepped.without_of_begin rfl resource) honce
    exact (hwithout caller hcaller).not_acquired
  case untracked_of_disputed =>
    intro event after hdisputed hstep
    obtain ⟨caller, advanced, hstepped⟩ := stepped_of_step? hstep
    obtain ⟨resource, hrejected, hmem⟩ := available_of_disputed hdisputed hstepped.caller_at
    obtain ⟨hsame, hnone⟩ := hstepped.transition.untracked_of_rejected hrejected
    rw [hstepped.pool_eq]
    exact ⟨resource, hsame ▸ hmem, Option.map_eq_none_iff.mp hnone⟩

/-- The resource 7 is given back by a caller that has it no more, while another checks it. A third
has polled it again by the time that the check fails, so that it is closed and gone. -/
def outrun : List (Event Nat) :=
  [⟨0, .begin .acquire 0, 0⟩, ⟨0, .turn 0, 0⟩, ⟨0, .make (.ok 7), 0⟩, ⟨0, .turn 0, 0⟩,
    ⟨0, .begin (.release 7) 1, 0⟩, ⟨0, .turn 1, 0⟩, ⟨1, .begin .tryAcquire 1, 0⟩, ⟨1, .turn 1, 0⟩,
    ⟨0, .begin (.release 7) 2, 0⟩, ⟨0, .turn 2, 0⟩, ⟨2, .begin .tryAcquire 2, 0⟩, ⟨2, .turn 2, 0⟩,
    ⟨1, .check false, 0⟩, ⟨1, .turn 3, 0⟩, ⟨1, .dispose, 0⟩]

theorem undamaged_of_outrun : ∃ system : System Nat,
    run? undisputed outrun (start { maxCapacity := 2 } .silent 3) = some system ∧
      system.disposed = [7] ∧ system.Undamaged := by
  have hruns : (run? undisputed outrun (start { maxCapacity := 2 } .silent 3)).map disposed =
      some [7] := by decide
  obtain ⟨system, hrun, hdisposed⟩ := Option.map_eq_some_iff.mp hruns
  exact ⟨system, hrun, hdisposed, undamaged_of_reaches (Runs.reaches_of_run? hrun)⟩

/-- As in `outrun`, but nobody polls 7 before the check fails: it is closed, and is there for the
next caller all the same. -/
def outlived : List (Event Nat) :=
  [⟨0, .begin .acquire 0, 0⟩, ⟨0, .turn 0, 0⟩, ⟨0, .make (.ok 7), 0⟩, ⟨0, .turn 0, 0⟩,
    ⟨0, .begin (.release 7) 1, 0⟩, ⟨0, .turn 1, 0⟩, ⟨1, .begin .tryAcquire 1, 0⟩, ⟨1, .turn 1, 0⟩,
    ⟨0, .begin (.release 7) 2, 0⟩, ⟨0, .turn 2, 0⟩, ⟨1, .check false, 0⟩, ⟨1, .turn 3, 0⟩,
    ⟨1, .dispose, 0⟩]

def outlivedAfter : List (Event Nat) :=
  [⟨2, .begin .tryAcquire 4, 0⟩, ⟨2, .turn 4, 0⟩, ⟨2, .check true, 0⟩]

theorem damaged_of_outlived : ∃ system later : System Nat,
    run? anyhow outlived (start { maxCapacity := 2 } .silent 3) = some system ∧
      system.pool.available = [7] ∧ system.pool.tracked.get? 7 = none ∧
      system.pool.inUse = .error .countUnderflow ∧ system.disposed = [7] ∧
      run? anyhow outlivedAfter system = some later ∧ later.made = [7] ∧
      (later.callers[2]?).map Caller.call = some (.done (.acquired 7)) ∧ ¬ system.Undamaged := by
  have hruns : (run? anyhow outlived (start { maxCapacity := 2 } .silent 3)).bind (fun system =>
      (run? anyhow outlivedAfter system).map fun later =>
        ((system.pool.available, system.pool.tracked.get? 7), (system.pool.size, system.disposed),
          later.made, (later.callers[2]?).map Caller.call)) =
      some (([7], none), (0, [7]), [7], some (.done (.acquired 7))) := by decide
  obtain ⟨system, hrun, hafter⟩ := Option.bind_eq_some_iff.mp hruns
  obtain ⟨later, hlater, hseen⟩ := Option.map_eq_some_iff.mp hafter
  simp only [Prod.mk.injEq] at hseen
  obtain ⟨⟨havailable, huntracked⟩, ⟨hsize, hdisposed⟩, hmade, hcall⟩ := hseen
  have hinUse : system.pool.inUse = .error .countUnderflow := by
    rw [Pool.inUse, hsize, havailable]
    rfl
  refine ⟨system, later, hrun, havailable, huntracked, hinUse, hdisposed, hlater, hmade, hcall, ?_⟩
  intro hundamaged
  have hcount := hundamaged.inUse_eq
  rw [hinUse] at hcount
  cases hcount

end System

end Pooling.Elastic
