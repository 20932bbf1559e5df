import Pooling.Proofs.Handles.Registrations

/-!
How handles go, told by what is done to them in a run. A handle that is released, dropped or unwound
looks for its pool: whether the pool is there by then decides between a return and a leak. Nothing
else returns a resource or leaks it.
-/

namespace Pooling.Handles

variable {R : Type}

/-- The handle goes, in one way or another. -/
def Act.parts : Act R → Bool
  | .leave => true
  | .detach => true
  | .forget => true
  | _ => false

/-- What an event does to a handle. -/
def Event.deed? (handle : Nat) : Event R → Option (Act R)
  | .act other deed => if other = handle then some deed else none
  | _ => none

def deeds (handle : Nat) (events : List (Event R)) : List (Act R) :=
  events.filterMap (Event.deed? handle)

def partings (handle : Nat) (events : List (Event R)) : List (Act R) :=
  (deeds handle events).filter Act.parts

theorem deed?_act_self (handle : Nat) (act : Act R) :
    (Event.act handle act).deed? handle = some act :=
  if_pos rfl

theorem eq_act_of_deed? {handle : Nat} {event : Event R} {act : Act R}
    (hdeed : event.deed? handle = some act) : event = .act handle act := by
  unfold Event.deed? at hdeed
  split at hdeed
  next other found =>
    obtain ⟨rfl, heq⟩ := Option.ite_none_right_eq_some.mp hdeed
    rw [Option.some.inj heq]
  next => cases hdeed

theorem partings_append (handle : Nat) (early late : List (Event R)) :
    partings handle (early ++ late) = partings handle early ++ partings handle late := by
  rw [partings, deeds, List.filterMap_append, List.filter_append]
  rfl

theorem mem_partings {handle : Nat} {events : List (Event R)} {act : Act R}
    (hparts : act.parts = true) : act ∈ partings handle events ↔ .act handle act ∈ events := by
  rw [partings, List.mem_filter, deeds, List.mem_filterMap]
  constructor
  · rintro ⟨⟨event, hmem, hdeed⟩, -⟩
    exact eq_act_of_deed? hdeed ▸ hmem
  · intro hmem
    exact ⟨⟨_, hmem, deed?_act_self handle act⟩, hparts⟩

namespace Loan

/-- The way in which a handle has gone, if it has. -/
def parted (loan : Loan R) : List (Act R) :=
  match loan.fate with
  | .undecided => if loan.stage.isLooking then [.leave] else []
  | .returned => [.leave]
  | .orphaned => [.leave]
  | .detached => [.detach]
  | .forgotten => [.forget]

/-- A handle goes only once. -/
theorem parted_of_step? {tracked : Bool} {loan moved : Loan R} (hsound : loan.Sound tracked)
    {alive : Bool} {act : Act R} {demand : Demand R}
    (hstep : loan.step? alive act = some (moved, demand)) :
    moved.parted = loan.parted ++ [act].filter Act.parts := by
  obtain ⟨pool, origin, value, stage, fate⟩ := loan
  have hfits : Fits tracked value fate stage := hsound
  cases act with
  | proceed answer =>
      obtain ⟨⟨next, asked⟩, hproceed, heq⟩ := Option.map_eq_some_iff.mp hstep
      cases heq
      cases hfits with
      | alive | forgotten | gone => cases hproceed
      | upgrading htracked =>
          cases hproceed
          cases alive <;> rfl
      | untracking result hfate | done result hfate =>
          cases hproceed
          rcases hfate with rfl | rfl <;> rfl
      | emptied hfate =>
          cases hproceed
          rcases hfate with rfl | rfl | rfl <;> rfl
      | _ =>
          cases hproceed
          rfl
  | raise =>
      cases hfits with
      | releasing =>
          cases hstep
          rfl
      | _ => cases hstep
  | _ =>
      cases hfits with
      | alive =>
          cases hstep
          rfl
      | _ => cases hstep

theorem mem_parted_leave {loan : Loan R} : .leave ∈ loan.parted ↔
    (loan.fate = .returned ∨ loan.fate = .orphaned) ∨
      loan.fate = .undecided ∧ loan.stage.isLooking = true := by
  unfold parted
  cases loan.fate with
  | undecided => cases loan.stage.isLooking <;> simp
  | _ => simp

theorem mem_parted_detach {loan : Loan R} : .detach ∈ loan.parted ↔ loan.fate = .detached := by
  unfold parted
  cases loan.fate with
  | undecided => cases loan.stage.isLooking <;> simp
  | _ => simp

theorem mem_parted_forget {loan : Loan R} : .forget ∈ loan.parted ↔ loan.fate = .forgotten := by
  unfold parted
  cases loan.fate with
  | undecided => cases loan.stage.isLooking <;> simp
  | _ => simp

theorem Sound.value_of_alive {tracked : Bool} {loan : Loan R} (hsound : loan.Sound tracked)
    {held : Handle R} (halive : loan.stage = .alive held) : loan.value = held.resource := by
  obtain ⟨pool, origin, value, stage, fate⟩ := loan
  have hfits : Fits tracked value fate stage := hsound
  cases halive
  cases hfits
  rfl

theorem Sound.undecided_of_looking {tracked : Bool} {loan : Loan R} (hsound : loan.Sound tracked)
    (hlooking : loan.stage.isLooking = true) : loan.fate = .undecided := by
  obtain ⟨pool, origin, value, stage, fate⟩ := loan
  have hfits : Fits tracked value fate stage := hsound
  cases hfits with
  | upgrading => rfl
  | _ => cases hlooking

theorem not_looking_of_rest {loan : Loan R} (hrest : loan.stage.isAtRest = true) :
    loan.stage.isLooking = false := by
  cases hstage : loan.stage with
  | ending ending => simp [hstage, Stage.isAtRest] at hrest
  | _ => rfl

theorem Sound.isHeld_iff {tracked : Bool} {loan : Loan R} (hsound : loan.Sound tracked)
    (hrest : loan.stage.isAtRest = true) :
    loan.stage.isHeld = true ↔ .leave ∉ loan.parted ∧ .detach ∉ loan.parted := by
  obtain ⟨pool, origin, value, stage, fate⟩ := loan
  have hfits : Fits tracked value fate stage := hsound
  cases hfits with
  | alive | forgotten => simp [parted, Stage.isHeld, Stage.isLooking]
  | gone hfate => rcases hfate with rfl | rfl | rfl <;> simp [parted, Stage.isHeld]
  | _ => cases hrest

end Loan

namespace Transition

variable {custody next : Custody R} {event : Event R}

/-- What an event makes of a handle that there is. -/
theorem getElem?_loans (htransition : Transition custody event next) {handle : Nat}
    {loan : Loan R} (hloan : custody.loans[handle]? = some loan) :
    ∃ moved, next.loans[handle]? = some moved ∧
      (event.deed? handle = none ∧ moved = loan ∨ ∃ act demand, event = .act handle act ∧
        loan.step? (custody.isThere loan.pool) act = some (moved, demand)) := by
  cases htransition with
  | failed | abandoned => exact ⟨loan, hloan, .inl ⟨rfl, rfl⟩⟩
  | lent pool resource howned =>
      have hbound := (List.getElem?_eq_some_iff.mp hloan).1
      exact ⟨loan, (List.getElem?_append_left hbound).trans hloan, .inl ⟨rfl, rfl⟩⟩
  | checked pool =>
      rw [Custody.loans_look]
      exact ⟨loan, hloan, .inl ⟨rfl, rfl⟩⟩
  | @acted other act found moved demand hfound hstep =>
      by_cases heq : other = handle
      · subst heq
        cases hfound.symm.trans hloan
        have hbound := (List.getElem?_eq_some_iff.mp hloan).1
        exact ⟨moved, List.getElem?_set_self hbound, .inr ⟨act, demand, rfl, hstep⟩⟩
      · exact ⟨loan, (List.getElem?_set_ne heq).trans hloan, .inl ⟨if_neg heq, rfl⟩⟩

theorem parted_eq (htransition : Transition custody event next) (hsound : custody.Sound)
    (handle : Nat) : (next.loans[handle]?).elim [] Loan.parted =
      (custody.loans[handle]?).elim [] Loan.parted ++ partings handle [event] := by
  cases hloan : custody.loans[handle]? with
  | some loan =>
      obtain ⟨moved, hmoved, ⟨hnone, rfl⟩ | ⟨act, demand, rfl, hstep⟩⟩ :=
        htransition.getElem?_loans hloan
      · simp [hmoved, partings, deeds, hnone]
      · have hparted := Loan.parted_of_step? (hsound.loans loan (List.mem_of_getElem? hloan)) hstep
        simp [hmoved, partings, deeds, deed?_act_self, hparted]
  | none =>
      cases htransition with
      | failed | abandoned => simp [hloan, partings, deeds, Event.deed?]
      | checked pool => simp [Custody.loans_look, hloan, partings, deeds, Event.deed?]
      | lent pool resource howned =>
          show ((custody.loans ++ [custody.newLoan pool resource])[handle]?).elim [] Loan.parted = _
          have hout := List.getElem?_eq_none_iff.mp hloan
          rw [List.getElem?_append_right hout]
          cases handle - custody.loans.length <;>
            simp [partings, deeds, Event.deed?, Custody.newLoan, Loan.parted, Stage.isLooking]
      | @acted other act found moved demand hfound hstep =>
          have hne : other ≠ handle := by
            rintro rfl
            cases hfound.symm.trans hloan
          show ((custody.loans.set other moved)[handle]?).elim [] Loan.parted = _
          simp [List.getElem?_set_ne hne, hloan, partings, deeds, Event.deed?, hne]

theorem isOwned_before (htransition : Transition custody event next) {pool : Nat}
    (howned : next.isOwned pool = true) : custody.isOwned pool = true := by
  cases htransition with
  | failed | lent | acted => exact howned
  | abandoned gone =>
      simp only [Custody.isOwned, List.contains_cons, Bool.and_eq_true, Bool.not_eq_true',
        Bool.or_eq_false_iff] at howned ⊢
      exact ⟨howned.1, howned.2.2⟩
  | checked other =>
      unfold Custody.look at howned
      split at howned
      next => exact howned
      next => exact howned

end Transition

namespace Custody

variable {first custody later : Custody R} {events : List (Event R)} {handle : Nat}

theorem Reaches.sound (hreaches : Reaches anyhow custody later) (hsound : custody.Sound) :
    later.Sound :=
  hreaches.invariant Sound hsound fun hsound _ hstep => (transition_of_step? hstep).2.sound hsound

theorem Reaches.isOwned_before (hreaches : Reaches anyhow custody later) {pool : Nat}
    (howned : later.isOwned pool = true) : custody.isOwned pool = true := by
  induction hreaches with
  | refl => exact howned
  | tail _ hlast ih =>
      obtain ⟨event, -, hstep⟩ := hlast
      exact ih ((transition_of_step? hstep).2.isOwned_before howned)

theorem partings_eq (hrun : run? anyhow events first = some custody) (hsound : first.Sound)
    (hnew : first.loans = []) (handle : Nat) :
    partings handle events = (custody.loans[handle]?).elim [] Loan.parted := by
  refine (Runs.invariant_of_run? hrun (fun past custody => custody.Sound ∧
    partings handle past = (custody.loans[handle]?).elim [] Loan.parted)
    ⟨hsound, by rw [hnew]; rfl⟩ ?_).2
  intro past custody next event hholds _ hstep
  obtain ⟨hsound, hparted⟩ := hholds
  have htransition := (transition_of_step? hstep).2
  refine ⟨htransition.sound hsound, ?_⟩
  rw [partings_append, hparted, htransition.parted_eq hsound]

/-- A handle is left as it is by a run in which nothing is done to it. -/
theorem getElem?_of_untouched (hrun : run? anyhow events custody = some later)
    (huntouched : deeds handle events = []) {loan : Loan R}
    (hloan : custody.loans[handle]? = some loan) : later.loans[handle]? = some loan := by
  refine Runs.invariant_of_run? hrun (fun past custody =>
    deeds handle past = [] → custody.loans[handle]? = some loan) (fun _ => hloan) ?_ huntouched
  intro past custody next event hholds _ hstep huntouched
  rw [deeds, List.filterMap_append, List.append_eq_nil_iff] at huntouched
  obtain ⟨hpast, hlast⟩ := huntouched
  obtain ⟨moved, hmoved, ⟨-, rfl⟩ | ⟨act, demand, rfl, -⟩⟩ :=
    (transition_of_step? hstep).2.getElem?_loans (hholds hpast)
  · exact hmoved
  · simp [deed?_act_self] at hlast

/-- What has become of a resource is not undone. -/
theorem Reaches.getElem?_loans (hreaches : Reaches anyhow custody later) (hsound : custody.Sound)
    {loan : Loan R} (hloan : custody.loans[handle]? = some loan) :
    ∃ moved, later.loans[handle]? = some moved ∧ moved.pool = loan.pool ∧
      (loan.fate ≠ .undecided → moved.fate = loan.fate ∧ moved.value = loan.value) := by
  refine (hreaches.invariant (fun custody => custody.Sound ∧ ∃ moved,
    custody.loans[handle]? = some moved ∧ moved.pool = loan.pool ∧
      (loan.fate ≠ .undecided → moved.fate = loan.fate ∧ moved.value = loan.value))
    ⟨hsound, loan, hloan, rfl, fun _ => ⟨rfl, rfl⟩⟩ ?_).2
  intro custody next event hkept _ hstep
  obtain ⟨hsound, before, hbefore, hpool, hdecided⟩ := hkept
  have htransition := (transition_of_step? hstep).2
  refine ⟨htransition.sound hsound, ?_⟩
  obtain ⟨moved, hmoved, ⟨-, rfl⟩ | ⟨act, demand, -, hmoves⟩⟩ := htransition.getElem?_loans hbefore
  · exact ⟨moved, hmoved, hpool, hdecided⟩
  · have hstepped := Loan.stepped_of_step?
      (hsound.loans before (List.mem_of_getElem? hbefore)) hmoves
    refine ⟨moved, hmoved, hstepped.pool_eq.trans hpool, fun hnot => ?_⟩
    obtain ⟨hfate, hvalue⟩ := hdecided hnot
    rcases hstepped.course with ⟨hundecided, -⟩ | ⟨hsame, hkept, -⟩
    · exact absurd (hfate.symm.trans hundecided) hnot
    · exact ⟨hsame.trans hfate, hkept.trans hvalue⟩

/-- In a run from `first`, a handle was released, dropped or unwound while it held `value`, and the
next thing it did was to look for its pool, which was there by then or was not. -/
inductive Left (first : Custody R) (handle : Nat) : List (Event R) → R → Bool → Prop
  | intro {early middle late : List (Event R)} {answer : Except PoolError Unit}
      {before looking : Custody R} {loan : Loan R} {held : Handle R}
      (hbefore : run? anyhow early first = some before)
      (hloan : before.loans[handle]? = some loan) (hheld : loan.stage = .alive held)
      (hlooking : run? anyhow (early ++ .act handle .leave :: middle) first = some looking)
      (hmeanwhile : deeds handle middle = []) :
      Left first handle
        (early ++ .act handle .leave :: middle ++ .act handle (.proceed answer) :: late)
        held.resource (looking.isThere loan.pool)

theorem getElem?_of_act {act : Act R} (hstep : custody.step? (.act handle act) = some later)
    {loan : Loan R} (hloan : custody.loans[handle]? = some loan) :
    ∃ moved demand, later.loans[handle]? = some moved ∧
      loan.step? (custody.isThere loan.pool) act = some (moved, demand) := by
  obtain ⟨moved, hmoved, ⟨hnone, -⟩ | ⟨found, demand, heq, hmoves⟩⟩ :=
    (transition_of_step? hstep).2.getElem?_loans hloan
  · simp [deed?_act_self] at hnone
  · cases heq
    exact ⟨moved, demand, hmoved, hmoves⟩

/-- Only a handle that is alive can be left. -/
theorem alive_of_leave (hstep : custody.step? (.act handle .leave) = some later) :
    ∃ loan held, custody.loans[handle]? = some loan ∧ loan.stage = .alive held ∧
      later.loans[handle]? = some { loan with stage := .ending (.start held) } := by
  obtain ⟨loan, hloan⟩ : ∃ loan, custody.loans[handle]? = some loan := by
    cases (transition_of_step? hstep).2 with
    | acted _ _ hloan => exact ⟨_, hloan⟩
  obtain ⟨moved, demand, hmoved, hmoves⟩ := getElem?_of_act hstep hloan
  cases hstage : loan.stage with
  | alive held =>
      simp only [Loan.step?, hstage, Option.some.injEq, Prod.mk.injEq] at hmoves
      exact ⟨loan, held, hloan, hstage, hmoves.1 ▸ hmoved⟩
  | _ => simp [Loan.step?, hstage] at hmoves

theorem getElem?_of_look {answer : Except PoolError Unit}
    (hstep : custody.step? (.act handle (.proceed answer)) = some later) {loan : Loan R}
    {held : Handle R} (hloan : custody.loans[handle]? = some loan)
    (hlooking : loan.stage = .ending (.start held)) :
    ∃ moved, later.loans[handle]? = some moved ∧
      moved.fate = (if custody.isThere loan.pool then .returned else .orphaned) ∧
      moved.value = loan.value ∧ moved.pool = loan.pool := by
  obtain ⟨moved, demand, hmoved, hmoves⟩ := getElem?_of_act hstep hloan
  obtain ⟨⟨stage, asked⟩, -, heq⟩ := Option.map_eq_some_iff.mp hmoves
  cases heq
  refine ⟨_, hmoved, ?_, rfl, rfl⟩
  simp [Loan.fated, hlooking, Ending.start, Stage.isLooking]

/-- Where a handle that was left has looked for its pool, and the run from there. -/
theorem Left.exists_look {value : R} {there : Bool} (hleft : Left first handle events value there)
    (hrun : run? anyhow events first = some custody) (hsound : first.Sound) :
    ∃ (looking next : Custody R) (loan : Loan R) (held : Handle R)
      (answer : Except PoolError Unit), looking.Sound ∧ looking.loans[handle]? = some loan ∧
      loan.stage = .ending (.start held) ∧ loan.value = value ∧
      looking.isThere loan.pool = there ∧
      looking.step? (.act handle (.proceed answer)) = some next ∧ Reaches anyhow next custody := by
  cases hleft with
  | @intro early middle late answer before looking loan held hbefore hloan hheld hlooking
      hmeanwhile =>
      obtain ⟨found, next, hfound, -, hlook, hlate⟩ := Runs.exists_of_run?_cons hrun
      cases hfound.symm.trans hlooking
      obtain ⟨found, left, hfound, -, hleave, hmiddle⟩ := Runs.exists_of_run?_cons hlooking
      cases hfound.symm.trans hbefore
      obtain ⟨same, kept, hsame, hkept, hleft⟩ := alive_of_leave hleave
      cases hsame.symm.trans hloan
      cases hkept.symm.trans hheld
      have hsoundBefore := Reaches.sound (Runs.reaches_of_run? hbefore) hsound
      have hsoundLooking := Reaches.sound (Runs.reaches_of_run? hlooking) hsound
      have hvalue := (hsoundBefore.loans loan (List.mem_of_getElem? hloan)).value_of_alive hheld
      have hstill := getElem?_of_untouched hmiddle hmeanwhile hleft
      exact ⟨looking, next, _, held, answer, hsoundLooking, hstill, rfl, hvalue, rfl, hlook,
        Runs.reaches_of_run? hlate⟩

theorem Left.decided {value : R} {there : Bool} (hleft : Left first handle events value there)
    (hrun : run? anyhow events first = some custody) (hsound : first.Sound) :
    ∃ loan, custody.loans[handle]? = some loan ∧
      loan.fate = (if there then .returned else .orphaned) ∧ loan.value = value ∧
      (custody.isOwned loan.pool = true → there = true) := by
  obtain ⟨looking, next, loan, held, answer, hlooking, hloan, hstage, hvalue, hthere, hlook,
    hrest⟩ := hleft.exists_look hrun hsound
  obtain ⟨moved, hmoved, hfate, hsame, hpool⟩ := getElem?_of_look hlook hloan hstage
  rw [hthere] at hfate
  have hdecided : moved.fate ≠ .undecided := by
    rw [hfate]
    split <;> simp
  have hnext := (transition_of_step? hlook).2
  obtain ⟨last, hlast, hat, hkeeps⟩ := Reaches.getElem?_loans hrest (hnext.sound hlooking) hmoved
  obtain ⟨hstays, hkeeps⟩ := hkeeps hdecided
  refine ⟨last, hlast, hstays.trans hfate, hkeeps.trans (hsame.trans hvalue), fun howned => ?_⟩
  rw [hat.trans hpool] at howned
  have hearlier := hnext.isOwned_before (Reaches.isOwned_before hrest howned)
  rw [← hthere, isThere, hearlier, Bool.true_or]

/-- A handle that was left has looked for its pool, or is about to. -/
theorem left_of_leave (hrun : run? anyhow events first = some custody)
    (hleave : .act handle .leave ∈ events) :
    (∃ value there, Left first handle events value there) ∨
      ∃ loan, custody.loans[handle]? = some loan ∧ loan.stage.isLooking = true := by
  obtain ⟨early, rest, rfl⟩ := List.append_of_mem hleave
  obtain ⟨before, left, hbefore, -, hstep, hrest⟩ := Runs.exists_of_run?_cons hrun
  obtain ⟨loan, held, hloan, hheld, hleft⟩ := alive_of_leave hstep
  cases hdeeds : deeds handle rest with
  | nil =>
      right
      exact ⟨_, getElem?_of_untouched hrest hdeeds hleft, rfl⟩
  | cons deed others =>
      left
      obtain ⟨middle, event, late, rfl, huntouched, hdeed, -⟩ :=
        List.filterMap_eq_cons_iff.mp hdeeds
      have hmeanwhile : deeds handle middle = [] := List.filterMap_eq_nil_iff.mpr huntouched
      obtain rfl := eq_act_of_deed? hdeed
      rw [← List.cons_append, ← List.append_assoc] at hrun ⊢
      obtain ⟨looking, next, hlooking, -, hnext, -⟩ := Runs.exists_of_run?_cons hrun
      obtain ⟨found, again, hfound, -, hagain, hmiddle⟩ := Runs.exists_of_run?_cons hlooking
      cases hfound.symm.trans hbefore
      cases hagain.symm.trans hstep
      have hstill := getElem?_of_untouched hmiddle hmeanwhile hleft
      obtain ⟨moved, demand, -, hmoves⟩ := getElem?_of_act hnext hstill
      cases deed with
      | proceed answer =>
          exact ⟨_, _, .intro hbefore hloan hheld hlooking hmeanwhile⟩
      | _ => cases hmoves

theorem any_set_of_same {holds : Loan R → Bool} {loans : List (Loan R)} {loan moved : Loan R}
    (hloan : loans[handle]? = some loan) (hsame : holds moved = holds loan) :
    (loans.set handle moved).any holds = loans.any holds := by
  induction loans generalizing handle with
  | nil => rfl
  | cons other loans ih =>
      cases handle with
      | zero =>
          cases hloan
          rw [List.set_cons_zero, List.any_cons, List.any_cons, hsame]
      | succ handle => rw [List.set_cons_succ, List.any_cons, List.any_cons, ih hloan]

theorem isThere_of_leave (hstep : custody.step? (.act handle .leave) = some later) (pool : Nat) :
    later.isThere pool = custody.isThere pool := by
  obtain ⟨loan, held, hloan, halive, -⟩ := alive_of_leave hstep
  cases (transition_of_step? hstep).2 with
  | @acted _ _ found moved demand hfound hmoves =>
      cases hfound.symm.trans hloan
      simp only [Loan.step?, halive, Option.some.injEq, Prod.mk.injEq] at hmoves
      obtain ⟨rfl, rfl⟩ := hmoves
      refine congrArg (custody.isOwned pool || ·) (any_set_of_same hloan ?_)
      simp [halive, Ending.start, Stage.isKeeping]

/-- How a handle has fared, told by the run and not by what the handle shows. -/
structure Fared (first : Custody R) (events : List (Event R)) (custody : Custody R) (handle : Nat)
    (loan : Loan R) : Prop where
  returned_iff : ∀ value,
    loan.fate = .returned ∧ loan.value = value ↔ Left first handle events value true
  orphaned_iff : ∀ value,
    loan.fate = .orphaned ∧ loan.value = value ↔ Left first handle events value false
  detached_iff : loan.fate = .detached ↔ .act handle .detach ∈ events
  forgotten_iff : loan.fate = .forgotten ↔ .act handle .forget ∈ events
  left_iff : loan.stage.isAtRest →
    (loan.fate = .returned ∨ loan.fate = .orphaned ↔ .act handle .leave ∈ events)
  held_iff : loan.stage.isAtRest →
    (loan.stage.isHeld ↔ .act handle .leave ∉ events ∧ .act handle .detach ∉ events)
  returned_of_owned : loan.stage.isAtRest → .act handle .leave ∈ events →
    custody.isOwned loan.pool → loan.fate = .returned
  -- Where nothing comes in between, a handle finds its pool if it is there when the handle goes.
  returned_iff_there : ∀ early answer late before,
    events = early ++ .act handle .leave :: .act handle (.proceed answer) :: late →
    run? anyhow early first = some before →
    (loan.fate = .returned ↔ before.isThere loan.pool)

/-- What handles and detectors show of each other, whatever pools answer and whatever overlaps. -/
structure Exact (first : Custody R) (events : List (Event R)) (custody : Custody R) : Prop where
  returned_once : ∀ (handle : Nat) (loan : Loan R) (value : R),
    custody.loans[handle]? = some loan → Left first handle events value true →
    custody.returns.filter (fun given => given.handle = handle) = [⟨handle, loan.pool, value⟩]
  returned_never : ∀ handle, (∀ value, ¬ Left first handle events value true) →
    custody.returns.filter (fun given => given.handle = handle) = []
  fared : ∀ (handle : Nat) (loan : Loan R), custody.loans[handle]? = some loan →
    Fared first events custody handle loan
  outstanding_eq : custody.AtRest → ∀ (index : Nat) (detector : LeakDetector),
    custody.detectors[index]? = some detector → detector.enabled = true →
    detector.outstanding = .ofNat (custody.held index)
  leaked_eq : custody.AtRest → ∀ (index : Nat) (detector : LeakDetector),
    custody.detectors[index]? = some detector → detector.enabled = true →
    detector.leaked = .ofNat (custody.outlived index)
  running : custody.exited = false
  rests : ∃ later, Reaches anyhow custody later ∧ later.AtRest ∧ Undisturbed custody later

/-- A handle whose resource was returned or orphaned is one that was left. -/
theorem left_of_fate (hrun : run? anyhow events first = some custody) (hsound : first.Sound)
    (hnew : first.loans = []) {loan : Loan R} (hloan : custody.loans[handle]? = some loan)
    (hfate : loan.fate = .returned ∨ loan.fate = .orphaned) :
    Left first handle events loan.value (decide (loan.fate = .returned)) := by
  have hparted := partings_eq hrun hsound hnew handle
  rw [hloan, Option.elim_some] at hparted
  have hleave : .act handle .leave ∈ events := by
    rw [← mem_partings rfl, hparted, Loan.mem_parted_leave]
    exact .inl hfate
  rcases left_of_leave hrun hleave with ⟨value, there, hleft⟩ | ⟨found, hfound, hlooking⟩
  · obtain ⟨found, hfound, hthere, hvalue, -⟩ := hleft.decided hrun hsound
    cases hfound.symm.trans hloan
    have heq : decide (loan.fate = .returned) = there := by
      rw [hthere]
      cases there <;> rfl
    rw [hvalue, heq]
    exact hleft
  · cases hfound.symm.trans hloan
    have hlater := Reaches.sound (Runs.reaches_of_run? hrun) hsound
    have hkept := hlater.loans loan (List.mem_of_getElem? hloan)
    have hundecided := hkept.undecided_of_looking hlooking
    rw [hundecided] at hfate
    rcases hfate with hreturned | horphaned
    · cases hreturned
    · cases horphaned

/-- Where nothing comes in between, a handle finds its pool if it is there when the handle goes. -/
theorem left_at_once {early late : List (Event R)} {answer : Except PoolError Unit}
    (hrun : run? anyhow (early ++ .act handle .leave :: .act handle (.proceed answer) :: late)
      first = some custody) (hsound : first.Sound) {before : Custody R}
    (hbefore : run? anyhow early first = some before) {loan : Loan R}
    (hloan : custody.loans[handle]? = some loan) :
    ∃ value, Left first handle
      (early ++ .act handle .leave :: .act handle (.proceed answer) :: late) value
      (before.isThere loan.pool) := by
  obtain ⟨found, left, hfound, -, hstep, hlate⟩ := Runs.exists_of_run?_cons hrun
  cases hfound.symm.trans hbefore
  obtain ⟨old, held, hold, halive, -⟩ := alive_of_leave hstep
  have hlooking : run? anyhow (early ++ [.act handle .leave]) first = some left :=
    Runs.run?_concat hbefore rfl hstep
  have hleft : Left first handle
      (early ++ [.act handle .leave] ++ .act handle (.proceed answer) :: late) held.resource
      (left.isThere old.pool) := .intro hbefore hold halive hlooking rfl
  rw [List.append_assoc, isThere_of_leave hstep] at hleft
  have hrest : Reaches anyhow before custody :=
    (Runs.reaches_of_run? hlate).head ⟨_, rfl, hstep⟩
  have hkept := Reaches.sound (Runs.reaches_of_run? hbefore) hsound
  obtain ⟨moved, hmoved, hpool, -⟩ := Reaches.getElem?_loans hrest hkept hold
  cases hmoved.symm.trans hloan
  exact ⟨held.resource, hpool ▸ hleft⟩

theorem fared_of_run (hrun : run? anyhow events first = some custody) (hsound : first.Sound)
    (hnew : first.loans = []) {loan : Loan R} (hloan : custody.loans[handle]? = some loan) :
    Fared first events custody handle loan := by
  have hlater := Reaches.sound (Runs.reaches_of_run? hrun) hsound
  have hkept := hlater.loans loan (List.mem_of_getElem? hloan)
  have hparted := partings_eq hrun hsound hnew handle
  rw [hloan, Option.elim_some] at hparted
  have hdecided : ∀ {value : R} {there : Bool}, Left first handle events value there →
      loan.fate = (if there then .returned else .orphaned) ∧ loan.value = value ∧
        (custody.isOwned loan.pool = true → there = true) := by
    intro value there hleft
    obtain ⟨found, hfound, hfared⟩ := hleft.decided hrun hsound
    cases hfound.symm.trans hloan
    exact hfared
  have hleft : loan.stage.isAtRest →
      (loan.fate = .returned ∨ loan.fate = .orphaned ↔ .act handle .leave ∈ events) := by
    intro hrest
    rw [← mem_partings rfl, hparted, Loan.mem_parted_leave, Loan.not_looking_of_rest hrest]
    simp
  constructor
  case returned_iff =>
    refine fun value => ⟨fun ⟨hfate, hvalue⟩ => ?_, fun hleft => ?_⟩
    · have hleft := left_of_fate hrun hsound hnew hloan (.inl hfate)
      rwa [hvalue, decide_eq_true hfate] at hleft
    · obtain ⟨hfate, hvalue, -⟩ := hdecided hleft
      exact ⟨hfate, hvalue⟩
  case orphaned_iff =>
    refine fun value => ⟨fun ⟨hfate, hvalue⟩ => ?_, fun hleft => ?_⟩
    · have hleft := left_of_fate hrun hsound hnew hloan (.inr hfate)
      have hnot : ¬ loan.fate = .returned := by simp [hfate]
      rwa [hvalue, decide_eq_false hnot] at hleft
    · obtain ⟨hfate, hvalue, -⟩ := hdecided hleft
      exact ⟨hfate, hvalue⟩
  case detached_iff => rw [← mem_partings rfl, hparted, Loan.mem_parted_detach]
  case forgotten_iff => rw [← mem_partings rfl, hparted, Loan.mem_parted_forget]
  case left_iff => exact hleft
  case held_iff =>
    intro hrest
    rw [hkept.isHeld_iff hrest, ← hparted, mem_partings rfl, mem_partings rfl]
  case returned_of_owned =>
    intro hrest hleave howned
    rcases (hleft hrest).mpr hleave with hreturned | horphaned
    · exact hreturned
    · have hout := left_of_fate hrun hsound hnew hloan (.inr horphaned)
      have hreturned := of_decide_eq_true ((hdecided hout).2.2 howned)
      cases horphaned.symm.trans hreturned
  case returned_iff_there =>
    rintro early answer late before rfl hbefore
    obtain ⟨value, hout⟩ := left_at_once hrun hsound hbefore hloan
    rw [(hdecided hout).1]
    cases before.isThere loan.pool <;> simp

/-- Handles give back once what they hold when they are left, if their pool is there, and are
counted exactly, on each of the ways that a handle can go. -/
theorem exact_of_run {registries : List (Option Nat)} {detectors : List LeakDetector}
    (hmild : ∀ detector ∈ detectors, detector.exitOnLeak = false) {events : List (Event R)}
    {custody : Custody R} (hrun : run? anyhow events (start registries detectors) = some custody) :
    Exact (start registries detectors) events custody := by
  have hsoundStart := sound_start (R := R) registries detectors
  have hsound := Reaches.sound (Runs.reaches_of_run? hrun) hsoundStart
  have hlenient : custody.Lenient := Runs.Reaches.invariant (Runs.reaches_of_run? hrun) Lenient
    (lenient_start registries hmild)
    fun hlenient _ hstep => hlenient.of_transition (transition_of_step? hstep).2
  have hreturns : ∀ (handle : Nat), custody.returns.filter (fun given => given.handle = handle) =
      custody.returnsOf handle := hsound.returns_eq
  constructor
  case returned_once =>
    intro handle loan value hloan hleft
    have hfared := fared_of_run hrun hsoundStart rfl hloan
    obtain ⟨hfate, hvalue⟩ := (hfared.returned_iff value).mpr hleft
    simp [hreturns, returnsOf, hloan, Loan.returned, hfate, hvalue]
  case returned_never =>
    intro handle hnever
    rw [hreturns, returnsOf]
    split
    next loan hloan =>
      have hfared := fared_of_run hrun hsoundStart rfl hloan
      have hnot : loan.fate ≠ .returned := fun hfate =>
        hnever loan.value ((hfared.returned_iff loan.value).mp ⟨hfate, rfl⟩)
      simp [Loan.returned, hnot]
    next => rfl
  case fared => exact fun handle loan hloan => fared_of_run hrun hsoundStart rfl hloan
  case outstanding_eq => exact fun hrest _ _ => hsound.outstanding_eq hrest
  case leaked_eq => exact fun hrest _ _ => hsound.leaked_eq hrest
  case running => exact hlenient.running
  case rests => exact hlenient.exists_rest

def proceeds (handle count : Nat) : List (Event Nat) :=
  List.replicate count (.act handle (.proceed (.ok ())))

/-- Handles go all the ways that there are: one is refused by its pool, one is forgotten, one is
detached, two outlive their pools, one has its pool raise, and two stay. -/
def assorted : List (Event Nat) :=
  [.acquire 0 (.acquired 10), .acquire 1 (.acquired 20), .acquire 0 (.acquired 30),
    .acquire 1 (.acquired 40), .acquire 0 (.acquired 50), .acquire 2 (.acquired 60),
    .acquire 3 (.acquired 70), .acquire 0 (.failed .closed), .acquire 0 (.acquired 80),
    .act 0 (.write 11), .act 0 .leave, .act 0 (.proceed (.ok ())),
    .act 0 (.proceed (.error .cancelled)), .act 1 .forget, .abandon 1, .act 2 .detach,
    .act 4 .leave, .act 4 (.proceed (.ok ())), .act 3 .leave, .act 4 .raise, .abandon 2,
    .act 5 .leave] ++
    proceeds 0 4 ++ proceeds 2 1 ++ proceeds 3 5 ++ proceeds 4 2 ++ proceeds 5 3

/-- Two pools share a detector, one has a detector that is off, and one has none. -/
def apart : Custody Nat :=
  start [some 0, some 0, some 1, none] [⟨"", true, false, 0, 0⟩, ⟨"", false, false, 0, 0⟩]

theorem exact_of_assorted : ∃ custody : Custody Nat,
    run? anyhow assorted apart = some custody ∧
      custody.returns = [⟨0, 0, 11⟩, ⟨4, 0, 50⟩] ∧
      custody.detectors.map (fun detector => (detector.outstanding, detector.leaked)) =
        [(2, 1), (0, 0)] ∧
      custody.loans.all (fun loan => loan.stage.isAtRest) = true ∧
      Exact apart assorted custody := by
  have hruns : (run? anyhow assorted apart).map (fun custody =>
      (custody.returns,
        custody.detectors.map (fun detector => (detector.outstanding, detector.leaked)),
        custody.loans.all fun loan => loan.stage.isAtRest)) =
      some ([⟨0, 0, 11⟩, ⟨4, 0, 50⟩], [(2, 1), (0, 0)], true) := by decide
  obtain ⟨custody, hrun, hshown⟩ := Option.map_eq_some_iff.mp hruns
  simp only [Prod.mk.injEq] at hshown
  obtain ⟨hreturns, hdetectors, hrest⟩ := hshown
  refine ⟨custody, hrun, hreturns, hdetectors, hrest, ?_⟩
  exact exact_of_run (by decide) hrun

end Custody

end Pooling.Handles
