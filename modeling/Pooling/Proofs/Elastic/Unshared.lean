import Pooling.Proofs.Elastic.Attendance
import Pooling.Proofs.Elastic.Raises

/-!
Handles on an elastic pool whose resources they lend out to be written: no two of them stand for one
resource, and the pool has all it had when they are through, as long as what they give back is what
they were made of or nothing that is checked out.
-/

namespace Pooling.Elastic

open Handles

variable {R : Type} [DecidableEq R]

/-- What a call may do where the pool is used through handles only, and the factory raises
nothing. -/
def Move.isScoped : Move R → Bool
  | .raise _ => false
  | .begin .tryAcquire _ => false
  | _ => true

omit [DecidableEq R] in
theorem Move.unraised_of_isScoped {move : Move R} (hscoped : move.isScoped = true) :
    ∀ text, move ≠ .raise text := by
  rintro text rfl
  cases hscoped

namespace System

/-- What is given back for a handle is what the handle was made of, or is not checked out. -/
def isFaithful (lending : Lending (System R) R) (index : Nat) : Bool :=
  lending.host.callers[index]?.all fun caller =>
    caller.call.returned.all fun resource =>
      (lending.served? index).all fun handle =>
        lending.custody.loans[handle]?.all fun loan =>
          loan.origin = resource || lending.host.pool.checkedOut? resource ≠ some true

/-- No handle gives back a resource that another stands for. -/
def harmless : Lending.Law (System R) (Event R) R := fun lending occasion =>
  match occasion with
  | .call event => event.move.isScoped && isFaithful lending event.caller
  | _ => true

/-- What every occasion keeps, where the handles in `pending` have yet to give back. -/
structure Kept (counter : Counter) (pending : List Nat) (lending : Lending (System R) R) :
    Prop where
  balanced : Balanced counter lending.custody pending lending.host
  tied : Tied lending.custody.loans lending.serving
  attended : Attended lending.custody.loans lending.serving pending lending.host

omit [DecidableEq R] in
theorem stance?_start {options : ElasticOptions} {counter : Counter} {count index : Nat}
    {settled : Option Bool} {returned : List R}
    (hstance : (start options counter count : System R).stance? index = some (settled, returned)) :
    settled = none ∧ returned = [] := by
  obtain ⟨caller, hcaller, heq⟩ := Option.map_eq_some_iff.mp hstance
  rw [eq_of_mem_start (List.mem_of_getElem? hcaller)] at heq
  cases heq
  exact ⟨rfl, rfl⟩

theorem kept_start (options : ElasticOptions) (counter : Counter) (count : Nat)
    (registries : List (Option Nat)) (detectors : List LeakDetector) :
    Kept counter [] (.start (start options counter count : System R) count registries detectors)
    where
  balanced := by
    let system : System R := start options counter count
    have hsound : system.Sound counter := sound_start options counter count
    refine ⟨hsound, ?_, ?_, Custody.owing_start registries detectors, ?_⟩
    · refine (Tally.tally_eq_zero_iff.mpr fun caller hcaller => ?_).symm
      rw [eq_of_mem_start hcaller]
      rfl
    · intro caller hcaller
      rw [eq_of_mem_start hcaller]
      trivial
    · intro resource
      have hnone : system.pool.out resource = 0 := rfl
      have hle := hsound.vetted_le resource
      show system.pool.out resource = system.vetted.count resource + 0
      omega
  tied := tied_start count
  attended := by
    have htied : Tied ([] : List (Loan R)) (List.replicate count none) := tied_start count
    constructor
    case attends => exact fun index handle hserved => absurd (htied.lt_length hserved) (by simp)
    case served =>
      intro index settled returned hstance
      cases (stance?_start hstance).1
    case waiting => exact fun handle loan hloan => by cases hloan

namespace Kept

variable {counter : Counter} {pending : List Nat} {lending next : Lending (System R) R}

theorem handled (hkept : Kept counter pending lending) {event : Handles.Event R}
    {custody : Custody R} (hfree : lending.custody.isFree event)
    (hcustody : lending.custody.step? event = some custody) :
    Kept counter pending { lending with custody } := by
  have hchange : Change asHost lending (.custody event) { lending with custody } :=
    .handled event hfree hcustody
  have htied := Lending.tied_of_change hkept.tied hchange
  obtain ⟨hbalanced, hbefore, hattended⟩ := hkept
  have howing := hbalanced.owing
  have htransition := (transition_of_step? hcustody).2
  have hsound := htransition.sound howing.sound
  cases htransition with
  | failed => exact ⟨hbalanced, htied, hattended⟩
  | lent pool resource =>
      have hother : pool ≠ 0 := by simpa [Custody.isFree] using hfree
      refine ⟨hbalanced.of_custody (howing.lend_other hother resource)
        (howing.owed_lend_other pool resource), htied, ?_⟩
      exact hattended.lend hbefore rfl fun _ _ => Iff.rfl
  | abandoned =>
      exact ⟨hbalanced.of_custody (howing.of_same_loans hsound rfl) rfl, htied, hattended⟩
  | checked pool =>
      have hloans := lending.custody.loans_look pool
      refine ⟨hbalanced.of_custody (howing.of_same_loans hsound hloans) ?_, htied, ?_⟩
      · exact Custody.Owing.owed_of_same_origins (congrArg (List.map Loan.origin) hloans)
      · exact hloans ▸ hattended
  | @acted handle act loan moved demand hloan hstep =>
      have hfree := (Custody.isFree_act_iff hloan).mp hfree
      have hstepped := Loan.stepped_of_step? (howing.sound.loans loan
        (List.mem_of_getElem? hloan)) hstep
      refine ⟨?balanced, htied, ?attended⟩
      case balanced =>
        refine hbalanced.of_custody (howing.acted hloan hstepped fun hmem => ?_)
          (Custody.Owing.owed_of_same_origins
            (Custody.Owing.origins_acted hloan hstepped.origin_eq _ _))
        obtain ⟨kept, hkept, hpool, howes⟩ := howing.lent handle hmem
        cases hloan.symm.trans hkept
        exact hstepped.isRestored_eq howes (hfree.resolve_left fun hne => hne hpool)
      case attended =>
        refine hattended.act hbefore hloan hfree fun hpool hgiving => ?_
        by_contra hnot
        have hreturned := howing.restored handle loan hloan (hstepped.pool_eq.symm.trans hpool) hnot
        rcases hstepped.course with ⟨hundecided, -⟩ | ⟨-, -, hnone⟩
        · cases hundecided.symm.trans hreturned.1
        · simp [hnone] at hgiving

section Called

variable {host : System R} {event : Event R} {caller : Caller R} {advanced : Call.Advanced R}

/-- What there is to know of a call for a handle: how far it is, and that the handle is giving. -/
theorem serves (hkept : Kept counter pending lending)
    (hstepped : Stepped lending.host event host caller advanced) {handle : Nat}
    (hserved : lending.served? event.caller = some handle) :
    ∃ settled loan resource, caller.call.taken? = some settled ∧
      lending.custody.loans[handle]? = some loan ∧ loan.pool = 0 ∧
      loan.stage.giving? = some resource ∧ (∀ given ∈ caller.call.returned, given = resource) ∧
      (handle ∈ pending ↔ settled = false) ∧ loan.fate = .returned ∧ loan.value = resource := by
  obtain ⟨settled, returned, hstance, hgiven, hsettled⟩ :=
    hkept.attended.attends event.caller handle hserved
  obtain ⟨loan, hloan, hpool, hgiving⟩ := hkept.tied.giving event.caller handle hserved
  obtain ⟨resource, hgiving⟩ := Option.isSome_iff_exists.mp hgiving
  rw [hstepped.stance?_before, Option.some.injEq, Prod.mk.injEq] at hstance
  obtain ⟨htaken, rfl⟩ := hstance
  have hsound := hkept.balanced.owing.sound.loans loan (List.mem_of_getElem? hloan)
  refine ⟨settled, loan, resource, htaken, hloan, hpool, hgiving, fun given hmem => ?_, hsettled,
    hsound.of_giving hgiving⟩
  exact Option.some.inj ((hgiven loan hloan given hmem).symm.trans hgiving)

theorem not_taken (hkept : Kept counter pending lending)
    (hstepped : Stepped lending.host event host caller advanced)
    (hserved : lending.served? event.caller = none) : caller.call.taken? = none := by
  cases htaken : caller.call.taken? with
  | none => rfl
  | some settled =>
      have hstance := hstepped.stance?_before
      rw [htaken] at hstance
      obtain ⟨handle, hsome⟩ := hkept.attended.served event.caller settled _ hstance
      cases hserved.symm.trans hsome

/-- A resource that a call brings back to the pool is the one that its handle was made of, and the
handle ceases to owe it; one that the pool refuses is another. -/
theorem brought (hkept : Kept counter pending lending)
    (hstepped : Stepped lending.host event host caller advanced)
    (hgives : event.move.gives? = none) (hunraised : ∀ text, event.move ≠ .raise text)
    (hfaithful : isFaithful lending event.caller = true) {handle : Nat}
    (hserved : lending.served? event.caller = some handle) :
    ∃ later loan, lending.custody.loans[handle]? = some loan ∧
      Balanced counter lending.custody later host ∧
      (∀ other, other ≠ handle → (other ∈ later ↔ other ∈ pending)) ∧
      ((handle ∉ later ∧ (advanced.call = .done .released ∨ advanced.call.taken? = some true)) ∨
        (loan.value ≠ loan.origin ∧ ∃ misuse,
          advanced.call = .done (.failed (.invalidArgument misuse)))) := by
  have hbalanced := hkept.balanced
  obtain ⟨settled, loan, resource, htaken, hloan, hpool, hgiving, hgiven, hsettled, hfate,
    hvalue⟩ := hkept.serves hstepped hserved
  cases settled with
  | true =>
      have hreturned : caller.call.returned = [] := Call.returned_of_taken? (by simp [htaken])
      have hnext := hstepped.transition.of_taken hunraised htaken
      exact ⟨pending, loan, hloan, hbalanced.quiet hstepped hgives hunraised hreturned
        (Call.handed_of_taken? hnext), fun _ _ => Iff.rfl, .inl ⟨by simp [hsettled], hnext⟩⟩
  | false =>
      obtain ⟨given, reading, hcall⟩ := Call.returning_of_taken? htaken
      have hreturned : caller.call.returned = [given] := by
        rw [hcall]
        rfl
      obtain rfl : given = resource := hgiven given (by simp [hreturned])
      have hmem : handle ∈ pending := hsettled.mpr rfl
      have horigin := hbalanced.out_of_owed (Custody.Owing.mem_owed hmem hloan)
      have htransition := hstepped.transition
      rw [hcall] at htransition
      -- The pool looks up what it is given, and cannot tell what that was checked out as.
      rcases htransition.of_returning with ⟨hout, hnext⟩ | ⟨hnot, hsame, misuse, hnext⟩
      · have hsame : loan.origin = given := by
          simpa [isFaithful, hstepped.caller_at, hreturned, hserved, hloan, hout] using hfaithful
        refine ⟨pending.erase handle, loan, hloan, ?_, fun other hne => List.mem_erase_of_ne hne,
          .inl ⟨hbalanced.owing.nodup.not_mem_erase, hnext⟩⟩
        refine hbalanced.follow hstepped hgives hunraised ?_
          (hbalanced.owing.take hloan hfate (hvalue.trans hsame.symm)) ?_
        · simpa [hreturned, hsame] using horigin
        · intro other
          rw [Call.handed_of_taken? hnext, hreturned, ← hsame,
            Custody.Owing.count_owed_erase hmem hloan]
          rfl
      · have hvetted : caller.call.vetted = [] := by
          rw [hcall]
          rfl
        refine ⟨pending, loan, hloan, hbalanced.still hstepped hunraised ?_ hsame hvetted ?_,
          fun _ _ => Iff.rfl, .inr ⟨?_, misuse, hnext⟩⟩
        · simpa [hreturned] using hbalanced.not_vetted hnot
        · rw [hnext]
          rfl
        · intro heq
          exact hnot (hvalue ▸ heq ▸ horigin.1)

/-- A call that goes on for a handle, and whose end nobody hears of, is not over. -/
theorem not_done (hkept : Kept counter pending lending)
    (hstepped : Stepped lending.host event host caller advanced) {handle : Nat}
    (hserved : lending.served? event.caller = some handle)
    (hquiet : (∃ outcome, asHost.need? lending.host event.caller = some (.done outcome)) ∨
      ∀ outcome, asHost.need? host event.caller = some (.done outcome) →
        lending.served? event.caller = none ∧ ∀ resource, outcome ≠ .acquired resource)
    (outcome : Outcome R) : advanced.call ≠ .done outcome := by
  intro hdone
  rcases hquiet with ⟨before, hidle⟩ | hquiet
  · obtain ⟨settled, loan, resource, htaken, -⟩ := hkept.serves hstepped hserved
    rw [hstepped.need?_before, Option.some.injEq] at hidle
    rw [Call.eq_of_need hidle] at htaken
    cases htaken
  · cases hserved.symm.trans (hquiet outcome (hstepped.need?_of_done hdone)).1

/-- A call that goes on for no handle. -/
theorem unserved (hkept : Kept counter pending lending)
    (hstepped : Stepped lending.host event host caller advanced)
    (hgives : event.move.gives? = none)
    (hserved : lending.served? event.caller = none) :
    caller.call.returned = [] ∧ ∀ index, host.stance? index = lending.host.stance? index := by
  have htaken := hkept.not_taken hstepped hserved
  have hreturned : caller.call.returned = [] := Call.returned_of_taken? (by simp [htaken])
  refine ⟨hreturned, fun index => ?_⟩
  rw [hstepped.stance?_eq]
  split
  next heq =>
    rw [heq, hstepped.stance?_before, htaken, hreturned,
      hstepped.transition.taken?_eq_none hgives htaken, hstepped.transition.returned_eq_nil hgives]
  next => rfl

theorem given (hkept : Kept counter pending lending)
    (hstepped : Stepped lending.host event host caller advanced) {resource : R}
    (hgives : event.move.gives? = some resource) {handle : Nat}
    (hserve : lending.canServe event.caller handle resource) :
    Kept counter pending
      { lending with host, serving := lending.serving.set event.caller (some handle) } := by
  obtain ⟨hbalanced, htied, hattended⟩ := hkept
  obtain ⟨hplace, hfresh, loan, hloan, hpool, hgiving⟩ := Lending.served_of_canServe hserve
  obtain ⟨now, outcome, hmove, hcall, hadvanced⟩ := hstepped.transition.of_gives hgives
  constructor
  case balanced =>
    refine hbalanced.still hstepped ?_ ?_ ?_ ?_ ?_
    · simp [hmove]
    · simp [hcall, Call.returned]
    · rw [hadvanced]
    · rw [hcall]
      rfl
    · rw [hadvanced]
      rfl
  case tied => exact htied.give hplace hfresh hloan hpool (by simp [hgiving])
  case attended =>
    refine hattended.give hplace hfresh hloan hpool hgiving fun index => ?_
    rw [hstepped.stance?_eq, hadvanced]
    rfl

theorem checked (hkept : Kept counter pending lending)
    (hstepped : Stepped lending.host event host caller advanced)
    (hretire : asHost.need? lending.host event.caller = some .retire) {custody : Custody R}
    (hcustody : lending.custody.step? (.check 0) = some custody) :
    Kept counter pending { lending with host, custody } := by
  obtain ⟨hbalanced, htied, hattended⟩ := hkept
  rw [hstepped.need?_before, Option.some.injEq] at hretire
  obtain ⟨hmove, hcall, hadvanced⟩ := hstepped.transition.of_retire hretire
  have hquiet : Balanced counter lending.custody pending host := by
    refine hbalanced.quiet hstepped ?_ ?_ ?_ ?_
    · rw [hmove]
      rfl
    · simp [hmove]
    · rw [hcall]
      rfl
    · rw [hadvanced]
      rfl
  have htransition := (transition_of_step? hcustody).2
  have hsound := htransition.sound hbalanced.owing.sound
  cases htransition
  have hloans := lending.custody.loans_look 0
  constructor
  case balanced =>
    refine hquiet.of_custody (hquiet.owing.of_same_loans hsound hloans) ?_
    exact Custody.Owing.owed_of_same_origins (congrArg (List.map Loan.origin) hloans)
  case tied => exact hloans ▸ htied
  case attended =>
    rw [hloans]
    refine hattended.of_same_stances fun index => ?_
    rw [hstepped.stance?_eq]
    split
    next heq =>
      rw [heq, hstepped.stance?_before, hcall, hadvanced]
      rfl
    next => rfl

theorem answered (hkept : Kept counter pending lending)
    (hstepped : Stepped lending.host event host caller advanced)
    (hgives : event.move.gives? = none) (hunraised : ∀ text, event.move ≠ .raise text)
    (hfaithful : isFaithful lending event.caller = true) {handle : Nat}
    (hserved : lending.served? event.caller = some handle) {outcome : Outcome R}
    (hdone : asHost.need? host event.caller = some (.done outcome)) {custody : Custody R}
    (hcustody : lending.custody.step? (.act handle (answer outcome)) = some custody) :
    ∃ later, Kept counter later
      { host, custody, serving := lending.serving.set event.caller none } := by
  obtain ⟨settled, loan, resource, -, hloan, hpool, hgiving, -, -, hfate, -⟩ :=
    hkept.serves hstepped hserved
  obtain ⟨later, kept, hkeptat, hbalanced, hlater, hbrought⟩ :=
    hkept.brought hstepped hgives hunraised hfaithful hserved
  cases hloan.symm.trans hkeptat
  have hends := hstepped.call_eq_of_done hdone
  have hplace := Option.join_eq_some_iff.mp hserved
  cases (transition_of_step? hcustody).2 with
  | @acted _ _ found moved demand hfound hmoves =>
      cases hloan.symm.trans hfound
      have hmoved := Loan.stepped_of_step? (hbalanced.owing.sound.loans loan
        (List.mem_of_getElem? hloan)) hmoves
      obtain ⟨-, hvalue, hnone⟩ := hmoved.course.resolve_left fun hundecided => by
        cases hundecided.1.symm.trans hfate
      refine ⟨later, ?balanced, hkept.tied.conclude hplace moved, ?attended⟩
      case balanced =>
        refine hbalanced.of_custody (hbalanced.owing.acted hloan hmoved fun hmem => ?_)
          (Custody.Owing.owed_of_same_origins
            (Custody.Owing.origins_acted hloan hmoved.origin_eq _ _))
        obtain ⟨hnot, -⟩ | ⟨hdiffers, -⟩ := hbrought
        · exact absurd hmem hnot
        · simp [Loan.isRestored, hvalue, hmoved.origin_eq, hdiffers]
      case attended =>
        refine hkept.attended.conclude hkept.tied hplace hnone hlater fun index => ?_
        rw [hstepped.stance?_eq, hends]
        rfl

theorem lent (hkept : Kept counter pending lending)
    (hstepped : Stepped lending.host event host caller advanced)
    (hgives : event.move.gives? = none) (hunraised : ∀ text, event.move ≠ .raise text)
    (hserved : lending.served? event.caller = none) {resource : R}
    (hdone : asHost.need? host event.caller = some (.done (.acquired resource)))
    {custody : Custody R}
    (hcustody : lending.custody.step? (.acquire 0 (.acquired resource)) = some custody) :
    ∃ later, Kept counter later { lending with host, custody } := by
  obtain ⟨hreturned, hsame⟩ := hkept.unserved hstepped hgives hserved
  obtain ⟨hbalanced, htied, hattended⟩ := hkept
  have hends := hstepped.call_eq_of_done hdone
  cases (transition_of_step? hcustody).2 with
  | failed pool outcome howned hnot => exact absurd rfl (hnot resource)
  | lent pool resource howned =>
      refine ⟨lending.custody.loans.length :: pending, ?balanced, htied.lend _, ?attended⟩
      case balanced =>
        refine hbalanced.follow hstepped hgives hunraised (by simp [hreturned])
          (hbalanced.owing.lend resource) fun other => ?_
        rw [hbalanced.owing.owed_lend, hreturned, hends, List.count_cons]
        simp only [Call.handed, List.count_singleton, List.count_nil]
        omega
      case attended =>
        refine (hattended.of_same_stances hsame).lend htied rfl fun handle hlt => ?_
        rw [List.mem_cons, or_iff_right (Nat.ne_of_lt hlt)]

theorem went (hkept : Kept counter pending lending)
    (hstepped : Stepped lending.host event host caller advanced)
    (hgives : event.move.gives? = none) (hunraised : ∀ text, event.move ≠ .raise text)
    (hfaithful : isFaithful lending event.caller = true)
    (hquiet : (∃ outcome, asHost.need? lending.host event.caller = some (.done outcome)) ∨
      ∀ outcome, asHost.need? host event.caller = some (.done outcome) →
        lending.served? event.caller = none ∧ ∀ resource, outcome ≠ .acquired resource) :
    ∃ later, Kept counter later { lending with host } := by
  cases hserved : lending.served? event.caller with
  | none =>
      obtain ⟨hreturned, hsame⟩ := hkept.unserved hstepped hgives hserved
      have hhanded : advanced.call.handed = [] := by
        rcases hquiet with ⟨outcome, hidle⟩ | hquiet
        · rw [hstepped.need?_before, Option.some.injEq] at hidle
          exact hstepped.transition.handed_of_done (Call.eq_of_need hidle)
        · refine Call.handed_eq_nil fun resource hdone => ?_
          exact (hquiet _ (hstepped.need?_of_done hdone)).2 resource rfl
      exact ⟨pending, hkept.balanced.quiet hstepped hgives hunraised hreturned hhanded,
        hkept.tied, hkept.attended.of_same_stances hsame⟩
  | some handle =>
      have hbusy := hkept.not_done hstepped hserved hquiet
      obtain ⟨later, loan, hloan, hbalanced, hlater, hbrought⟩ :=
        hkept.brought hstepped hgives hunraised hfaithful hserved
      refine ⟨later, hbalanced, hkept.tied, ?_⟩
      rcases hbrought with ⟨hnot, hreleased | htaken⟩ | ⟨-, misuse, hrefused⟩
      · exact absurd hreleased (hbusy _)
      · have hreturned : advanced.call.returned = [] := Call.returned_of_taken? (by simp [htaken])
        refine hkept.attended.bring hkept.tied hserved hnot hlater fun index => ?_
        rw [hstepped.stance?_eq, htaken, hreturned]
      · exact absurd hrefused (hbusy _)

end Called

theorem of_change (hkept : Kept counter pending lending) {occasion : Occasion (Event R) R}
    (hharmless : harmless lending occasion = true)
    (hchange : Change asHost lending occasion next) : ∃ later, Kept counter later next := by
  cases hchange with
  | handled event hfree hcustody => exact ⟨pending, hkept.handled hfree hcustody⟩
  | given event handle hgives hserve hhost =>
      obtain ⟨caller, advanced, hstepped⟩ := stepped_of_step? hhost
      exact ⟨pending, hkept.given hstepped hgives hserve⟩
  | checked event hgives hhost hretire hcustody =>
      obtain ⟨caller, advanced, hstepped⟩ := stepped_of_step? hhost
      exact ⟨pending, hkept.checked hstepped hretire hcustody⟩
  | answered event handle outcome hgives hhost hretire hserved hdone hcustody =>
      obtain ⟨caller, advanced, hstepped⟩ := stepped_of_step? hhost
      obtain ⟨hscoped, hfaithful⟩ := Bool.and_eq_true_iff.mp hharmless
      exact hkept.answered hstepped hgives (Move.unraised_of_isScoped hscoped) hfaithful hserved
        hdone hcustody
  | lent event resource hgives hhost hretire hserved hdone hcustody =>
      obtain ⟨caller, advanced, hstepped⟩ := stepped_of_step? hhost
      obtain ⟨hscoped, -⟩ := Bool.and_eq_true_iff.mp hharmless
      exact hkept.lent hstepped hgives (Move.unraised_of_isScoped hscoped) hserved hdone hcustody
  | went event hgives hhost hretire hquiet =>
      obtain ⟨caller, advanced, hstepped⟩ := stepped_of_step? hhost
      obtain ⟨hscoped, hfaithful⟩ := Bool.and_eq_true_iff.mp hharmless
      exact hkept.went hstepped hgives (Move.unraised_of_isScoped hscoped) hfaithful hquiet

theorem mem_pending (hkept : Kept counter pending lending) {handle : Nat} {loan : Loan R}
    (hloan : lending.custody.loans[handle]? = some loan) (hpool : loan.pool = 0)
    (hheld : loan.stage.isHeld) : handle ∈ pending := by
  have howing := hkept.balanced.owing
  by_contra hnot
  exact (howing.sound.loans loan (List.mem_of_getElem? hloan)).not_returned hheld
    (howing.restored handle loan hloan hpool hnot).1

theorem count_owed_le_one (hkept : Kept counter pending lending) (resource : R) :
    (lending.custody.owed pending).count resource ≤ 1 := by
  have hout := hkept.balanced.out_eq resource
  have hle := lending.host.pool.out_le_one resource
  omega

/-- Where no call is in progress, what is not available is what handles stand for. -/
theorem keys_perm (hkept : Kept counter pending lending) (hidle : lending.host.Idle) :
    lending.host.pool.tracked.keys.Perm
      (lending.host.pool.available ++ lending.custody.owed pending) := by
  have hsound := hkept.balanced.sound
  have hvetted : lending.host.vetted = [] := hidle.nothing.2
  apply List.perm_iff_count.mpr
  intro resource
  rw [Pool.count_keys hsound.bounded.within.nodup_keys, List.count_append,
    ← hsound.consistent.count_available, hkept.balanced.out_eq, hvetted, List.count_nil,
    Nat.zero_add]

theorem isRestored_of_idle (hkept : Kept counter pending lending) (hidle : lending.host.Idle)
    {handle : Nat} {loan : Loan R} (hloan : lending.custody.loans[handle]? = some loan)
    (hpool : loan.pool = 0) (hnot : handle ∉ pending) : loan.isRestored = true := by
  obtain ⟨hfate, hvalue⟩ := hkept.balanced.owing.restored handle loan hloan hpool hnot
  have hnone : loan.stage.giving? = none := by
    by_contra hgiving
    obtain ⟨index, hserved⟩ := hkept.attended.waiting handle loan hloan hpool
      (Option.isSome_iff_ne_none.mpr hgiving) hnot
    obtain ⟨settled, returned, hstance, -⟩ := hkept.attended.attends index handle hserved
    obtain ⟨caller, hcaller, heq⟩ := Option.map_eq_some_iff.mp hstance
    obtain ⟨outcome, hdone⟩ := hidle caller (List.mem_of_getElem? hcaller)
    rw [hdone] at heq
    cases heq
  simp [Loan.isRestored, hfate, hvalue, hnone]

theorem size_eq (hkept : Kept counter pending lending) (hidle : lending.host.Idle) :
    lending.host.pool.size = lending.host.pool.available.length +
      lending.custody.loans.countP fun loan => loan.pool = 0 && !loan.isRestored := by
  have howing := hkept.balanced.owing
  have hpending := howing.length_pending fun handle loan => hkept.isRestored_of_idle hidle
  rw [Pool.size, ← Table.length_keys, (hkept.keys_perm hidle).length_eq, List.length_append,
    howing.length_owed, hpending]

end Kept

/-- What shows of an elastic pool and of the handles on its resources at every moment. -/
structure Unshared (lending : Lending (System R) R) : Prop where
  one_handle : ∀ (first second : Nat) (loan other : Loan R),
    lending.custody.loans[first]? = some loan → lending.custody.loans[second]? = some other →
    loan.pool = 0 → other.pool = 0 → loan.stage.isHeld → other.stage.isHeld →
    loan.origin = other.origin → first = second
  checked_out : ∀ (handle : Nat) (loan : Loan R), lending.custody.loans[handle]? = some loan →
    loan.pool = 0 → loan.stage.isHeld →
    lending.host.pool.checkedOut? loan.origin = some true
  inUse_eq : lending.host.Idle → lending.host.pool.inUse =
    .ok (lending.custody.loans.countP fun loan => loan.pool = 0 && !loan.isRestored)
  whole : lending.host.Idle →
    (∀ loan ∈ lending.custody.loans, loan.pool = 0 → loan.isRestored) →
    lending.host.pool.inUse = .ok 0 ∧
      lending.host.pool.available.length = lending.host.pool.size ∧
      lending.host.pool.creating = 0

/-- No two handles stand for one resource, and a pool that has been given back what its handles were
made of is whole, as long as no handle gives back a resource that is checked out for another. -/
theorem unshared_of_reaches {options : ElasticOptions} {counter : Counter} {count : Nat}
    {registries : List (Option Nat)} {detectors : List LeakDetector}
    {lending : Lending (System R) R}
    (hreaches : Lending.Reaches asHost harmless
      (.start (start options counter count) count registries detectors) lending) :
    Unshared lending := by
  obtain ⟨pending, hkept⟩ := hreaches.invariant
    (fun lending => ∃ pending, Kept counter pending lending)
    ⟨[], kept_start options counter count registries detectors⟩ fun ⟨_, hkept⟩ hharmless hstep =>
      hkept.of_change hharmless (Lending.change_of_step? hstep).2
  have hsize := fun hidle => hkept.size_eq hidle
  constructor
  case one_handle =>
    intro first second loan other hloan hother hpool hpool' hheld hheld' hsame
    exact Custody.Owing.handle_unique hkept.count_owed_le_one
      (hkept.mem_pending hloan hpool hheld) (hkept.mem_pending hother hpool' hheld') hloan hother
      hsame
  case checked_out =>
    intro handle loan hloan hpool hheld
    have hmem := hkept.mem_pending hloan hpool hheld
    exact (hkept.balanced.out_of_owed (Custody.Owing.mem_owed hmem hloan)).1
  case inUse_eq =>
    intro hidle
    simp [Pool.inUse, hsize hidle]
  case whole =>
    intro hidle hrestored
    have hnone :
        lending.custody.loans.countP (fun loan => loan.pool = 0 && !loan.isRestored) = 0 := by
      apply List.countP_eq_zero.mpr
      intro loan hmem
      by_cases hpool : loan.pool = 0
      · simp [hpool, hrestored loan hmem hpool]
      · simp [hpool]
    have hsize := hsize hidle
    rw [hnone, Nat.add_zero] at hsize
    refine ⟨by simp [Pool.inUse, hsize], hsize.symm, ?_⟩
    exact hkept.balanced.creating_eq.trans hidle.nothing.1

def acquires (caller resource : Nat) : List (Occasion (Event Nat) Nat) :=
  [.call ⟨caller, .begin .acquire 0, 0⟩, .call ⟨caller, .turn 0, 0⟩,
    .call ⟨caller, .make (.ok resource), 0⟩, .call ⟨caller, .turn 0, 0⟩]

def reacquires (caller : Nat) : List (Occasion (Event Nat) Nat) :=
  [.call ⟨caller, .begin .acquire 0, 0⟩, .call ⟨caller, .turn 0, 0⟩,
    .call ⟨caller, .check true, 0⟩]

def writes (handle value : Nat) : List (Occasion (Event Nat) Nat) :=
  [.custody (.act handle (.write value))]

def proceeds (handle count : Nat) : List (Occasion (Event Nat) Nat) :=
  List.replicate count (.custody (.act handle (.proceed (.ok ()))))

/-- A handle is dropped, and a caller gives back the value that is in it. -/
def drops (caller handle value : Nat) : List (Occasion (Event Nat) Nat) :=
  [.custody (.act handle .leave)] ++ proceeds handle 1 ++
    [.give ⟨caller, .begin (.release value) 0, 0⟩ handle, .call ⟨caller, .turn 0, 0⟩] ++
    proceeds handle 4

/-- Two handles are dropped at once, one of which was written to and put right, and one of their
resources is in a third handle before they are through. -/
def tidied : List (Occasion (Event Nat) Nat) :=
  acquires 0 1 ++ acquires 1 2 ++ writes 0 9 ++ writes 0 1 ++
    [.custody (.act 0 .leave), .custody (.act 1 .leave)] ++ proceeds 0 1 ++ proceeds 1 1 ++
    [.give ⟨0, .begin (.release 1) 0, 0⟩ 0, .give ⟨1, .begin (.release 2) 0, 0⟩ 1,
      .call ⟨1, .turn 0, 0⟩] ++
    reacquires 1 ++ [.call ⟨0, .turn 0, 0⟩] ++ proceeds 0 4 ++ proceeds 1 4 ++ drops 1 2 2

theorem unshared_of_tidied : ∃ lending : Lending (System Nat) Nat,
    Lending.run? asHost harmless tidied
        (.start (start { maxCapacity := 2 } .silent 2) 2 [none] []) = some lending ∧
      lending.custody.loans.map (fun loan => (loan.origin, loan.isRestored)) =
        [(1, true), (2, true), (2, true)] ∧
      lending.host.pool.available = [2, 1] ∧ Unshared lending := by
  have hruns : (Lending.run? asHost harmless tidied
      (.start (start { maxCapacity := 2 } .silent 2) 2 [none] [])).map (fun lending =>
        (lending.custody.loans.map fun loan => (loan.origin, loan.isRestored),
          lending.host.pool.available)) =
      some ([(1, true), (2, true), (2, true)], [2, 1]) := by decide
  obtain ⟨lending, hrun, hshown⟩ := Option.map_eq_some_iff.mp hruns
  obtain ⟨hloans, havailable⟩ := Prod.mk.inj hshown
  exact ⟨lending, hrun, hloans, havailable, unshared_of_reaches (Runs.reaches_of_run? hrun)⟩

/-- The pool is used through handles only, and each of them ends by giving back. -/
def handlesOnly : Lending.Law (System R) (Event R) R := fun _ occasion =>
  match occasion with
  | .call event => event.move.isScoped
  | .custody (.act _ .forget) => false
  | .custody (.act _ .detach) => false
  | _ => true

/-- A handle that was written to costs its pool a resource, or hands out the resource of another
handle once more. -/
theorem shared_of_swapped :
    (∃ lending : Lending (System Nat) Nat,
      Lending.run? asHost handlesOnly (acquires 0 1 ++ writes 0 7 ++ drops 0 0 7)
          (.start (start { maxCapacity := 1 } .silent 1) 1 [none] []) = some lending ∧
        lending.host.callers.map Caller.call =
          [.done (.failed (.invalidArgument .notAcquired))] ∧
        lending.custody.loans.all (fun loan => loan.stage.isAtRest && !loan.stage.isHeld) = true ∧
        lending.host.pool.inUse = .ok 1 ∧ lending.host.pool.available = []) ∧
    ∃ lending : Lending (System Nat) Nat,
      Lending.run? asHost handlesOnly
          (acquires 0 1 ++ acquires 0 2 ++ writes 0 2 ++ drops 0 0 2 ++ reacquires 0)
          (.start (start { maxCapacity := 2 } .silent 1) 1 [none] []) = some lending ∧
        lending.custody.loans.map (fun loan => (loan.origin, loan.value, loan.stage.isHeld)) =
          [(1, 2, false), (2, 2, true), (2, 2, true)] := by
  refine ⟨?lost, ?twice⟩
  case lost =>
    have hruns : (Lending.run? asHost handlesOnly (acquires 0 1 ++ writes 0 7 ++ drops 0 0 7)
        (.start (start { maxCapacity := 1 } .silent 1) 1 [none] [])).map (fun lending =>
          (lending.host.callers.map Caller.call,
            lending.custody.loans.all fun loan => loan.stage.isAtRest && !loan.stage.isHeld,
            lending.host.pool.inUse, lending.host.pool.available)) =
        some ([.done (.failed (.invalidArgument .notAcquired))], true, .ok 1, []) := by decide
    obtain ⟨lending, hrun, hshown⟩ := Option.map_eq_some_iff.mp hruns
    simp only [Prod.mk.injEq] at hshown
    exact ⟨lending, hrun, hshown⟩
  case twice => exact Option.map_eq_some_iff.mp (by decide)

end System

end Pooling.Elastic
