import Pooling.Proofs.Handles.Custody

/-!
A pool at work together with the handles on its resources. The pool is the first of those that the
handles know: its calls hand out what handles are made of, and take what handles give back.
-/

namespace Pooling.Handles

variable {σ ε R : Type}

/-- A kind of pool with its callers, as handles know it. -/
structure Host (σ ε R : Type) where
  step? : σ → ε → Option σ
  caller : ε → Nat
  need? : σ → Nat → Option (Need R)
  /-- The resource that a caller gives back with the call it begins. -/
  gives? : ε → Option R

structure Lending (σ R : Type) where
  host : σ
  custody : Custody R
  /-- For each caller the handle for which it gives a resource back, if it does. -/
  serving : List (Option Nat)

/-- What happens next: to a call on the pool, which may begin for a handle, or to handles, owners
and other pools. -/
inductive Occasion (ε R : Type) where
  | call (event : ε)
  | give (event : ε) (handle : Nat)
  | custody (event : Event R)

/-- What a handle makes of the end of the call that gave its resource back. -/
def answer : Outcome R → Act R
  | .failed error => .proceed (.error error)
  | .aborted _ => .raise
  | _ => .proceed (.ok ())

namespace Custody

/-- The first pool answers, and looks for leaks, by its calls only. -/
def isFree (custody : Custody R) : Event R → Bool
  | .acquire pool _ => pool ≠ 0
  | .abandon _ => true
  | .check pool => pool ≠ 0
  | .act handle _ =>
      custody.loans[handle]?.all fun loan => loan.pool ≠ 0 || loan.stage.giving?.isNone

theorem isFree_act_iff {custody : Custody R} {handle : Nat} {act : Act R} {loan : Loan R}
    (hloan : custody.loans[handle]? = some loan) :
    custody.isFree (.act handle act) ↔ loan.pool ≠ 0 ∨ loan.stage.giving? = none := by
  simp [isFree, hloan]

end Custody

namespace Lending

def start (host : σ) (count : Nat) (registries : List (Option Nat))
    (detectors : List LeakDetector) : Lending σ R where
  host := host
  custody := .start registries detectors
  serving := List.replicate count none

def served? (lending : Lending σ R) (caller : Nat) : Option Nat := lending.serving[caller]?.join

/-- What the handles make of a call that is over: the handle it was made for has its answer, and
what it acquired is in a new handle. -/
def concluded? (lending : Lending σ R) (caller : Nat) (outcome : Outcome R) :
    Option (Lending σ R) :=
  match lending.served? caller with
  | some handle =>
      (lending.custody.step? (.act handle (answer outcome))).map fun custody =>
        { lending with custody, serving := lending.serving.set caller none }
  | none =>
      match outcome with
      | .acquired resource =>
          (lending.custody.step? (.acquire 0 (.acquired resource))).map fun custody =>
            { lending with custody }
      | _ => some lending

/-- A call goes on in a pool; the pool's owner looks for leaks when it retires. -/
def called? (kind : Host σ ε R) (lending : Lending σ R) (event : ε) (host : σ) :
    Option (Lending σ R) :=
  match kind.need? lending.host (kind.caller event) with
  | some .retire =>
      (lending.custody.step? (.check 0)).map fun custody => { lending with host, custody }
  | some (.done _) => some { lending with host }
  | _ =>
      match kind.need? host (kind.caller event) with
      | some (.done outcome) =>
          ({ lending with host } : Lending σ R).concluded? (kind.caller event) outcome
      | _ => some { lending with host }

variable [DecidableEq R]

/-- A caller can begin to give back what a handle is about to, unless another has begun. -/
def canServe (lending : Lending σ R) (caller handle : Nat) (resource : R) : Bool :=
  lending.serving[caller]? = some none && !lending.serving.contains (some handle) &&
    lending.custody.loans[handle]?.any fun loan =>
      loan.pool = 0 && loan.stage.giving? = some resource

def step? (kind : Host σ ε R) (lending : Lending σ R) (occasion : Occasion ε R) :
    Option (Lending σ R) :=
  if lending.custody.exited then none
  else
    match occasion with
    | .custody event =>
        if lending.custody.isFree event then
          (lending.custody.step? event).map fun custody => { lending with custody }
        else none
    | .give event handle =>
        (kind.gives? event).bind fun resource =>
          if lending.canServe (kind.caller event) handle resource then
            (kind.step? lending.host event).map fun host =>
              { lending with
                host, serving := lending.serving.set (kind.caller event) (some handle) }
          else none
    | .call event =>
        if (kind.gives? event).isNone then
          (kind.step? lending.host event).bind (lending.called? kind event)
        else none

abbrev Law (σ ε R : Type) := Lending σ R → Occasion ε R → Bool

def anyhow : Law σ ε R := fun _ _ => true

abbrev Reaches (kind : Host σ ε R) (law : Law σ ε R) : Lending σ R → Lending σ R → Prop :=
  Runs.Reaches (step? kind) law

abbrev run? (kind : Host σ ε R) (law : Law σ ε R) :
    List (Occasion ε R) → Lending σ R → Option (Lending σ R) :=
  Runs.run? (step? kind) law

end Lending

/-- The ways an occasion goes: the occasion and what was before it on the left, what is after it on
the right. -/
inductive Change [DecidableEq R] (kind : Host σ ε R) (lending : Lending σ R) :
    Occasion ε R → Lending σ R → Prop
  | handled (event : Event R) {custody : Custody R} (hfree : lending.custody.isFree event)
      (hcustody : lending.custody.step? event = some custody) :
      Change kind lending (.custody event) { lending with custody }
  | given (event : ε) (handle : Nat) {host : σ} {resource : R}
      (hgives : kind.gives? event = some resource)
      (hserve : lending.canServe (kind.caller event) handle resource)
      (hhost : kind.step? lending.host event = some host) :
      Change kind lending (.give event handle)
        { lending with
          host, serving := lending.serving.set (kind.caller event) (some handle) }
  | checked (event : ε) {host : σ} {custody : Custody R} (hgives : kind.gives? event = none)
      (hhost : kind.step? lending.host event = some host)
      (hretire : kind.need? lending.host (kind.caller event) = some .retire)
      (hcustody : lending.custody.step? (.check 0) = some custody) :
      Change kind lending (.call event) { lending with host, custody }
  | answered (event : ε) (handle : Nat) (outcome : Outcome R) {host : σ} {custody : Custody R}
      (hgives : kind.gives? event = none) (hhost : kind.step? lending.host event = some host)
      (hretire : kind.need? lending.host (kind.caller event) ≠ some .retire)
      (hserved : lending.served? (kind.caller event) = some handle)
      (hdone : kind.need? host (kind.caller event) = some (.done outcome))
      (hcustody : lending.custody.step? (.act handle (answer outcome)) = some custody) :
      Change kind lending (.call event)
        { host, custody, serving := lending.serving.set (kind.caller event) none }
  | lent (event : ε) (resource : R) {host : σ} {custody : Custody R}
      (hgives : kind.gives? event = none) (hhost : kind.step? lending.host event = some host)
      (hretire : kind.need? lending.host (kind.caller event) ≠ some .retire)
      (hserved : lending.served? (kind.caller event) = none)
      (hdone : kind.need? host (kind.caller event) = some (.done (.acquired resource)))
      (hcustody : lending.custody.step? (.acquire 0 (.acquired resource)) = some custody) :
      Change kind lending (.call event) { lending with host, custody }
  | went (event : ε) {host : σ} (hgives : kind.gives? event = none)
      (hhost : kind.step? lending.host event = some host)
      (hretire : kind.need? lending.host (kind.caller event) ≠ some .retire)
      (hquiet : (∃ outcome, kind.need? lending.host (kind.caller event) = some (.done outcome)) ∨
        ∀ outcome, kind.need? host (kind.caller event) = some (.done outcome) →
          lending.served? (kind.caller event) = none ∧
            ∀ resource, outcome ≠ .acquired resource) :
      Change kind lending (.call event) { lending with host }

namespace Lending

variable [DecidableEq R] {kind : Host σ ε R} {lending next : Lending σ R}

theorem change_of_concluded? {event : ε} {host : σ} {outcome : Outcome R}
    (hgives : kind.gives? event = none) (hhost : kind.step? lending.host event = some host)
    (hretire : kind.need? lending.host (kind.caller event) ≠ some .retire)
    (hdone : kind.need? host (kind.caller event) = some (.done outcome))
    (hconcluded : ({ lending with host } : Lending σ R).concluded? (kind.caller event) outcome =
      some next) : Change kind lending (.call event) next := by
  unfold concluded? at hconcluded
  split at hconcluded
  next handle hserved =>
    obtain ⟨custody, hcustody, rfl⟩ := Option.map_eq_some_iff.mp hconcluded
    exact .answered event handle outcome hgives hhost hretire hserved hdone hcustody
  next hserved =>
    split at hconcluded
    next resource =>
      obtain ⟨custody, hcustody, rfl⟩ := Option.map_eq_some_iff.mp hconcluded
      exact .lent event resource hgives hhost hretire hserved hdone hcustody
    next hnot =>
      cases hconcluded
      refine .went event hgives hhost hretire (.inr fun other hother => ?_)
      cases hdone.symm.trans hother
      exact ⟨hserved, hnot⟩

theorem change_of_called? {event : ε} {host : σ} (hgives : kind.gives? event = none)
    (hhost : kind.step? lending.host event = some host)
    (hcalled : lending.called? kind event host = some next) :
    Change kind lending (.call event) next := by
  unfold called? at hcalled
  split at hcalled
  next hretire =>
    obtain ⟨custody, hcustody, rfl⟩ := Option.map_eq_some_iff.mp hcalled
    exact .checked event hgives hhost hretire hcustody
  next outcome hidle =>
    cases hcalled
    exact .went event hgives hhost (by simp [hidle]) (.inl ⟨outcome, hidle⟩)
  next hretire hbusy =>
    split at hcalled
    next outcome hdone =>
      exact change_of_concluded? hgives hhost hretire hdone hcalled
    next hnot =>
      cases hcalled
      exact .went event hgives hhost hretire (.inr fun outcome hdone => absurd hdone (hnot outcome))

theorem change_of_step? {occasion : Occasion ε R}
    (hstep : lending.step? kind occasion = some next) :
    lending.custody.exited = false ∧ Change kind lending occasion next := by
  obtain ⟨hrunning, hstep⟩ := Option.ite_none_left_eq_some.mp hstep
  refine ⟨eq_false_of_ne_true hrunning, ?_⟩
  cases occasion with
  | custody event =>
      obtain ⟨hfree, hmoved⟩ := Option.ite_none_right_eq_some.mp hstep
      obtain ⟨custody, hcustody, rfl⟩ := Option.map_eq_some_iff.mp hmoved
      exact .handled event hfree hcustody
  | give event handle =>
      obtain ⟨resource, hgives, hgiven⟩ := Option.bind_eq_some_iff.mp hstep
      obtain ⟨hserve, hmoved⟩ := Option.ite_none_right_eq_some.mp hgiven
      obtain ⟨host, hhost, rfl⟩ := Option.map_eq_some_iff.mp hmoved
      exact .given event handle hgives hserve hhost
  | call event =>
      obtain ⟨hgives, hmoved⟩ := Option.ite_none_right_eq_some.mp hstep
      obtain ⟨host, hhost, hcalled⟩ := Option.bind_eq_some_iff.mp hmoved
      exact change_of_called? (Option.isNone_iff_eq_none.mp hgives) hhost hcalled

theorem host_of_change {occasion : Occasion ε R} (hchange : Change kind lending occasion next) :
    next.host = lending.host ∨ ∃ event, kind.step? lending.host event = some next.host ∧
      (occasion = .call event ∨
        ∃ handle resource, occasion = .give event handle ∧ kind.gives? event = some resource) := by
  cases hchange with
  | handled => exact .inl rfl
  | given event handle hgives hserve hhost =>
      exact .inr ⟨event, hhost, .inr ⟨handle, _, rfl, hgives⟩⟩
  | checked event hgives hhost => exact .inr ⟨event, hhost, .inl rfl⟩
  | answered event handle outcome hgives hhost => exact .inr ⟨event, hhost, .inl rfl⟩
  | lent event resource hgives hhost => exact .inr ⟨event, hhost, .inl rfl⟩
  | went event hgives hhost => exact .inr ⟨event, hhost, .inl rfl⟩

end Lending

/-! Who is served: each call that gives back is made for one handle, which waits for its answer. -/

theorem serving_set {serving : List (Option Nat)} {place : Nat} {old : Option Nat}
    (hplace : serving[place]? = some old) (new : Option Nat) (index : Nat) :
    (serving.set place new)[index]?.join =
      if index = place then new else serving[index]?.join := by
  have hbound := (List.getElem?_eq_some_iff.mp hplace).1
  split
  next heq =>
    subst heq
    rw [List.getElem?_set_self hbound, Option.join_some]
  next hne => rw [List.getElem?_set_ne fun heq => hne heq.symm]

/-- The handles that callers give back for are giving, and there is one caller for each. -/
structure Tied (loans : List (Loan R)) (serving : List (Option Nat)) : Prop where
  giving : ∀ index handle : Nat, serving[index]?.join = some handle →
    ∃ loan, loans[handle]? = some loan ∧ loan.pool = 0 ∧ loan.stage.giving?.isSome
  single : ∀ first second handle : Nat, serving[first]?.join = some handle →
    serving[second]?.join = some handle → first = second

theorem tied_start (count : Nat) : Tied ([] : List (Loan R)) (List.replicate count none) := by
  have hserved : ∀ index handle : Nat, (List.replicate count none)[index]?.join ≠ some handle := by
    intro index handle hserved
    have hmem := List.mem_of_getElem? (Option.join_eq_some_iff.mp hserved)
    cases List.eq_of_mem_replicate hmem
  exact ⟨fun index handle h => absurd h (hserved index handle),
    fun first second handle h => absurd h (hserved first handle)⟩

namespace Tied

variable {loans : List (Loan R)} {serving : List (Option Nat)}

theorem lt_length (htied : Tied loans serving) {index handle : Nat}
    (hserved : serving[index]?.join = some handle) : handle < loans.length := by
  obtain ⟨loan, hloan, -⟩ := htied.giving index handle hserved
  exact (List.getElem?_eq_some_iff.mp hloan).1

theorem ne_of_free (htied : Tied loans serving) {index other : Nat}
    (hserved : serving[index]?.join = some other) {handle : Nat} {loan : Loan R}
    (hloan : loans[handle]? = some loan) (hfree : loan.pool ≠ 0 ∨ loan.stage.giving? = none) :
    handle ≠ other := by
  rintro rfl
  obtain ⟨kept, hkept, hpool, hgiving⟩ := htied.giving index handle hserved
  cases hloan.symm.trans hkept
  rcases hfree with hfree | hfree
  · exact hfree hpool
  · simp [hfree] at hgiving

theorem lend (htied : Tied loans serving) (loan : Loan R) : Tied (loans ++ [loan]) serving where
  giving := by
    intro index handle hserved
    rw [List.getElem?_append_left (htied.lt_length hserved)]
    exact htied.giving index handle hserved
  single := htied.single

theorem act (htied : Tied loans serving) {handle : Nat} {loan : Loan R}
    (hloan : loans[handle]? = some loan) (hfree : loan.pool ≠ 0 ∨ loan.stage.giving? = none)
    (moved : Loan R) : Tied (loans.set handle moved) serving where
  giving := by
    intro index other hserved
    rw [List.getElem?_set_ne (htied.ne_of_free hserved hloan hfree)]
    exact htied.giving index other hserved
  single := htied.single

theorem give (htied : Tied loans serving) {place handle : Nat}
    (hplace : serving[place]? = some none)
    (hfresh : ∀ index : Nat, serving[index]?.join ≠ some handle) {loan : Loan R}
    (hloan : loans[handle]? = some loan) (hpool : loan.pool = 0)
    (hgiving : loan.stage.giving?.isSome) : Tied loans (serving.set place (some handle)) where
  giving := by
    intro index other hserved
    rw [serving_set hplace] at hserved
    split at hserved
    next =>
      cases hserved
      exact ⟨loan, hloan, hpool, hgiving⟩
    next => exact htied.giving index other hserved
  single := by
    intro first second other hfirst hsecond
    rw [serving_set hplace] at hfirst hsecond
    split at hfirst <;> split at hsecond
    next heq hother => exact heq.trans hother.symm
    next =>
      cases hfirst
      exact absurd hsecond (hfresh second)
    next =>
      cases hsecond
      exact absurd hfirst (hfresh first)
    next => exact htied.single first second other hfirst hsecond

theorem ne_of_elsewhere (htied : Tied loans serving) {place handle : Nat}
    (hplace : serving[place]?.join = some handle) {index other : Nat} (hne : index ≠ place)
    (hserved : serving[index]?.join = some other) : other ≠ handle := by
  rintro rfl
  exact hne (htied.single index place other hserved hplace)

theorem conclude (htied : Tied loans serving) {place handle : Nat}
    (hplace : serving[place]? = some (some handle)) (moved : Loan R) :
    Tied (loans.set handle moved) (serving.set place none) where
  giving := by
    intro index other hserved
    rw [serving_set hplace] at hserved
    split at hserved
    next => cases hserved
    next hne =>
      have hjoin : serving[place]?.join = some handle := by rw [hplace, Option.join_some]
      rw [List.getElem?_set_ne (htied.ne_of_elsewhere hjoin hne hserved).symm]
      exact htied.giving index other hserved
  single := by
    intro first second other hfirst hsecond
    rw [serving_set hplace] at hfirst hsecond
    split at hfirst
    next => cases hfirst
    next =>
      split at hsecond
      next => cases hsecond
      next => exact htied.single first second other hfirst hsecond

end Tied

namespace Lending

variable [DecidableEq R] {kind : Host σ ε R} {lending next : Lending σ R}

theorem served_of_canServe {caller handle : Nat} {resource : R}
    (hserve : lending.canServe caller handle resource) :
    lending.serving[caller]? = some none ∧
      (∀ index : Nat, lending.serving[index]?.join ≠ some handle) ∧
      ∃ loan, lending.custody.loans[handle]? = some loan ∧ loan.pool = 0 ∧
        loan.stage.giving? = some resource := by
  simp only [canServe, Bool.and_eq_true, decide_eq_true_eq, Bool.not_eq_true',
    Option.any_eq_true] at hserve
  obtain ⟨⟨hplace, hfresh⟩, loan, hloan, hpool, hgiving⟩ := hserve
  refine ⟨hplace, fun index hserved => ?_, loan, hloan, hpool, hgiving⟩
  have hmem := List.mem_of_getElem? (Option.join_eq_some_iff.mp hserved)
  simp [hmem] at hfresh

theorem tied_of_change (htied : Tied lending.custody.loans lending.serving)
    {occasion : Occasion ε R} (hchange : Change kind lending occasion next) :
    Tied next.custody.loans next.serving := by
  cases hchange with
  | handled event hfree hcustody =>
      cases (transition_of_step? hcustody).2 with
      | failed | abandoned => exact htied
      | lent => exact htied.lend _
      | checked pool => exact lending.custody.loans_look pool ▸ htied
      | acted handle act hloan => exact htied.act hloan ((Custody.isFree_act_iff hloan).mp hfree) _
  | given event handle hgives hserve hhost =>
      obtain ⟨hplace, hfresh, loan, hloan, hpool, hgiving⟩ := served_of_canServe hserve
      exact htied.give hplace hfresh hloan hpool (by simp [hgiving])
  | checked event hgives hhost hretire hcustody =>
      cases (transition_of_step? hcustody).2
      exact lending.custody.loans_look 0 ▸ htied
  | answered event handle outcome hgives hhost hretire hserved hdone hcustody =>
      cases (transition_of_step? hcustody).2
      exact htied.conclude (Option.join_eq_some_iff.mp hserved) _
  | lent event resource hgives hhost hretire hserved hdone hcustody =>
      cases (transition_of_step? hcustody).2 with
      | failed pool outcome howned hnot => exact absurd rfl (hnot resource)
      | lent => exact htied.lend _
  | went => exact htied

end Lending

end Pooling.Handles
