import Pooling.Proofs.LockPool.Rounds

/-!
Rounds of a lock pool's evictor while callers are at work on the pool, with a record of what the
evictor looks at and of what the pool loses.
-/

namespace Pooling.LockPool

variable {κ : Type} [DecidableEq κ]

/-- The key that a round looks at next. -/
def Phase.looks : Phase κ → List κ
  | sweeping progress => if progress.left = 0 then [] else progress.cursor.take 1
  | _ => []

namespace Vigil.Event

/-- How many steps of the evictor an event is. -/
def steps : Event κ → Nat
  | turn => 1
  | refill _ => 1
  | _ => 0

def looks (event : Event κ) (phase : Phase κ) : List κ :=
  match event with
  | turn => phase.looks
  | _ => []

def lists : Event κ → List (List κ)
  | refill keys => [keys]
  | _ => []

end Vigil.Event

/-- The pool has become smaller. -/
structure Loss (κ : Type) where
  before : Store κ
  after : Store κ

namespace Store

def loss (before after : Store κ) : List (Loss κ) :=
  if after.size < before.size then [⟨before, after⟩] else []

omit [DecidableEq κ] in
theorem Grown.loss_eq_nil {before after : Store κ} (hgrown : before.Grown after) :
    before.loss after = [] :=
  if_neg (Nat.not_lt.mpr hgrown.size_le)

end Store

/-- What has happened in a round. -/
structure Chronicle (κ : Type) where
  /-- How many steps the evictor has taken. -/
  steps : Nat := 0
  /-- The keys it has looked at. -/
  visited : List κ := []
  /-- The lists of all keys that it has taken. -/
  lists : List (List κ) := []
  losses : List (Loss κ) := []

/-- An event has led from one store to another, at some phase of the round. -/
def Chronicle.record (chronicle : Chronicle κ) (store : Store κ) (phase : Phase κ)
    (event : Vigil.Event κ) (after : Store κ) : Chronicle κ where
  steps := chronicle.steps + event.steps
  visited := chronicle.visited ++ event.looks phase
  lists := chronicle.lists ++ event.lists
  losses := chronicle.losses ++ store.loss after

structure Patrol (κ : Type) where
  vigil : Vigil κ
  chronicle : Chronicle κ := {}

namespace Patrol

def step? (patrol : Patrol κ) (event : Vigil.Event κ) : Option (Patrol κ) :=
  (patrol.vigil.step? event).map fun vigil =>
    ⟨vigil, patrol.chronicle.record patrol.vigil.system.store patrol.vigil.phase event
      vigil.system.store⟩

/-- The evictor stops at the end of its round. -/
def stops (patrol : Patrol κ) : Vigil.Event κ → Bool
  | .turn => patrol.vigil.phase.isUnderway
  | _ => true

abbrev Reaches : Patrol κ → Patrol κ → Prop := Runs.Reaches step? stops

abbrev run? : List (Vigil.Event κ) → Patrol κ → Option (Patrol κ) := Runs.run? step? stops

end Patrol

namespace Vigil

theorem caller?_spec {before after : Vigil κ} {event : LockPool.Event κ}
    (hstep : before.caller? event = some after) : (∀ key, event ≠ .evict key) ∧
      before.system.step? event = some after.system ∧ after.phase = before.phase := by
  have hcaller : (∀ key, event ≠ .evict key) ∧
      (before.system.step? event).map (fun system => { before with
        system, nudges := before.nudges ++ before.system.nudges event }) = some after := by
    cases event with
    | look | evict => cases hstep
    | _ =>
        refine ⟨fun key heq => ?_, hstep⟩
        cases heq
  obtain ⟨hkeeps, hstep⟩ := hcaller
  obtain ⟨system, hsystem, rfl⟩ := Option.map_eq_some_iff.mp hstep
  exact ⟨hkeeps, hsystem, rfl⟩

theorem nudge?_spec {before after : Vigil κ} {index : Nat} (hasleep : before.phase ≠ .parked)
    (hstep : before.nudge? index = some after) :
    after.system = before.system ∧ after.phase = before.phase := by
  simp only [nudge?, Option.bind_eq_bind, Option.bind_eq_some_iff] at hstep
  obtain ⟨nudge, -, hstep⟩ := hstep
  cases nudge with
  | comparing =>
      dsimp only at hstep
      split at hstep <;> cases hstep <;> exact ⟨rfl, rfl⟩
  | trying =>
      dsimp only at hstep
      split at hstep <;> cases hstep <;> exact ⟨rfl, rfl⟩
  | notifying =>
      simp only [if_neg hasleep] at hstep
      cases hstep
      exact ⟨rfl, rfl⟩
  | leaving =>
      cases hstep
      exact ⟨rfl, rfl⟩

/-- What others do while a round goes on adds entries at most, and leaves the round where it is. -/
theorem grown_of_others {before after : Vigil κ} {event : Event κ}
    (hround : (before.phase.progress?).isSome) (hothers : event.steps = 0)
    (hnodup : before.system.store.keys.keys.Nodup) (hstep : before.step? event = some after) :
    before.system.store.Grown after.system.store ∧ after.system.store.keys.keys.Nodup ∧
      after.phase = before.phase := by
  have hasleep : before.phase ≠ .parked := by
    intro hparked
    rw [hparked] at hround
    cases hround
  cases event with
  | caller event =>
      obtain ⟨hkeeps, hsystem, hphase⟩ := caller?_spec hstep
      exact ⟨System.grown_step hkeeps hsystem, System.nodup_keys_step hnodup hsystem, hphase⟩
  | nudge index =>
      obtain ⟨hsystem, hphase⟩ := nudge?_spec hasleep hstep
      rw [hsystem, hphase]
      exact ⟨.refl _, hnodup, rfl⟩
  | rouse =>
      rw [step?, if_neg hasleep] at hstep
      cases hstep
  | turn | refill => cases hothers

end Vigil

/-- An entry was dropped that nobody referred to, nor had used again, and enough others are left. -/
structure Loss.Fair (lowWatermark : Nat) (loss : Loss κ) : Prop where
  exists_entry : ∃ key entry, loss.before.entryOf? key = some entry ∧ entry.references = 0 ∧
    entry.accessed = false ∧ loss.after.keys = loss.before.keys.erase key
  size_eq : loss.after.size + 1 = loss.before.size
  lowWatermark_le : lowWatermark ≤ loss.after.size

/-- How far a round has come that began on a vigil, with steps in reserve. -/
structure Charting (base : Vigil κ) (store : Store κ) (chronicle : Chronicle κ)
    (progress : Progress κ) (reserve : Nat) : Prop where
  visited_eq : chronicle.visited ++ progress.cursor = base.cursor ++ chronicle.lists.flatten
  lists_eq : chronicle.lists.length = progress.refills
  refills_le : progress.refills ≤ maxPasses
  steps_le :
    chronicle.steps + reserve ≤ 2 * chronicle.visited.length + chronicle.lists.length + 1
  removed_eq : progress.removed = chronicle.losses.length
  target_eq : progress.left + progress.removed =
    base.system.store.size - base.system.store.lowWatermark
  fair : ∀ loss ∈ chronicle.losses, loss.Fair base.system.store.lowWatermark
  nodup : store.keys.keys.Nodup
  -- The pool has been no smaller than it takes to remove as many as are still to go.
  room : progress.left ≠ 0 → base.system.store.lowWatermark + progress.left ≤ store.size

/-- How far a round has come at each of its phases. -/
def Phase.Charts (base : Vigil κ) (store : Store κ) (chronicle : Chronicle κ) : Phase κ → Prop
  | sweeping progress => Charting base store chronicle progress 1
  | judging _ progress => Charting base store chronicle progress 2 ∧ progress.left ≠ 0
  | ending progress => Charting base store chronicle progress 0
  | _ => False

namespace Charting

variable {base : Vigil κ} {store after : Store κ} {chronicle : Chronicle κ}
  {progress : Progress κ} {reserve : Nat} {phase : Phase κ} {event : Vigil.Event κ}

theorem look {key : κ} {cursor : List κ} (hcharting : Charting base store chronicle progress 1)
    (hleft : progress.left ≠ 0) (hcursor : progress.cursor = key :: cursor)
    (hreserve : reserve ≤ 2) :
    Charting base (store.clearAccessed key).2
      (chronicle.record store (.sweeping progress) .turn (store.clearAccessed key).2)
      { progress with cursor } reserve := by
  have hkeys := store.keys_clearAccessed key
  have hlosses : store.loss (store.clearAccessed key).2 = [] :=
    (store.grown_clearAccessed key).loss_eq_nil
  have hlooks : Vigil.Event.turn.looks (.sweeping progress) = [key] := by
    simp only [Vigil.Event.looks, Phase.looks, if_neg hleft, hcursor]
    rfl
  have hrecord : chronicle.record store (.sweeping progress) .turn (store.clearAccessed key).2 =
      { chronicle with steps := chronicle.steps + 1, visited := chronicle.visited ++ [key] } := by
    simp only [Chronicle.record, hlosses, hlooks, Vigil.Event.steps, Vigil.Event.lists,
      List.append_nil]
  rw [hrecord]
  refine ⟨?_, hcharting.lists_eq, hcharting.refills_le, ?_, hcharting.removed_eq,
    hcharting.target_eq, hcharting.fair, hkeys ▸ hcharting.nodup, ?_⟩
  · have hvisited := hcharting.visited_eq
    rw [hcursor] at hvisited
    rw [List.append_assoc]
    exact hvisited
  · have hsteps := hcharting.steps_le
    simp only [List.length_append, List.length_singleton]
    omega
  · rw [Store.size, hkeys]
    exact hcharting.room

/-- Nothing comes of an event but a step at most, and new entries. -/
theorem rest {spare : Nat} (hcharting : Charting base store chronicle progress spare)
    (hspare : reserve + event.steps ≤ spare) (hlooks : event.looks phase = [])
    (hlists : event.lists = []) (hgrown : store.Grown after) (hnodup : after.keys.keys.Nodup) :
    Charting base after (chronicle.record store phase event after) progress reserve := by
  have hrecord : chronicle.record store phase event after =
      { chronicle with steps := chronicle.steps + event.steps } := by
    simp only [Chronicle.record, hgrown.loss_eq_nil, hlooks, hlists, List.append_nil]
  rw [hrecord]
  refine ⟨hcharting.visited_eq, hcharting.lists_eq, hcharting.refills_le, ?_, hcharting.removed_eq,
    hcharting.target_eq, hcharting.fair, hnodup, ?_⟩
  · have hsteps := hcharting.steps_le
    dsimp only
    omega
  · exact fun hleft => Nat.le_trans (hcharting.room hleft) hgrown.size_le

theorem drop {key : κ} (hcharting : Charting base store chronicle progress 2)
    (hleft : progress.left ≠ 0) (hidle : store.idle? key = some false) :
    Charting base (store.removeIdle key).2
      (chronicle.record store (.judging key progress) .turn (store.removeIdle key).2)
      { progress with left := progress.left - 1, removed := progress.removed + 1 } 1 := by
  have hkeys := Store.keys_removeIdle hidle
  have hsize := Store.size_removeIdle hidle hcharting.nodup
  have hloss : store.loss (store.removeIdle key).2 = [⟨store, (store.removeIdle key).2⟩] :=
    if_pos (by omega)
  have hrecord : chronicle.record store (.judging key progress) .turn (store.removeIdle key).2 =
      { chronicle with
        steps := chronicle.steps + 1
        losses := chronicle.losses ++ [⟨store, (store.removeIdle key).2⟩] } := by
    simp only [Chronicle.record, hloss, Vigil.Event.looks, Phase.looks, Vigil.Event.steps,
      Vigil.Event.lists, List.append_nil]
  have hroom := hcharting.room hleft
  rw [hrecord]
  refine ⟨hcharting.visited_eq, hcharting.lists_eq, hcharting.refills_le, ?_, ?_, ?_, ?_, ?_, ?_⟩
  · exact hcharting.steps_le
  · rw [List.length_append, List.length_singleton, hcharting.removed_eq]
  · have htarget := hcharting.target_eq
    dsimp only
    omega
  · intro loss hmem
    rcases List.mem_append.mp hmem with hmem | hmem
    · exact hcharting.fair loss hmem
    · cases List.mem_singleton.mp hmem
      obtain ⟨entry, hentry, hzero, hclear⟩ := Store.exists_entryOf? hidle
      exact ⟨⟨key, entry, hentry, hzero, hclear, hkeys⟩, hsize, by dsimp only; omega⟩
  · rw [hkeys]
    exact Table.nodup_keys_erase hcharting.nodup key
  · intro _
    dsimp only
    omega

theorem list {keys : List κ} (hcharting : Charting base store chronicle progress 1)
    (hcursor : progress.cursor = []) (hrefills : progress.refills < maxPasses)
    (hreserve : reserve ≤ 1) :
    Charting base store (chronicle.record store phase (.refill keys) store)
      { progress with cursor := keys, refills := progress.refills + 1 } reserve := by
  have hrecord : chronicle.record store phase (.refill keys) store =
      { chronicle with
        steps := chronicle.steps + 1
        lists := chronicle.lists ++ [keys] } := by
    simp only [Chronicle.record, (Store.Grown.refl store).loss_eq_nil, Vigil.Event.looks,
      Vigil.Event.steps, Vigil.Event.lists, List.append_nil]
  rw [hrecord]
  refine ⟨?_, ?_, hrefills, ?_, hcharting.removed_eq, hcharting.target_eq, hcharting.fair,
    hcharting.nodup, hcharting.room⟩
  · have hvisited := hcharting.visited_eq
    rw [hcursor, List.append_nil] at hvisited
    rw [hvisited, List.flatten_concat, List.append_assoc]
  · rw [List.length_append, List.length_singleton, hcharting.lists_eq]
  · have hsteps := hcharting.steps_le
    simp only [List.length_append, List.length_singleton]
    omega

end Charting

namespace Vigil

variable {base : Vigil κ} {store after : Store κ} {chronicle : Chronicle κ} {event : Event κ}
  {phase next : Phase κ}

theorem Strode.charts (hstrode : Strode store event phase after next)
    (hcharts : phase.Charts base store chronicle) :
    next.Charts base after (chronicle.record store phase event after) := by
  cases hstrode with
  | @ended progress hdone =>
      refine Charting.rest hcharts (Nat.le_refl 1) ?_ rfl (.refl store) hcharts.nodup
      simp only [Event.looks, Phase.looks]
      rcases hdone with hleft | ⟨hcursor, -⟩
      · rw [if_pos hleft]
      · rw [hcursor, List.take_nil, ite_self]
  | passed hleft hcursor hpassed => exact hcharts.look hleft hcursor (by decide)
  | found hleft hcursor hfound => exact ⟨hcharts.look hleft hcursor (by decide), hleft⟩
  | dropped hidle => exact hcharts.1.drop hcharts.2 hidle
  | spared hbusy => exact hcharts.1.rest (Nat.le_refl 2) rfl rfl (.refl store) hcharts.1.nodup
  | listed hleft hcursor hrefills hkeys => exact hcharts.list hcursor hrefills (by decide)
  | bare hleft hcursor hrefills hnone => exact hcharts.list hcursor hrefills (by decide)

/-- Others leave a round where it is. -/
theorem charts_of_others (hcharts : phase.Charts base store chronicle)
    (hgrown : store.Grown after) (hnodup : after.keys.keys.Nodup) (hsteps : event.steps = 0) :
    phase.Charts base after (chronicle.record store phase event after) := by
  have hspare : ∀ reserve, reserve + event.steps ≤ reserve := fun reserve => by omega
  have hlooks : event.looks phase = [] := by
    cases event with
    | turn => cases hsteps
    | _ => rfl
  have hlists : event.lists = [] := by
    cases event with
    | refill => cases hsteps
    | _ => rfl
  cases phase with
  | sweeping => exact Charting.rest hcharts (hspare 1) hlooks hlists hgrown hnodup
  | judging =>
      exact ⟨hcharts.1.rest (hspare 2) hlooks hlists hgrown hnodup, hcharts.2⟩
  | ending => exact Charting.rest hcharts (hspare 0) hlooks hlists hgrown hnodup
  | _ => exact hcharts.elim

end Vigil

namespace Phase

variable {base : Vigil κ} {store : Store κ} {chronicle : Chronicle κ} {phase : Phase κ}

theorem Charts.exists_charting (hcharts : phase.Charts base store chronicle) :
    ∃ progress reserve, phase.progress? = some progress ∧
      Charting base store chronicle progress reserve ∧
      (phase.isUnderway = true ∨ phase = .ending progress) := by
  cases phase with
  | sweeping progress => exact ⟨progress, 1, rfl, hcharts, .inl rfl⟩
  | judging key progress => exact ⟨progress, 2, rfl, hcharts.1, .inl rfl⟩
  | ending progress => exact ⟨progress, 0, rfl, hcharts, .inr rfl⟩
  | _ => exact hcharts.elim

end Phase

namespace Patrol

variable {base : Vigil κ} {before after : Patrol κ} {event : Vigil.Event κ}

/-- A round has come this far, with this to be said of what has happened in it. -/
def Charted (base : Vigil κ) (patrol : Patrol κ) : Prop :=
  patrol.vigil.phase.Charts base patrol.vigil.system.store patrol.chronicle

theorem Charted.step (hcharted : before.Charted base) (hstops : before.stops event = true)
    (hstep : before.step? event = some after) : after.Charted base := by
  obtain ⟨vigil, hvigil, rfl⟩ := Option.map_eq_some_iff.mp hstep
  have hothers : event.steps = 0 → vigil.phase.Charts base vigil.system.store
      (before.chronicle.record before.vigil.system.store before.vigil.phase event
        vigil.system.store) := by
    intro hsteps
    obtain ⟨progress, reserve, hprogress, hcharting, -⟩ := hcharted.exists_charting
    obtain ⟨hgrown, hnodup, hphase⟩ := Vigil.grown_of_others (by rw [hprogress]; rfl) hsteps
      hcharting.nodup hvigil
    rw [hphase]
    exact Vigil.charts_of_others hcharted hgrown hnodup hsteps
  cases event with
  | turn => exact (Vigil.strode_of_turn? hstops hvigil).1.charts hcharted
  | refill keys => exact (Vigil.strode_of_refill? hvigil).1.charts hcharted
  | caller | nudge | rouse => exact hothers rfl

/-- The evictor has seen that it is to remove what the pool has above its low watermark. -/
theorem charted_of_aiming {aimed : Vigil κ} (hnodup : base.system.store.keys.keys.Nodup)
    (haiming : base.phase = .aiming) (hturn : base.turn? = some aimed) :
    ({ vigil := aimed } : Patrol κ).Charted base := by
  simp only [Vigil.turn?, haiming, Option.some.injEq] at hturn
  subst hturn
  refine ⟨?_, rfl, Nat.zero_le _, Nat.le_refl 1, rfl, rfl, ?_, hnodup, fun hleft => ?_⟩
  · exact (List.append_nil base.cursor).symm
  · intro loss hmem
    cases hmem
  · dsimp only at hleft ⊢
    omega

/-- What a round comes to, as far as it has come. -/
structure Bounded (base : Vigil κ) (patrol : Patrol κ) (progress : Progress κ) : Prop where
  visited_eq : patrol.chronicle.visited ++ progress.cursor =
    base.cursor ++ patrol.chronicle.lists.flatten
  lists_le : patrol.chronicle.lists.length ≤ 3
  steps_le : patrol.chronicle.steps ≤
    2 * (base.cursor.length + patrol.chronicle.lists.flatten.length) + 4
  -- The evictor can go on, or has come to the end of its round.
  goes_on : patrol.vigil.phase = .ending progress ∨
    ∃ event, event.steps = 1 ∧ patrol.stops event = true ∧ (patrol.step? event).isSome
  removed_eq : progress.removed = patrol.chronicle.losses.length
  removed_le : progress.removed ≤ base.system.store.size - base.system.store.lowWatermark
  fair : ∀ loss ∈ patrol.chronicle.losses, loss.Fair base.system.store.lowWatermark

theorem Charted.exists_bounded {patrol : Patrol κ} (hcharted : patrol.Charted base) :
    ∃ progress, patrol.vigil.phase.progress? = some progress ∧ patrol.Bounded base progress := by
  obtain ⟨progress, reserve, hprogress, hcharting, hphase⟩ := hcharted.exists_charting
  have hlists : patrol.chronicle.lists.length ≤ 3 :=
    Nat.le_trans (Nat.le_of_eq hcharting.lists_eq) hcharting.refills_le
  refine ⟨progress, hprogress, hcharting.visited_eq, hlists, ?_, ?_, hcharting.removed_eq, ?_,
    hcharting.fair⟩
  · have hvisited := congrArg List.length hcharting.visited_eq
    have hsteps := hcharting.steps_le
    rw [List.length_append, List.length_append] at hvisited
    omega
  · refine hphase.symm.imp_right fun hunderway => ?_
    obtain ⟨event, hevent, hstep⟩ := Vigil.exists_isSome_step? hunderway (by
      intro other hother
      cases hprogress.symm.trans hother
      exact hcharting.refills_le)
    refine ⟨event, ?_, ?_, (Option.isSome_map ..).trans hstep⟩
    · rcases hevent with rfl | rfl <;> rfl
    · rcases hevent with rfl | rfl
      · exact hunderway
      · rfl
  · have htarget := hcharting.target_eq
    omega

/-- Whatever callers do during a round of the evictor, it visits no more keys than were left over
and are on three lists of all keys, and removes no more entries than the pool has above its low
watermark; all of them idle, and none at the low watermark. -/
theorem bounded_of_aiming {base aimed : Vigil κ} (hnodup : base.system.store.keys.keys.Nodup)
    (haiming : base.phase = .aiming) (hturn : base.turn? = some aimed) {patrol : Patrol κ}
    (hreaches : Reaches { vigil := aimed } patrol) :
    ∃ progress, patrol.vigil.phase.progress? = some progress ∧ patrol.Bounded base progress := by
  have hcharted := hreaches.invariant (Charted base) (charted_of_aiming hnodup haiming hturn)
    fun hcharted hstops hstep => hcharted.step hstops hstep
  exact hcharted.exists_bounded

/-- Three keys that nobody refers to, of which the evictor is to remove two. -/
def surplus : List (Vigil.Event Nat) :=
  [1, 2, 3].flatMap (fun key =>
      [.caller (.tryGet key .read), .caller (.act 0 .giveUp), .caller (.undo 0)]) ++
    List.replicate 3 .turn

/-- One of the keys is used again, and another added, while the evictor goes over them. -/
def interrupted : List (Vigil.Event Nat) :=
  [.refill [1, 2, 3], .turn, .caller (.tryGet 1 .read), .turn, .turn, .turn, .caller (.get 4 .read),
    .turn, .turn, .turn]

theorem bounded_of_interrupted : ∃ (base aimed : Vigil Nat) (patrol : Patrol Nat),
    Vigil.run? surplus (Vigil.start 1 1) = some base ∧ base.phase = .aiming ∧
      base.turn? = some aimed ∧ run? interrupted { vigil := aimed } = some patrol ∧
      ∃ progress, patrol.vigil.phase = .ending progress ∧ progress.removed = 2 ∧
        patrol.chronicle.losses.length = 2 ∧ patrol.Bounded base progress := by
  let shown (base aimed : Vigil Nat) (patrol : Patrol Nat) :=
    (base.phase, base.system.store.keys.keys, patrol.vigil.phase)
  have hruns : ((Vigil.run? surplus (Vigil.start 1 1)).bind fun base =>
      base.turn?.bind fun aimed => (run? interrupted { vigil := aimed }).map fun patrol =>
        shown base aimed patrol) =
      some (.aiming, [1, 2, 3], .ending ⟨0, 2, 1, []⟩) := by decide
  obtain ⟨base, hbase, hrest⟩ := Option.bind_eq_some_iff.mp hruns
  obtain ⟨aimed, haimed, hrest⟩ := Option.bind_eq_some_iff.mp hrest
  obtain ⟨patrol, hpatrol, hshown⟩ := Option.map_eq_some_iff.mp hrest
  simp only [shown, Prod.mk.injEq] at hshown
  obtain ⟨haiming, hkeys, hending⟩ := hshown
  have hnodup : base.system.store.keys.keys.Nodup := by
    rw [hkeys]
    decide
  obtain ⟨progress, hprogress, hbounded⟩ :=
    bounded_of_aiming hnodup haiming haimed (Runs.reaches_of_run? hpatrol)
  rw [hending] at hprogress
  cases hprogress
  exact ⟨base, aimed, patrol, hbase, haiming, haimed, hpatrol, _, hending, rfl,
    hbounded.removed_eq.symm, hbounded⟩

end Patrol

end Pooling.LockPool
