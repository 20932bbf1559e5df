import Pooling.Proofs.LockPool.Idle
import Pooling.Proofs.LockPool.Vigil

/-!
The sleep of a lock pool's evictor. It may be left asleep with entries to remove, but only if somebody
who was to wake it came while it was at work.
-/

namespace Pooling.LockPool

variable {κ : Type} [DecidableEq κ]

/-- A round that has gone so far still comes past a key as often as it takes to drop its idle entry:
twice, if that was used again. -/
def Progress.Due (progress : Progress κ) (key : κ) : Bool → Prop
  | false => key ∈ progress.cursor ∨ progress.refills < maxPasses
  | true => key ∈ progress.cursor ∧ progress.refills < maxPasses ∨
      progress.refills + 1 < maxPasses

omit [DecidableEq κ] in
theorem Progress.Due.unused {progress : Progress κ} {key : κ} {used : Bool}
    (hdue : progress.Due key used) : progress.Due key false := by
  cases used with
  | false => exact hdue
  | true =>
      rcases hdue with ⟨hmem, -⟩ | hlt
      · exact .inl hmem
      · exact .inr (Nat.lt_of_succ_lt hlt)

omit [DecidableEq κ] in
theorem Progress.Due.of_cons {progress : Progress κ} {visited key : κ} {cursor : List κ}
    {used : Bool} (hdue : progress.Due key used) (hcursor : progress.cursor = visited :: cursor)
    (hne : key ≠ visited) : { progress with cursor : Progress κ }.Due key used := by
  have hmem : key ∈ progress.cursor → key ∈ cursor := by
    intro hmem
    rw [hcursor] at hmem
    exact (List.mem_cons.mp hmem).resolve_left hne
  cases used with
  | false => exact hdue.imp_left hmem
  | true => exact hdue.imp_left fun hboth => ⟨hmem hboth.1, hboth.2⟩

omit [DecidableEq κ] in
theorem Progress.Due.again {progress : Progress κ} {key : κ} (hdue : progress.Due key true)
    (cursor : List κ) : { progress with cursor : Progress κ }.Due key false := by
  rcases hdue with ⟨-, hlt⟩ | hlt
  · exact .inr hlt
  · exact .inr (Nat.lt_of_succ_lt hlt)

namespace Phase

/-- What the evictor can rely on for going to sleep, unless somebody is to wake it. -/
def Settled (store : Store κ) (stalled : Bool) : Phase κ → Prop
  | locking => stalled = true → store.Rested
  | entered => stalled = true → store.Rested
  | parked => store.Rested
  | resting => store.Rested
  | sweeping progress => progress.removed = 0 →
      ∀ key used, store.idle? key = some used → progress.Due key used
  | judging judged progress => progress.removed = 0 →
      ∀ key used, store.idle? key = some used → progress.Due key used ∨ key = judged ∧ used = false
  | ending progress => progress.removed = 0 → store.Rested
  | _ => True

/-- A round that has removed nothing goes over an overfull pool. -/
def Warranted (store : Store κ) : Phase κ → Prop
  | aiming => store.isOverfull = true
  | sweeping progress => progress.removed = 0 → store.isOverfull = true ∧ 0 < progress.left
  | judging _ progress => progress.removed = 0 → store.isOverfull = true ∧ 0 < progress.left
  | _ => True

variable {store after : Store κ} {stalled : Bool} {phase : Phase κ}

theorem Settled.of_calm (hsettled : phase.Settled store stalled) (hcalm : store.Calm after) :
    phase.Settled after stalled := by
  cases phase with
  | locking | entered => exact fun hstalled => hcalm.rested (hsettled hstalled)
  | parked | resting => exact hcalm.rested hsettled
  | sweeping progress =>
      exact fun hnone key used hidle => hsettled hnone key used (hcalm.idle key used hidle)
  | judging judged progress =>
      exact fun hnone key used hidle => hsettled hnone key used (hcalm.idle key used hidle)
  | ending progress => exact fun hnone => hcalm.rested (hsettled hnone)
  | _ => trivial

omit [DecidableEq κ] in
theorem Warranted.of_grown (hwarranted : phase.Warranted store) (hgrown : store.Grown after) :
    phase.Warranted after := by
  cases phase with
  | aiming => exact hgrown.isOverfull hwarranted
  | sweeping progress =>
      exact fun hnone => ⟨hgrown.isOverfull (hwarranted hnone).1, (hwarranted hnone).2⟩
  | judging judged progress =>
      exact fun hnone => ⟨hgrown.isOverfull (hwarranted hnone).1, (hwarranted hnone).2⟩
  | _ => trivial

theorem Warranted.settled (hwarranted : phase.Warranted store) (hfits : store.isOverfull = false) :
    phase.Settled store stalled := by
  have hrested : store.Rested := .inl hfits
  cases phase with
  | locking | entered | ending => exact fun _ => hrested
  | parked | resting => exact hrested
  | sweeping progress | judging judged progress =>
      intro hnone
      rw [(hwarranted hnone).1] at hfits
      cases hfits
  | _ => trivial

variable {progress : Progress κ} {key : κ} {cursor keys : List κ}

omit [DecidableEq κ] in
theorem due_start (left : Nat) (cursor : List κ) (key : κ) (used : Bool) :
    ({ left, cursor } : Progress κ).Due key used := by
  -- Whatever is left over from the last round, there are refills enough.
  cases used with
  | false => exact .inr (show 0 < maxPasses by decide)
  | true => exact .inr (show 1 < maxPasses by decide)

theorem Settled.look (hsettled : (sweeping progress).Settled store stalled)
    (hcursor : progress.cursor = key :: cursor) :
    (if (store.clearAccessed key).1 = some false then judging key { progress with cursor }
      else sweeping { progress with cursor }).Settled (store.clearAccessed key).2 stalled := by
  have hothers : ∀ {other used}, progress.removed = 0 → other ≠ key →
      (store.clearAccessed key).2.idle? other = some used →
      { progress with cursor : Progress κ }.Due other used := by
    intro other used hnone hne hidle
    obtain ⟨was, hwas, hused, -⟩ := Store.idle?_clearAccessed hidle
    have hdue := (hsettled hnone other was hwas).of_cons hcursor hne
    rcases hused with rfl | rfl
    · exact hdue
    · exact hdue.unused
  split
  next =>
    intro hnone other used hidle
    by_cases heq : other = key
    · obtain ⟨was, -, -, hself⟩ := Store.idle?_clearAccessed hidle
      exact .inr ⟨heq, (hself heq).1⟩
    · exact .inl (hothers hnone heq hidle)
  next hunseen =>
    intro hnone other used hidle
    by_cases heq : other = key
    · obtain ⟨was, hwas, -, hself⟩ := Store.idle?_clearAccessed hidle
      obtain ⟨rfl, hlooked⟩ := hself heq
      have hdue := hsettled hnone other was hwas
      cases was with
      | false => exact absurd hlooked hunseen
      | true => exact hdue.again cursor
    · exact hothers hnone heq hidle

omit [DecidableEq κ] in
theorem Warranted.look (hwarranted : (sweeping progress).Warranted store) {unused : Prop}
    [Decidable unused] (hgrown : store.Grown after) :
    (if unused then judging key { progress with cursor }
      else sweeping { progress with cursor }).Warranted after := by
  split <;> exact fun hnone => ⟨hgrown.isOverfull (hwarranted hnone).1, (hwarranted hnone).2⟩

theorem Settled.spare (hsettled : (judging key progress).Settled store stalled)
    (hspared : store.idle? key ≠ some false) : (sweeping progress).Settled store stalled := by
  intro hnone other used hidle
  rcases hsettled hnone other used hidle with hdue | ⟨rfl, rfl⟩
  · exact hdue
  · exact absurd hidle hspared

theorem Settled.exhaust (hsettled : (sweeping progress).Settled store stalled)
    (hcursor : progress.cursor = []) (hrefills : progress.refills = maxPasses) :
    (ending progress).Settled store stalled := by
  refine fun hnone => Store.rested_of_none fun key used hidle => ?_
  rcases (hsettled hnone key used hidle).unused with hmem | hlt
  · rw [hcursor] at hmem
    cases hmem
  · omega

theorem Settled.refill (hsettled : (sweeping progress).Settled store stalled)
    (hcursor : progress.cursor = []) (hkeys : ∀ key ∈ store.keys.keys, key ∈ keys) :
    (if keys = [] then ending { progress with cursor := keys, refills := progress.refills + 1 }
      else sweeping { progress with cursor := keys, refills := progress.refills + 1 }).Settled
        store stalled := by
  -- The keys listed anew are all that have entries.
  have hlisted : ∀ {key used}, store.idle? key = some used → key ∈ keys := by
    intro key used hidle
    obtain ⟨id, -, hlookup, -⟩ := Store.idle?_eq_some_iff.mp hidle
    apply hkeys
    rw [← Table.contains_iff_mem_keys, Table.contains]
    exact Option.isSome_of_eq_some hlookup
  split
  next hempty =>
    refine fun _ => Store.rested_of_none fun key used hidle => ?_
    have hmem := hlisted hidle
    rw [hempty] at hmem
    cases hmem
  next =>
    intro hnone key used hidle
    have hdue := hsettled hnone key used hidle
    cases used with
    | false => exact .inl (hlisted hidle)
    | true =>
        rcases hdue with ⟨hmem, -⟩ | hlt
        · rw [hcursor] at hmem
          cases hmem
        · exact .inl ⟨hlisted hidle, hlt⟩

end Phase

namespace Vigil

/-- Somebody is to wake the evictor, or came to nothing in that. -/
def Excused (vigil : Vigil κ) : Prop :=
  vigil.missed = true ∨ ∃ nudge ∈ vigil.nudges, nudge.isPending = true

structure Sound (vigil : Vigil κ) : Prop where
  watermarks : vigil.system.store.lowWatermark ≤ vigil.system.store.highWatermark
  alone : vigil.phase.holds = true → ∀ nudge ∈ vigil.nudges, nudge.holds = false
  -- Who has given the signal has the lock still, so the evictor has not got further.
  left : .leaving ∈ vigil.nudges →
    vigil.phase = .waking ∨ vigil.phase = .locking ∧ vigil.missed = true
  warranted : vigil.phase.Warranted vigil.system.store
  settled : vigil.Excused ∨ vigil.phase.Settled vigil.system.store vigil.stalled

theorem sound_start {lowWatermark highWatermark : Nat} (hle : lowWatermark ≤ highWatermark) :
    (start lowWatermark highWatermark : Vigil κ).Sound where
  watermarks := hle
  alone := fun hholds => nomatch hholds
  left := fun hmem => nomatch hmem
  warranted := trivial
  settled := .inr nofun

omit [DecidableEq κ] in
theorem holds_eq_false {vigil : Vigil κ} (hfree : ¬ vigil.isTaken = true) :
    ∀ nudge ∈ vigil.nudges, nudge.holds = false := by
  intro nudge hmem
  exact eq_false_of_ne_true fun hholds => hfree (List.any_eq_true.mpr ⟨nudge, hmem, hholds⟩)

theorem mem_eraseIdx_of_ne {nudges : List Nudge} {index : Nat} {nudge other : Nudge}
    (hat : nudges[index]? = some nudge) (hmem : other ∈ nudges) (hne : other ≠ nudge) :
    other ∈ nudges.eraseIdx index := by
  obtain ⟨place, hplace⟩ := List.getElem?_of_mem hmem
  refine List.mem_eraseIdx_iff_getElem?.mpr ⟨place, fun heq => hne ?_, hplace⟩
  subst heq
  exact Option.some.inj (hplace.symm.trans hat)

theorem mem_set_self {nudges : List Nudge} {index : Nat} {nudge : Nudge}
    (hat : nudges[index]? = some nudge) (new : Nudge) : new ∈ nudges.set index new := by
  have hbound := (List.getElem?_eq_some_iff.mp hat).1
  exact List.mem_of_getElem? (List.getElem?_set_self hbound)

namespace Sound

variable {before after : Vigil κ}

/-- Who has changed the pool says so, if the evictor could have something to do now. -/
theorem of_system (hsound : before.Sound) {system : System κ} {nudges : List Nudge}
    (hgrown : before.system.store.Grown system.store)
    (hcalm : nudges = [] → before.system.store.Calm system.store)
    (hnew : ∀ nudge ∈ nudges, nudge = .comparing) :
    ({ before with system, nudges := before.nudges ++ nudges } : Vigil κ).Sound where
  watermarks := by
    rw [hgrown.lowWatermark_eq, hgrown.highWatermark_eq]
    exact hsound.watermarks
  alone := by
    intro hholds nudge hmem
    rcases List.mem_append.mp hmem with hold | hmem
    · exact hsound.alone hholds nudge hold
    · rw [hnew nudge hmem]
      rfl
  left := by
    intro hmem
    rcases List.mem_append.mp hmem with hold | hmem
    · exact hsound.left hold
    · cases hnew _ hmem
  warranted := hsound.warranted.of_grown hgrown
  settled := by
    cases nudges with
    | nil =>
        -- Nobody new is to wake the evictor, so it must be able to rely on what it saw.
        rw [List.append_nil]
        exact hsound.settled.imp_right fun hsettled => hsettled.of_calm (hcalm rfl)
    | cons nudge nudges =>
        refine .inl (.inr ⟨nudge, List.mem_append_right _ List.mem_cons_self, ?_⟩)
        rw [hnew nudge List.mem_cons_self]
        rfl

theorem caller (hsound : before.Sound) {event : LockPool.Event κ}
    (hstep : before.caller? event = some after) : after.Sound := by
  cases event with
  | get key mode | tryGet key mode =>
      cases hstep
      exact hsound.of_system (Store.grown_reference _ key) nofun fun nudge hmem =>
        List.mem_singleton.mp hmem
  | act index act =>
      obtain ⟨system, hsystem, rfl⟩ := Option.map_eq_some_iff.mp hstep
      simp only [System.step?, Option.bind_eq_bind, Option.bind_eq_some_iff,
        Option.some.injEq] at hsystem
      obtain ⟨reference, -, ⟨store, stage⟩, hperform, rfl⟩ := hsystem
      have hcalm := Store.calm_perform? hperform
      exact hsound.of_system hcalm.toGrown (fun _ => hcalm) nofun
  | undo index =>
      obtain ⟨system, hsystem, rfl⟩ := Option.map_eq_some_iff.mp hstep
      simp only [System.step?, Option.bind_eq_bind, Option.bind_eq_some_iff] at hsystem
      obtain ⟨reference, hreference, hsystem⟩ := hsystem
      split at hsystem
      next =>
        cases hsystem
        refine hsound.of_system ⟨Nat.le_refl _, rfl, rfl⟩ ?_ ?_
        · intro hnone
          apply Store.calm_unreference
          apply eq_false_of_ne_true
          intro hlast
          simp [System.nudges, hreference, hlast] at hnone
        · intro nudge hmem
          simp only [System.nudges, hreference] at hmem
          split at hmem
          next => exact List.mem_singleton.mp hmem
          next => cases hmem
      next => cases hsystem
  | look | evict => cases hstep

theorem of_nudges (hsound : before.Sound) {nudges : List Nudge} {missed : Bool}
    (halone : before.phase.holds = true → ∀ nudge ∈ nudges, nudge.holds = false)
    (hleft : .leaving ∈ nudges → .leaving ∈ before.nudges)
    (hmissed : before.missed = true → missed = true)
    (hsettled : (missed = true ∨ ∃ nudge ∈ nudges, nudge.isPending = true) ∨
      before.phase.Settled before.system.store before.stalled) :
    ({ before with nudges, missed } : Vigil κ).Sound where
  watermarks := hsound.watermarks
  alone := halone
  left := fun hmem => (hsound.left (hleft hmem)).imp_right fun hwaits => ⟨hwaits.1, hmissed hwaits.2⟩
  warranted := hsound.warranted
  settled := hsettled

theorem of_set (hsound : before.Sound) {index : Nat} {nudge next : Nudge}
    (hat : before.nudges[index]? = some nudge) (hpending : next.isPending = true)
    (hfree : next.holds = true → before.phase.holds = false) :
    ({ before with nudges := before.nudges.set index next } : Vigil κ).Sound := by
  refine hsound.of_nudges ?_ ?_ (fun hmissed => hmissed)
    (.inl (.inr ⟨next, mem_set_self hat next, hpending⟩))
  · intro hholds other hother
    rcases List.mem_or_eq_of_mem_set hother with hold | rfl
    · exact hsound.alone hholds other hold
    · exact eq_false_of_ne_true fun hnext => Bool.eq_false_iff.mp (hfree hnext) hholds
  · intro hleft
    rcases List.mem_or_eq_of_mem_set hleft with hold | hnew
    · exact hold
    · rw [← hnew] at hpending
      cases hpending

theorem of_erase (hsound : before.Sound) (index : Nat) {missed : Bool}
    (hmissed : before.missed = true → missed = true)
    (hsettled : (missed = true ∨ ∃ nudge ∈ before.nudges.eraseIdx index, nudge.isPending = true) ∨
      before.phase.Settled before.system.store before.stalled) :
    ({ before with nudges := before.nudges.eraseIdx index, missed } : Vigil κ).Sound :=
  hsound.of_nudges
    (fun hholds nudge hmem => hsound.alone hholds nudge (List.mem_of_mem_eraseIdx hmem))
    List.mem_of_mem_eraseIdx hmissed hsettled

/-- Whoever finds the evictor's lock taken by another that is to wake it can leave that to him. -/
theorem settled_of_isTaken (hsound : before.Sound) {index : Nat}
    (hat : before.nudges[index]? = some .trying) (htaken : before.isTaken = true) :
    (before.missed = true ∨
      ∃ nudge ∈ before.nudges.eraseIdx index, nudge.isPending = true) ∨
        before.phase.Settled before.system.store before.stalled := by
  obtain ⟨holder, hholder, hholds⟩ := List.any_eq_true.mp htaken
  have hkept : holder ∈ before.nudges.eraseIdx index := by
    refine mem_eraseIdx_of_ne hat hholder ?_
    rintro rfl
    cases hholds
  cases holder with
  | comparing | trying => cases hholds
  | notifying => exact .inl (.inr ⟨.notifying, hkept, rfl⟩)
  | leaving =>
      -- He has signalled already. Either that woke the evictor, or it was missed.
      rcases hsound.left hholder with hwaking | ⟨-, hmissed⟩
      · rw [hwaking]
        exact .inr trivial
      · exact .inl (.inl hmissed)

theorem nudge (hsound : before.Sound) {index : Nat} (hstep : before.nudge? index = some after) :
    after.Sound := by
  obtain ⟨nudge, hat, hstep⟩ := Option.bind_eq_some_iff.mp hstep
  cases nudge with
  | comparing =>
      dsimp only at hstep
      split at hstep
      next hoverfull =>
        cases hstep
        exact hsound.of_set hat rfl nofun
      next hfits =>
        cases hstep
        exact hsound.of_erase index (fun hmissed => hmissed)
          (.inr (hsound.warranted.settled (eq_false_of_ne_true hfits)))
  | trying =>
      dsimp only at hstep
      split at hstep
      next htaken =>
        cases hstep
        refine hsound.of_erase index (fun hmissed => by rw [hmissed]; rfl) ?_
        cases hholds : before.phase.holds with
        | true =>
            -- The evictor may have come past what has changed.
            exact .inl (.inl (Bool.or_true _))
        | false =>
            rw [hholds, Bool.false_or] at htaken
            rw [Bool.or_false]
            exact hsound.settled_of_isTaken hat htaken
      next hfree =>
        cases hstep
        refine hsound.of_set hat rfl fun _ => eq_false_of_ne_true fun hholds => hfree ?_
        rw [hholds]
        rfl
  | notifying =>
      have hidle : before.phase.holds = false := by
        apply eq_false_of_ne_true
        intro hholds
        cases hsound.alone hholds _ (List.mem_of_getElem? hat)
      dsimp only at hstep
      split at hstep
      next hparked =>
        cases hstep
        exact ⟨hsound.watermarks, nofun, fun _ => .inl rfl, trivial, .inr trivial⟩
      next hawake =>
        cases hstep
        refine ⟨hsound.watermarks, fun hholds => absurd hholds (Bool.eq_false_iff.mp hidle),
          fun _ => ?_, hsound.warranted, .inl (.inl rfl)⟩
        cases hphase : before.phase with
        | locking => exact .inr ⟨rfl, rfl⟩
        | waking => exact .inl rfl
        | parked => exact absurd hphase hawake
        | _ =>
            rw [hphase] at hidle
            cases hidle
  | leaving =>
      cases hstep
      refine hsound.of_erase index (fun hmissed => hmissed) (hsound.settled.imp_left fun hexcused =>
        hexcused.imp_right fun ⟨other, hother, hpending⟩ => ⟨other, ?_, hpending⟩)
      refine mem_eraseIdx_of_ne hat hother ?_
      rintro rfl
      cases hpending

theorem of_phase (halone : ∀ nudge ∈ before.nudges, nudge.holds = false)
    {store : Store κ} {phase : Phase κ} {missed stalled : Bool} {cursor : List κ}
    (hwatermarks : store.lowWatermark ≤ store.highWatermark) (hwarranted : phase.Warranted store)
    (hsettled : (missed = true ∨ ∃ nudge ∈ before.nudges, nudge.isPending = true) ∨
      phase.Settled store stalled) :
    ({ before with
      system := { before.system with store }, phase, missed, stalled, cursor } : Vigil κ).Sound where
  watermarks := hwatermarks
  alone := fun _ => halone
  left := fun hmem => nomatch halone _ hmem
  warranted := hwarranted
  settled := hsettled

theorem sweep (hsound : before.Sound) {progress : Progress κ}
    (hphase : before.phase = .sweeping progress) (hstep : before.sweep? progress = some after) :
    after.Sound := by
  have halone := hsound.alone (by rw [hphase]; rfl)
  have hwarranted := hsound.warranted
  have hsettled := hsound.settled
  rw [hphase] at hwarranted hsettled
  unfold sweep? at hstep
  split at hstep
  next hdone =>
    cases hstep
    refine of_phase halone hsound.watermarks trivial (.inr fun hnone => ?_)
    -- A round has more to remove as long as it has removed nothing.
    have hleft := (hwarranted hnone).2
    omega
  next =>
    split at hstep
    next key cursor hcursor =>
      cases hstep
      have hgrown := before.system.store.grown_clearAccessed key
      refine of_phase halone ?_ (hwarranted.look hgrown)
        (hsettled.imp_right fun hsettled => hsettled.look hcursor)
      rw [hgrown.lowWatermark_eq, hgrown.highWatermark_eq]
      exact hsound.watermarks
    next hcursor =>
      split at hstep
      next hrefills =>
        cases hstep
        exact of_phase halone hsound.watermarks trivial
          (hsettled.imp_right fun hsettled => hsettled.exhaust hcursor hrefills)
      next => cases hstep

theorem judge (hsound : before.Sound) {key : κ} {progress : Progress κ}
    (hphase : before.phase = .judging key progress) : (before.judge key progress).Sound := by
  have halone := hsound.alone (by rw [hphase]; rfl)
  have hwarranted := hsound.warranted
  have hsettled := hsound.settled
  rw [hphase] at hwarranted hsettled
  unfold Vigil.judge
  dsimp only
  cases hdropped : (before.system.store.removeIdle key).1 with
  | true =>
      obtain ⟨hlow, hhigh⟩ := before.system.store.removeIdle_watermarks key
      refine of_phase halone ?_ nofun (.inr nofun)
      rw [hlow, hhigh]
      exact hsound.watermarks
  | false =>
      obtain ⟨hsame, hspared⟩ := Store.removeIdle_spared hdropped
      rw [hsame]
      exact of_phase halone hsound.watermarks hwarranted
        (hsettled.imp_right fun hsettled => hsettled.spare hspared)

theorem turn (hsound : before.Sound) (hstep : before.turn? = some after) : after.Sound := by
  have halone := hsound.alone
  have hsettled := hsound.settled
  have hwarranted := hsound.warranted
  unfold turn? at hstep
  dsimp only at hstep
  cases hphase : before.phase with
  | locking =>
      simp only [hphase] at hstep hsettled
      split at hstep
      next => cases hstep
      next htaken =>
        cases hstep
        exact of_phase (holds_eq_false htaken) hsound.watermarks trivial hsettled
  | entered =>
      simp only [hphase] at hstep hsettled halone
      cases hstep
      cases hstalled : before.stalled with
      | true =>
          exact of_phase (halone rfl) hsound.watermarks trivial
            (hsettled.imp_right fun hsettled => hsettled hstalled)
      | false => exact of_phase (halone rfl) hsound.watermarks trivial (.inr trivial)
  | parked =>
      simp only [hphase] at hstep
      cases hstep
  | waking =>
      simp only [hphase] at hstep
      split at hstep
      next => cases hstep
      next htaken =>
        cases hstep
        exact of_phase (holds_eq_false htaken) hsound.watermarks trivial (.inr trivial)
  | checking =>
      simp only [hphase] at hstep halone
      cases hstep
      cases hoverfull : before.system.store.isOverfull with
      | true => exact of_phase (halone rfl) hsound.watermarks hoverfull (.inr trivial)
      | false =>
          exact of_phase (halone rfl) hsound.watermarks trivial (.inr (.inl hoverfull))
  | resting =>
      simp only [hphase] at hstep hsettled halone
      cases hstep
      exact of_phase (halone rfl) hsound.watermarks trivial hsettled
  | aiming =>
      simp only [hphase] at hstep hwarranted halone
      cases hstep
      have hoverfull : before.system.store.isOverfull = true := hwarranted
      refine of_phase (halone rfl) hsound.watermarks (fun _ => ⟨hoverfull, ?_⟩)
        (.inr fun _ key used _ => Phase.due_start _ _ key used)
      have hle := hsound.watermarks
      have hlt := of_decide_eq_true hoverfull
      dsimp only
      omega
  | sweeping progress =>
      simp only [hphase] at hstep
      exact hsound.sweep hphase hstep
  | judging key progress =>
      simp only [hphase] at hstep
      cases hstep
      exact hsound.judge hphase
  | ending progress =>
      simp only [hphase] at hstep hsettled halone
      cases hstep
      exact of_phase (halone rfl) hsound.watermarks trivial
        (hsettled.imp_right fun hsettled hstalled => hsettled (of_decide_eq_true hstalled))

theorem refill (hsound : before.Sound) {keys : List κ} (hstep : before.refill? keys = some after) :
    after.Sound := by
  have hsettled := hsound.settled
  have hwarranted := hsound.warranted
  unfold refill? at hstep
  split at hstep
  next progress hphase =>
    have halone := hsound.alone (by rw [hphase]; rfl)
    rw [hphase] at hwarranted hsettled
    split at hstep
    next hguard =>
      obtain ⟨-, hcursor, -, hkeys⟩ := hguard
      cases hstep
      refine of_phase halone hsound.watermarks ?_
        (hsettled.imp_right fun hsettled => hsettled.refill hcursor hkeys)
      split
      next => trivial
      next => exact hwarranted
    next => cases hstep
  next => cases hstep

theorem step (hsound : before.Sound) {event : Event κ} (hstep : before.step? event = some after) :
    after.Sound := by
  cases event with
  | caller event => exact hsound.caller hstep
  | nudge index => exact hsound.nudge hstep
  | turn => exact hsound.turn hstep
  | refill keys => exact hsound.refill hstep
  | rouse =>
      rw [step?] at hstep
      split at hstep
      next =>
        cases hstep
        refine ⟨hsound.watermarks, fun hholds => ?_, fun _ => .inl rfl, trivial, .inr trivial⟩
        cases hholds
      next => cases hstep

end Sound

theorem Reaches.sound {lowWatermark highWatermark : Nat} (hle : lowWatermark ≤ highWatermark)
    {vigil : Vigil κ} (hreaches : Reaches (start lowWatermark highWatermark) vigil) : vigil.Sound :=
  hreaches.invariant Sound (sound_start hle) fun hsound _ hstep => hsound.step hstep

/-- An evictor that is left asleep, with nobody about to wake it, has nothing to do, unless somebody
came to wake it since it last looked at the size of the pool and found it at work. -/
theorem rested_of_parked {lowWatermark highWatermark : Nat} (hle : lowWatermark ≤ highWatermark)
    {vigil : Vigil κ} (hreaches : Reaches (start lowWatermark highWatermark) vigil)
    (hparked : vigil.phase = .parked) (hnobody : vigil.nudges = [])
    (hnever : vigil.missed = false) : vigil.system.store.Rested := by
  have hsettled := (hreaches.sound hle).settled
  rw [hparked] at hsettled
  rcases hsettled with (hmissed | ⟨nudge, hmem, -⟩) | hrested
  · rw [hnever] at hmissed
    cases hmissed
  · rw [hnobody] at hmem
    cases hmem
  · exact hrested

/-- Two callers get a lock each, which makes the pool overfull. -/
def crowd : List (Event Nat) :=
  [.caller (.get 1 .read), .nudge 0, .caller (.act 0 .grant), .caller (.get 2 .read), .nudge 0,
    .nudge 0, .nudge 0, .nudge 0, .caller (.act 1 .grant)]

/-- A pass over both keys. -/
def lap : List (Event Nat) := .refill [1, 2] :: List.replicate 4 .turn

/-- The evictor goes over the keys of guards three times in vain, and back to sleep. -/
def vain : List (Event Nat) :=
  crowd ++ List.replicate 4 .turn ++ lap ++ lap ++ lap ++ List.replicate 4 .turn

theorem rested_of_vain : ∃ vigil : Vigil Nat, run? vain (start 1 1) = some vigil ∧
    vigil.phase = .parked ∧ vigil.system.store.size = 2 ∧ vigil.system.store.Rested := by
  have hruns : (run? vain (start 1 1)).map (fun vigil =>
      (vigil.phase, vigil.nudges, vigil.missed, vigil.system.store.size)) =
        some (.parked, [], false, 2) := by decide
  obtain ⟨vigil, hrun, hends⟩ := Option.map_eq_some_iff.mp hruns
  obtain ⟨hparked, hnobody, hnever, hsize⟩ : vigil.phase = .parked ∧ vigil.nudges = [] ∧
      vigil.missed = false ∧ vigil.system.store.size = 2 := by simpa using hends
  have hrested := rested_of_parked (by decide) (Runs.reaches_of_run? hrun) hparked hnobody hnever
  exact ⟨vigil, hrun, hparked, hsize, hrested⟩

/-- The last guard of a key ends when the evictor has come past the key for the last time. Its holder
finds the evictor's lock taken, and the evictor goes to sleep. -/
def dozing : List (Event Nat) :=
  crowd ++ List.replicate 4 .turn ++ lap ++ lap ++ [.refill [1, 2], .turn, .turn] ++
    [.caller (.act 0 .drop), .caller (.undo 0), .nudge 0, .nudge 0] ++ List.replicate 6 .turn

/-- An evictor may be left asleep with an entry to remove. -/
theorem not_rested_of_dozing : ¬ ∀ vigil : Vigil Nat, Reaches (start 1 1) vigil →
    vigil.phase = .parked → vigil.nudges = [] → vigil.system.store.Rested := by
  intro hrested
  have hruns : (run? dozing (start 1 1)).map (fun vigil => (vigil.phase, vigil.nudges,
      vigil.system.store.isOverfull, vigil.system.store.idle? 1)) =
        some (.parked, [], true, some false) := by decide
  obtain ⟨vigil, hrun, hends⟩ := Option.map_eq_some_iff.mp hruns
  obtain ⟨hparked, hnobody, hoverfull, hidle⟩ : vigil.phase = .parked ∧ vigil.nudges = [] ∧
      vigil.system.store.isOverfull = true ∧ vigil.system.store.idle? 1 = some false := by
    simpa using hends
  rcases hrested vigil (Runs.reaches_of_run? hrun) hparked hnobody with hfits | hnone
  · rw [hoverfull] at hfits
    cases hfits
  · rw [hnone 1] at hidle
    cases hidle

end Vigil

end Pooling.LockPool
