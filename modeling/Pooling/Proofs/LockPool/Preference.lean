import Pooling.Proofs.LockPool.Culling

/-!
Which idle entries of a lock pool a round takes first that starts with no keys left over: those not
used again since the evictor last came to them.
-/

namespace Pooling.LockPool

variable {κ : Type} [DecidableEq κ]

namespace Store

/-- The keys whose entries nobody refers to, and nobody used again. -/
def unused (store : Store κ) : List κ :=
  store.keys.keys.filter fun key => store.idle? key = some false

/-- Whether the entry of a key was used again since the evictor last came to it. -/
def Marked (store : Store κ) (key : κ) : Prop :=
  (store.entryOf? key).map Entry.accessed = some true

theorem mem_unused_iff {store : Store κ} {key : κ} :
    key ∈ store.unused ↔ store.idle? key = some false := by
  rw [unused, List.mem_filter, decide_eq_true_eq]
  exact ⟨fun hboth => hboth.2, fun hidle => ⟨mem_keys_of_idle? hidle, hidle⟩⟩

theorem not_marked_of_mem_unused {store : Store κ} {key : κ} (hunused : key ∈ store.unused) :
    ¬ store.Marked key := by
  obtain ⟨entry, hentry, -, hclear⟩ := exists_entryOf? (mem_unused_iff.mp hunused)
  rw [Marked, hentry, Option.map_some, hclear]
  intro heq
  cases heq

theorem Marked.mem_keys {store : Store κ} {key : κ} (hmarked : store.Marked key) :
    key ∈ store.keys.keys := by
  obtain ⟨entry, hentry, -⟩ := Option.map_eq_some_iff.mp hmarked
  exact mem_keys_of_entryOf? hentry

/-- Looking at a key takes the mark off its entry, and no other. -/
theorem Formed.marked_clearAccessed {store : Store κ} (hformed : store.Formed) (key other : κ) :
    (store.clearAccessed key).2.Marked other ↔ store.Marked other ∧ other ≠ key := by
  rw [Marked, hformed.entryOf?_clearAccessed]
  by_cases heq : other = key
  · subst heq
    cases store.entryOf? other <;> simp [Entry.unmarked]
  · rw [if_neg heq]
    exact ⟨fun hmarked => ⟨hmarked, heq⟩, fun hboth => hboth.1⟩

/-- A round that removes entries used again has removed all others that it could, and removes none
of them if the others are enough. -/
structure Prefers (before : Store κ) (target : Nat) (after : Store κ) : Prop where
  unused_first : ∀ used, before.Marked used → after.lookup? used = none →
    ∀ key ∈ before.unused, after.lookup? key = none
  spared : target ≤ before.unused.length → ∀ used, before.Marked used →
    after.lookup? used = before.lookup? used

end Store

/-- How far a round has come in its preference for entries not used again. -/
structure Preferring (base store : Store κ) (refills : Nat) (ahead : List κ) : Prop where
  formed : store.Formed
  start : refills = 0 → store = base ∧ ahead = []
  -- In the first pass the keys ahead are as they were, and only unused keys are gone.
  nodup : ahead.Nodup
  untouched : refills = 1 → ∀ key ∈ ahead, store.entryOf? key = base.entryOf? key
  kept : refills = 1 → ∀ key, key ∉ base.unused → store.lookup? key = base.lookup? key
  -- What the first pass has come past has no mark, and if it was unused it is gone.
  marked : 1 ≤ refills → ∀ key, store.Marked key → refills = 1 ∧ key ∈ ahead
  unused : 1 ≤ refills → ∀ key ∈ base.unused, (store.lookup? key).isSome →
    refills = 1 ∧ key ∈ ahead

/-- The preference of a round at each of its phases. -/
def Phase.Prefers (base store : Store κ) : Phase κ → Prop
  | sweeping progress => Preferring base store progress.refills progress.cursor
  | judging key progress =>
      Preferring base store progress.refills (key :: progress.cursor) ∧ ¬ store.Marked key
  | ending progress => Preferring base store progress.refills progress.cursor
  | _ => False

namespace Preferring

open Store

variable {base store after : Store κ} {refills : Nat} {key : κ} {cursor : List κ}

/-- Looking at a key whose entry has no mark changes nothing. -/
theorem look (hpreferring : Preferring base store refills (key :: cursor))
    (hclear : ¬ store.Marked key) :
    Preferring base (store.clearAccessed key).2 refills (key :: cursor) := by
  have hformed := hpreferring.formed
  have hentry : ∀ other, (store.clearAccessed key).2.entryOf? other = store.entryOf? other := by
    intro other
    rw [hformed.entryOf?_clearAccessed]
    split
    next heq =>
      rw [heq]
      rw [Marked] at hclear
      cases hfound : store.entryOf? key with
      | none => rfl
      | some entry =>
          rw [hfound, Option.map_some, Option.some.injEq, Bool.not_eq_true] at hclear
          rw [Option.map_some, Entry.unmarked, ← hclear]
    next => rfl
  refine ⟨hformed.clearAccessed key, ?_, hpreferring.nodup, ?_, ?_, ?_, ?_⟩
  · intro hzero
    cases (hpreferring.start hzero).2
  · intro hone other hmem
    rw [hentry]
    exact hpreferring.untouched hone other hmem
  · intro hone other hused
    rw [lookup?_clearAccessed]
    exact hpreferring.kept hone other hused
  · intro hpos other hmarked
    rw [Marked, hentry] at hmarked
    exact hpreferring.marked hpos other hmarked
  · intro hpos other hunused hsome
    rw [lookup?_clearAccessed] at hsome
    exact hpreferring.unused hpos other hunused hsome

theorem refills_pos (hpreferring : Preferring base store refills (key :: cursor)) :
    1 ≤ refills := by
  rcases Nat.eq_zero_or_pos refills with hzero | hpos
  · cases (hpreferring.start hzero).2
  · exact hpos

theorem idle?_eq (hpreferring : Preferring base store refills (key :: cursor))
    (hone : refills = 1) : store.idle? key = base.idle? key := by
  have hsame := hpreferring.untouched hone key List.mem_cons_self
  rw [idle?, ← entryOf?, hsame]
  rfl

/-- The pass comes past no unused key without dropping it. -/
theorem lookup_eq_none (hpreferring : Preferring base store refills (key :: cursor))
    (hbusy : store.idle? key ≠ some false) (hunused : key ∈ base.unused) :
    store.lookup? key = none := by
  refine Option.not_isSome_iff_eq_none.mp fun hsome => hbusy ?_
  obtain ⟨hone, -⟩ := hpreferring.unused hpreferring.refills_pos key hunused hsome
  rw [hpreferring.idle?_eq hone]
  exact mem_unused_iff.mp hunused

/-- The pass has come past a key, whatever it did to that. -/
theorem past (hpreferring : Preferring base store refills (key :: cursor)) (hformed : after.Formed)
    (hentry : ∀ other, other ≠ key → after.entryOf? other = store.entryOf? other)
    (hlookup : ∀ other, other ≠ key → after.lookup? other = store.lookup? other)
    (hkept : refills = 1 → key ∉ base.unused → after.lookup? key = store.lookup? key)
    (hclear : ¬ after.Marked key) (hunused : key ∈ base.unused → after.lookup? key = none) :
    Preferring base after refills cursor := by
  obtain ⟨hfresh, hnodup⟩ := List.nodup_cons.mp hpreferring.nodup
  have hpos := hpreferring.refills_pos
  refine ⟨hformed, ?start, hnodup, ?untouched, ?kept, ?marked, ?unused⟩
  case start =>
    intro hzero
    rw [hzero] at hpos
    cases hpos
  case untouched =>
    intro hone other hmem
    have hne : other ≠ key := fun heq => hfresh (heq ▸ hmem)
    rw [hentry other hne]
    exact hpreferring.untouched hone other (List.mem_cons_of_mem key hmem)
  case kept =>
    intro hone other hused
    rw [← hpreferring.kept hone other hused]
    by_cases heq : other = key
    · subst heq
      exact hkept hone hused
    · exact hlookup other heq
  case marked =>
    intro _ other hmarked
    have hne : other ≠ key := fun heq => hclear (heq ▸ hmarked)
    rw [Marked, hentry other hne] at hmarked
    obtain ⟨hone, hmem⟩ := hpreferring.marked hpos other hmarked
    exact ⟨hone, (List.mem_cons.mp hmem).resolve_left hne⟩
  case unused =>
    intro _ other hother hsome
    have hne : other ≠ key := by
      rintro rfl
      rw [hunused hother] at hsome
      cases hsome
    rw [hlookup other hne] at hsome
    obtain ⟨hone, hmem⟩ := hpreferring.unused hpos other hother hsome
    exact ⟨hone, (List.mem_cons.mp hmem).resolve_left hne⟩

theorem pass (hpreferring : Preferring base store refills (key :: cursor))
    (hbusy : store.idle? key ≠ some false) :
    Preferring base (store.clearAccessed key).2 refills cursor := by
  have hformed := hpreferring.formed
  refine hpreferring.past (hformed.clearAccessed key) ?_
    (fun other _ => lookup?_clearAccessed store key other)
    (fun _ _ => lookup?_clearAccessed store key key) ?_ fun hunused => ?_
  · intro other hne
    rw [hformed.entryOf?_clearAccessed, if_neg hne]
  · rw [Marked, hformed.entryOf?_clearAccessed, if_pos rfl]
    cases store.entryOf? key <;> simp [Entry.unmarked]
  · rw [lookup?_clearAccessed]
    exact hpreferring.lookup_eq_none hbusy hunused

theorem drop (hpreferring : Preferring base store refills (key :: cursor))
    (hidle : store.idle? key = some false) :
    Preferring base (store.removeIdle key).2 refills cursor := by
  have hformed := hpreferring.formed
  have hgone : (store.removeIdle key).2.lookup? key = none :=
    (lookup?_removeIdle hidle key).trans (if_pos rfl)
  refine hpreferring.past (hformed.removeIdle hidle) ?_ ?_ ?_ ?_ fun _ => hgone
  · intro other hne
    rw [hformed.entryOf?_removeIdle hidle, if_neg hne]
  · intro other hne
    rw [lookup?_removeIdle hidle, if_neg hne]
  · intro hone hused
    rw [hpreferring.idle?_eq hone] at hidle
    exact absurd (mem_unused_iff.mpr hidle) hused
  · rw [Marked, entryOf?_of_none hgone, Option.map_none]
    intro heq
    cases heq

theorem list (hpreferring : Preferring base store refills []) {keys : List κ}
    (hkeys : keys.Perm store.keys.keys) : Preferring base store (refills + 1) keys := by
  have hlisted : ∀ {other}, (store.lookup? other).isSome → other ∈ keys := fun hsome =>
    hkeys.mem_iff.mpr (mem_keys_iff.mpr hsome)
  refine ⟨hpreferring.formed, fun hzero => absurd hzero (Nat.succ_ne_zero _),
    hkeys.nodup_iff.mpr hpreferring.formed.nodup_keys, ?_, ?_, ?_, ?_⟩
  · intro hone other _
    rw [(hpreferring.start (Nat.succ.inj hone)).1]
  · intro hone other _
    rw [(hpreferring.start (Nat.succ.inj hone)).1]
  · intro _ other hmarked
    rcases Nat.eq_zero_or_pos refills with hzero | hpos
    · exact ⟨congrArg (· + 1) hzero, hlisted (mem_keys_iff.mp hmarked.mem_keys)⟩
    · cases (hpreferring.marked hpos other hmarked).2
  · intro _ other hunused hsome
    rcases Nat.eq_zero_or_pos refills with hzero | hpos
    · exact ⟨congrArg (· + 1) hzero, hlisted hsome⟩
    · cases (hpreferring.unused hpos other hunused hsome).2

theorem prefers {target : Nat} {progress : Progress κ} {ahead : List κ} (hbase : base.Formed)
    (hpreferring : Preferring base store refills cursor)
    (hculling : Culling base target store progress ahead) : base.Prefers target store := by
  have hfirst : ∀ used, base.Marked used → store.lookup? used = none →
      ∀ key ∈ base.unused, store.lookup? key = none := by
    intro used hmarked hgone key hunused
    have hmem := hmarked.mem_keys
    rw [mem_keys_iff] at hmem
    refine Option.not_isSome_iff_eq_none.mp fun hsome => ?_
    rcases Nat.eq_zero_or_pos refills with hzero | hpos
    · rw [← (hpreferring.start hzero).1, hgone] at hmem
      cases hmem
    · obtain ⟨hone, -⟩ := hpreferring.unused hpos key hunused hsome
      have hused : used ∉ base.unused := fun hmem => not_marked_of_mem_unused hmem hmarked
      rw [← hpreferring.kept hone used hused, hgone] at hmem
      cases hmem
  refine ⟨hfirst, fun henough used hmarked => ?_⟩
  cases hlookup : store.lookup? used with
  | some id => exact (hculling.culled.lookup_eq used id hlookup).symm
  | none =>
      -- With it and all unused entries gone, more would be gone than were to go.
      have hnodup : (used :: base.unused).Nodup :=
        List.nodup_cons.mpr ⟨fun hmem => not_marked_of_mem_unused hmem hmarked,
          hbase.nodup_keys.filter _⟩
      have hlength := hculling.culled.length_le hnodup (by
        intro key hmem
        rcases List.mem_cons.mp hmem with rfl | hmem
        · exact ⟨hmarked.mem_keys, hlookup⟩
        · exact ⟨mem_keys_of_idle? (mem_unused_iff.mp hmem),
            hfirst used hmarked hlookup key hmem⟩)
      have htarget := hculling.target_eq
      rw [List.length_cons] at hlength
      omega

end Preferring

namespace Vigil

open Store

variable {base store after : Store κ} {event : Event κ} {phase next : Phase κ}

theorem Strode.prefers (hstrode : Strode store event phase after next)
    (hperm : ∀ keys, event = .refill keys → keys.Perm store.keys.keys)
    (hprefers : phase.Prefers base store) : next.Prefers base after := by
  cases hstrode with
  | ended hdone => exact hprefers
  | @passed progress key cursor hleft hcursor hpassed =>
      simp only [Phase.Prefers, hcursor] at hprefers
      refine hprefers.pass fun hidle => hpassed ?_
      obtain ⟨entry, hentry, -, hclear⟩ := exists_entryOf? hidle
      rw [hentry, Option.map_some, hclear]
  | @found progress key cursor hleft hcursor hfound =>
      simp only [Phase.Prefers, hcursor] at hprefers
      have hclear : ¬ store.Marked key := by
        rw [Marked, hfound]
        intro heq
        cases heq
      refine ⟨hprefers.look hclear, fun hmarked => ?_⟩
      exact ((hprefers.formed.marked_clearAccessed key key).mp hmarked).2 rfl
  | dropped hidle => exact hprefers.1.drop hidle
  | spared hbusy =>
      obtain ⟨hpreferring, hclear⟩ := hprefers
      exact hpreferring.past hpreferring.formed (fun _ _ => rfl) (fun _ _ => rfl) (fun _ _ => rfl)
        hclear (hpreferring.lookup_eq_none hbusy)
  | @listed progress keys hleft hcursor hrefills hkeys =>
      simp only [Phase.Prefers, hcursor] at hprefers
      exact hprefers.list (hperm keys rfl)
  | @bare progress hleft hcursor hrefills hnone =>
      simp only [Phase.Prefers, hcursor] at hprefers
      exact hprefers.list (hnone ▸ .refl [])

theorem prefers_start (hformed : store.Formed) (target : Nat) :
    (Phase.sweeping { left := target, cursor := [] }).Prefers store store where
  formed := hformed
  start := fun _ => ⟨rfl, rfl⟩
  nodup := List.nodup_nil
  untouched := fun hone => absurd hone Nat.zero_ne_one
  kept := fun hone => absurd hone Nat.zero_ne_one
  marked := fun hrefills => absurd hrefills (Nat.not_succ_le_zero _)
  unused := fun hrefills => absurd hrefills (Nat.not_succ_le_zero _)

theorem prefers_of_phase {target : Nat} (hbase : base.Formed)
    (hculls : phase.Culls base target store) (hprefers : phase.Prefers base store) :
    base.Prefers target store := by
  cases phase with
  | sweeping => exact hprefers.prefers hbase hculls
  | judging => exact hprefers.1.prefers hbase hculls.1
  | ending => exact hprefers.prefers hbase hculls.1
  | _ => exact hculls.elim

/-- No entry has a mark that a pass over all keys has come past. -/
theorem not_marked_of_phase (hprefers : phase.Prefers base store) {progress : Progress κ}
    (hprogress : phase.progress? = some progress)
    (hpast : 1 ≤ progress.refills ∧ phase.ahead = [] ∨ 2 ≤ progress.refills) (key : κ) :
    ¬ store.Marked key := by
  intro hmarked
  have hahead : progress.refills = 1 ∧ key ∈ phase.ahead := by
    cases phase with
    | sweeping | ending =>
        cases hprogress
        exact hprefers.marked (by omega) key hmarked
    | judging =>
        cases hprogress
        exact hprefers.1.marked (by omega) key hmarked
    | _ => exact hprefers.elim
  obtain ⟨hone, hmem⟩ := hahead
  rcases hpast with ⟨-, hnone⟩ | htwo
  · rw [hnone] at hmem
    cases hmem
  · omega

/-- A round with no keys left over to start from goes for the entries first that were not used
again, in whatever order it lists the keys; one that was used again is spared for that once. -/
theorem prefers_of_formed {store : Store κ} (hformed : store.Formed) (target : Nat) :
    (∀ vigil later : Vigil κ, vigil.system.store = store →
      vigil.phase = .sweeping { left := target, cursor := [] } →
      Runs.Reaches step? undisturbed vigil later →
      store.Prefers target later.system.store ∧
        ∀ progress, later.phase.progress? = some progress →
          1 ≤ progress.refills ∧ later.phase.ahead = [] ∨ 2 ≤ progress.refills →
          ∀ key, ¬ later.system.store.Marked key) ∧
    ∀ (order : Store κ → List κ) (stalled : Bool),
      (∀ store, (order store).Perm store.keys.keys) →
      store.Prefers target (Evictor.evict order target ⟨[], stalled⟩ store).2.2 := by
  have hround : ∀ vigil later : Vigil κ, vigil.system.store = store →
      vigil.phase = .sweeping { left := target, cursor := [] } →
      Runs.Reaches step? undisturbed vigil later →
      later.phase.Culls store target later.system.store ∧
        later.phase.Prefers store later.system.store := by
    intro vigil later hstore hphase hreaches
    constructor
    · refine culls_of_reaches hreaches ?_
      rw [hstore, hphase]
      exact culls_start hformed target []
    · refine holds_of_undisturbed (fun later phase => phase.Prefers store later)
        (fun hstrode => hstrode.prefers) hreaches ?_
      rw [hstore, hphase]
      exact prefers_start hformed target
  constructor
  case left =>
    intro vigil later hstore hphase hreaches
    obtain ⟨hculls, hprefers⟩ := hround vigil later hstore hphase hreaches
    exact ⟨prefers_of_phase hformed hculls hprefers, fun progress => not_marked_of_phase hprefers⟩
  case right =>
    intro order stalled hperm
    obtain ⟨refills, hreaches⟩ := reaches_evict hperm target ⟨[], stalled⟩ store
    obtain ⟨hculls, hprefers⟩ := hround _ _ rfl rfl hreaches
    exact prefers_of_phase hformed hculls hprefers

/-- One entry is to go, and one idle entry was not used again, so the idle ones that were stay. -/
theorem prefers_of_mixed : ∃ system : System Nat,
    System.run? mixed (System.start 1 2) = some system ∧ system.store.unused = [2] ∧
      system.store.Formed ∧ system.store.Marked 1 ∧ system.store.Marked 3 ∧
      (∀ later, Runs.Reaches step? undisturbed
          (amid system.store (.sweeping { left := 1, cursor := [] })) later →
        later.system.store.lookup? 1 = system.store.lookup? 1) ∧
      ∀ order : Store Nat → List Nat, (∀ store, (order store).Perm store.keys.keys) →
        (Evictor.evict order 1 ⟨[], false⟩ system.store).2.2.lookup? 3 =
          system.store.lookup? 3 := by
  let shown (system : System Nat) := (system.store.unused,
    (system.store.entryOf? 1).map Entry.accessed, (system.store.entryOf? 3).map Entry.accessed)
  have hruns : (System.run? mixed (System.start 1 2)).map shown =
      some ([2], some true, some true) := by decide
  obtain ⟨system, hrun, hshown⟩ := Option.map_eq_some_iff.mp hruns
  simp only [shown, Prod.mk.injEq] at hshown
  obtain ⟨hunused, hfirst, hthird⟩ := hshown
  have hformed := System.formed_of_reaches (Runs.reaches_of_run? hrun)
  have henough : 1 ≤ system.store.unused.length := by
    rw [hunused]
    decide
  obtain ⟨hrounds, hevictor⟩ := prefers_of_formed hformed 1
  refine ⟨system, hrun, hunused, hformed, hfirst, hthird, fun later hreaches => ?_,
    fun order hperm => ?_⟩
  · exact (hrounds _ later rfl rfl hreaches).1.spared henough 1 hfirst
  · exact (hevictor order false hperm).spared henough 3 hthird

end Vigil

end Pooling.LockPool
