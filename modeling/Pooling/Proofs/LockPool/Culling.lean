import Mathlib.Data.List.Perm.Subperm
import Pooling.Proofs.LockPool.Rounds

/-!
How much a round of a lock pool's evictor removes that nobody disturbs.
-/

namespace Pooling.LockPool

variable {κ : Type} [DecidableEq κ]

namespace Store

/-- What a round does that nobody disturbs: so many entries are gone, all of them idle, and of the
others it has only forgotten whether they were used again. -/
structure Culled (before after : Store κ) (removed : Nat) : Prop where
  formed : after.Formed
  size_eq : after.size + removed = before.size
  idles_eq : after.idles.length + removed = before.idles.length
  lookup_eq : ∀ key id, after.lookup? key = some id → before.lookup? key = some id
  unmarked_eq : ∀ key entry, after.entryOf? key = some entry →
    (before.entryOf? key).map Entry.unmarked = some entry.unmarked
  idle_of_gone : ∀ key entry, before.entryOf? key = some entry → after.lookup? key = none →
    entry.references = 0

namespace Culled

variable {before store after : Store κ} {removed : Nat} {key : κ}

theorem refl (hformed : store.Formed) : store.Culled store 0 where
  formed := hformed
  size_eq := rfl
  idles_eq := rfl
  lookup_eq := fun _ _ hlookup => hlookup
  unmarked_eq := fun _ _ hentry => congrArg (Option.map Entry.unmarked) hentry
  idle_of_gone := by
    intro key entry hentry hgone
    rw [entryOf?_of_none hgone] at hentry
    cases hentry

theorem look (hculled : before.Culled store removed) (key : κ) :
    before.Culled (store.clearAccessed key).2 removed where
  formed := hculled.formed.clearAccessed key
  size_eq := by
    rw [size, keys_clearAccessed]
    exact hculled.size_eq
  idles_eq := by
    rw [hculled.formed.idles_clearAccessed]
    exact hculled.idles_eq
  lookup_eq := by
    intro other id hlookup
    rw [lookup?_clearAccessed] at hlookup
    exact hculled.lookup_eq other id hlookup
  unmarked_eq := by
    intro other entry hentry
    rw [hculled.formed.entryOf?_clearAccessed] at hentry
    split at hentry
    next heq =>
      obtain ⟨old, hold, rfl⟩ := Option.map_eq_some_iff.mp hentry
      rw [heq]
      exact hculled.unmarked_eq key old hold
    next => exact hculled.unmarked_eq other entry hentry
  idle_of_gone := by
    intro other entry hentry hgone
    rw [lookup?_clearAccessed] at hgone
    exact hculled.idle_of_gone other entry hentry hgone

theorem drop (hculled : before.Culled store removed) (hidle : store.idle? key = some false) :
    before.Culled (store.removeIdle key).2 (removed + 1) where
  formed := hculled.formed.removeIdle hidle
  size_eq := by
    have hsize := size_removeIdle hidle hculled.formed.nodup_keys
    have hbefore := hculled.size_eq
    omega
  idles_eq := by
    have hidles := hculled.formed.length_idles_removeIdle hidle
    have hbefore := hculled.idles_eq
    omega
  lookup_eq := by
    intro other id hlookup
    rw [lookup?_removeIdle hidle] at hlookup
    split at hlookup
    next => cases hlookup
    next => exact hculled.lookup_eq other id hlookup
  unmarked_eq := by
    intro other entry hentry
    rw [hculled.formed.entryOf?_removeIdle hidle] at hentry
    split at hentry
    next => cases hentry
    next => exact hculled.unmarked_eq other entry hentry
  idle_of_gone := by
    intro other entry hentry hgone
    rw [lookup?_removeIdle hidle] at hgone
    split at hgone
    next heq =>
      obtain ⟨last, hlast, hzero, -⟩ := exists_entryOf? hidle
      have hsame := hculled.unmarked_eq key last hlast
      rw [← heq, hentry, Option.map_some, Option.some.injEq] at hsame
      exact (congrArg Entry.references hsame).trans hzero
    next => exact hculled.idle_of_gone other entry hentry hgone

/-- No more keys are gone than were removed. -/
theorem length_le (hculled : before.Culled after removed) {keys : List κ} (hnodup : keys.Nodup)
    (hkeys : ∀ key ∈ keys, key ∈ before.keys.keys ∧ after.lookup? key = none) :
    keys.length ≤ removed := by
  have hall : (keys ++ after.keys.keys).Nodup := by
    refine List.nodup_append.mpr ⟨hnodup, hculled.formed.nodup_keys, ?_⟩
    rintro key hmem other hother rfl
    rw [mem_keys_iff, (hkeys key hmem).2] at hother
    cases hother
  have hsubset : keys ++ after.keys.keys ⊆ before.keys.keys := by
    intro key hmem
    rcases List.mem_append.mp hmem with hmem | hmem
    · exact (hkeys key hmem).1
    · obtain ⟨id, hlookup⟩ := Option.isSome_iff_exists.mp (mem_keys_iff.mp hmem)
      rw [mem_keys_iff, hculled.lookup_eq key id hlookup]
      rfl
  have hlength := (hall.subperm hsubset).length_le
  have hsize := hculled.size_eq
  rw [List.length_append, Table.length_keys, Table.length_keys] at hlength
  simp only [size] at hsize
  omega

end Culled

/-- A store is brought down to its low watermark, or as far as the references to its entries let
it. -/
structure Lowered (before after : Store κ) : Prop where
  size_eq : after.size = max before.lowWatermark (before.size - before.idles.length)
  of_idle : (∀ key ∈ before.keys.keys, (before.idle? key).isSome) →
    after.size = before.lowWatermark

theorem Culled.lowered {before after : Store κ} {removed : Nat}
    (hculled : before.Culled after removed)
    (hremoved : removed = min (before.size - before.lowWatermark) before.idles.length)
    (hoverfull : before.isOverfull = true) (hle : before.lowWatermark ≤ before.highWatermark) :
    before.Lowered after := by
  have hlt : before.highWatermark < before.size := of_decide_eq_true hoverfull
  have hsize := hculled.size_eq
  have hlowered : after.size = max before.lowWatermark (before.size - before.idles.length) := by
    omega
  refine ⟨hlowered, fun hidle => ?_⟩
  have hall : before.idles = before.keys.keys := List.filter_eq_self.mpr hidle
  have hlength : before.idles.length = before.size := by rw [hall, Table.length_keys, size]
  omega

end Store

/-- How far a round has come that is to remove so many entries of a store, and what it has made of
the store. -/
structure Culling (base : Store κ) (target : Nat) (store : Store κ) (progress : Progress κ)
    (ahead : List κ) : Prop where
  target_eq : progress.left + progress.removed = target
  refills_le : progress.refills ≤ maxPasses
  culled : base.Culled store progress.removed
  -- The first pass over all keys leaves no mark on an idle entry, and the second no idle entry.
  marked : 1 ≤ progress.refills → ∀ key, store.idle? key = some true →
    progress.refills = 1 ∧ key ∈ progress.cursor
  idle : 2 ≤ progress.refills → ∀ key, store.idle? key = some false → key ∈ ahead

/-- How far a round has come at each of its phases. -/
def Phase.Culls (base : Store κ) (target : Nat) (store : Store κ) : Phase κ → Prop
  | sweeping progress => Culling base target store progress progress.cursor
  | judging key progress =>
      Culling base target store progress (key :: progress.cursor) ∧ progress.left ≠ 0
  | ending progress =>
      Culling base target store progress progress.cursor ∧ (progress.left = 0 ∨ store.idles = [])
  | _ => False

namespace Culling

variable {base store : Store κ} {target : Nat} {progress : Progress κ} {key : κ} {cursor : List κ}

theorem look (hculling : Culling base target store progress progress.cursor)
    (hcursor : progress.cursor = key :: cursor) :
    Culling base target (store.clearAccessed key).2 { progress with cursor } (key :: cursor) where
  target_eq := hculling.target_eq
  refills_le := hculling.refills_le
  culled := hculling.culled.look key
  marked := by
    intro hrefills other hmarked
    rw [hculling.culled.formed.idle?_clearAccessed] at hmarked
    split at hmarked
    next =>
      obtain ⟨used, -, hused⟩ := Option.map_eq_some_iff.mp hmarked
      cases hused
    next hne =>
      obtain ⟨hone, hmem⟩ := hculling.marked hrefills other hmarked
      rw [hcursor] at hmem
      exact ⟨hone, (List.mem_cons.mp hmem).resolve_left hne⟩
  idle := by
    intro hrefills other hidle
    rw [hculling.culled.formed.idle?_clearAccessed] at hidle
    split at hidle
    next heq => exact heq ▸ List.mem_cons_self
    next => exact hcursor ▸ hculling.idle hrefills other hidle

/-- A key that the pass need not come back to. -/
theorem skip (hculling : Culling base target store progress (key :: progress.cursor))
    (hbusy : 2 ≤ progress.refills → store.idle? key ≠ some false) :
    Culling base target store progress progress.cursor where
  target_eq := hculling.target_eq
  refills_le := hculling.refills_le
  culled := hculling.culled
  marked := hculling.marked
  idle := by
    intro hrefills other hidle
    refine (List.mem_cons.mp (hculling.idle hrefills other hidle)).resolve_left fun heq => ?_
    exact hbusy hrefills (heq ▸ hidle)

theorem drop (hculling : Culling base target store progress (key :: progress.cursor))
    (hleft : progress.left ≠ 0) (hidle : store.idle? key = some false) :
    Culling base target (store.removeIdle key).2
      { progress with left := progress.left - 1, removed := progress.removed + 1 }
      progress.cursor where
  target_eq := by
    have htarget := hculling.target_eq
    dsimp only
    omega
  refills_le := hculling.refills_le
  culled := hculling.culled.drop hidle
  marked := by
    intro hrefills other hmarked
    rw [hculling.culled.formed.idle?_removeIdle hidle] at hmarked
    split at hmarked
    next => cases hmarked
    next => exact hculling.marked hrefills other hmarked
  idle := by
    intro hrefills other hother
    rw [hculling.culled.formed.idle?_removeIdle hidle] at hother
    split at hother
    next => cases hother
    next hne => exact (List.mem_cons.mp (hculling.idle hrefills other hother)).resolve_left hne

theorem list (hculling : Culling base target store progress progress.cursor)
    (hcursor : progress.cursor = []) (hrefills : progress.refills < maxPasses) {keys : List κ}
    (hkeys : ∀ key ∈ store.keys.keys, key ∈ keys) :
    Culling base target store
      { progress with cursor := keys, refills := progress.refills + 1 } keys where
  target_eq := hculling.target_eq
  refills_le := hrefills
  culled := hculling.culled
  marked := by
    intro _ other hmarked
    have hmem := hkeys other (Store.mem_keys_of_idle? hmarked)
    rcases Nat.eq_zero_or_pos progress.refills with hzero | hpos
    · exact ⟨congrArg (· + 1) hzero, hmem⟩
    · have hnone := (hculling.marked hpos other hmarked).2
      rw [hcursor] at hnone
      cases hnone
  idle := fun _ other hidle => hkeys other (Store.mem_keys_of_idle? hidle)

/-- No idle entry is left when the last pass has come to its end. -/
theorem idles_eq_nil (hculling : Culling base target store progress progress.cursor)
    (hcursor : progress.cursor = []) (hrefills : progress.refills = maxPasses) :
    store.idles = [] := by
  refine List.eq_nil_iff_forall_not_mem.mpr fun key hmem => ?_
  obtain ⟨used, hidle⟩ := Option.isSome_iff_exists.mp (Store.mem_idles_iff.mp hmem)
  cases used with
  | true =>
      obtain ⟨hone, -⟩ := hculling.marked (by rw [hrefills]; decide) key hidle
      rw [hrefills] at hone
      cases hone
  | false =>
      have hnone := hculling.idle (by rw [hrefills]; decide) key hidle
      rw [hcursor] at hnone
      cases hnone

/-- As many are gone as were to go, or as there were. -/
theorem removed_eq (hculling : Culling base target store progress cursor)
    (hdone : progress.left = 0 ∨ store.idles = []) :
    progress.removed = min target base.idles.length := by
  have htarget := hculling.target_eq
  have hidles := hculling.culled.idles_eq
  rcases hdone with hleft | hnone
  · omega
  · rw [hnone, List.length_nil] at hidles
    omega

end Culling

namespace Vigil

open Store

variable {base store after : Store κ} {target : Nat} {event : Event κ} {phase next : Phase κ}

theorem Strode.culls (hstrode : Strode store event phase after next)
    (hculls : phase.Culls base target store) : next.Culls base target after := by
  cases hstrode with
  | ended hdone =>
      refine ⟨hculls, hdone.imp_right fun hspent => ?_⟩
      exact hculls.idles_eq_nil hspent.1 hspent.2
  | @passed progress key cursor hleft hcursor hpassed =>
      refine (hculls.look hcursor).skip fun hrefills hidle => ?_
      rw [hculls.culled.formed.idle?_clearAccessed, if_pos rfl] at hidle
      obtain ⟨used, hused, -⟩ := Option.map_eq_some_iff.mp hidle
      cases used with
      | true =>
          obtain ⟨hone, -⟩ := hculls.marked (Nat.le_of_succ_le hrefills) key hused
          dsimp only at hrefills
          omega
      | false =>
          obtain ⟨entry, hentry, -, hunused⟩ := exists_entryOf? hused
          exact hpassed (by rw [hentry, Option.map_some, hunused])
  | found hleft hcursor hfound => exact ⟨hculls.look hcursor, hleft⟩
  | dropped hidle => exact hculls.1.drop hculls.2 hidle
  | spared hbusy => exact hculls.1.skip fun _ => hbusy
  | listed hleft hcursor hrefills hkeys => exact hculls.list hcursor hrefills hkeys
  | bare hleft hcursor hrefills hnone =>
      refine ⟨hculls.list hcursor hrefills fun key hmem => hnone ▸ hmem, .inr ?_⟩
      rw [idles, hnone, List.filter_nil]

theorem culls_of_reaches {vigil later : Vigil κ}
    (hreaches : Runs.Reaches step? undisturbed vigil later)
    (hculls : vigil.phase.Culls base target vigil.system.store) :
    later.phase.Culls base target later.system.store :=
  holds_of_undisturbed (fun store phase => phase.Culls base target store)
    (fun hstrode _ hculls => hstrode.culls hculls) hreaches hculls

theorem culls_start {store : Store κ} (hformed : store.Formed) (target : Nat) (cursor : List κ) :
    (Phase.sweeping { left := target, cursor }).Culls store target store where
  target_eq := rfl
  refills_le := Nat.zero_le _
  culled := .refl hformed
  marked := fun hrefills => absurd hrefills (Nat.not_succ_le_zero _)
  idle := fun hrefills => absurd hrefills (Nat.not_succ_le_zero _)

theorem exists_isSome_of_culls {vigil : Vigil κ} (hculls : vigil.phase.Culls base target
    vigil.system.store) (hunderway : vigil.phase.isUnderway = true) :
    ∃ event, undisturbed vigil event = true ∧ (vigil.step? event).isSome := by
  have hrefills : ∀ progress, vigil.phase.progress? = some progress →
      progress.refills ≤ maxPasses := by
    intro progress hprogress
    cases hphase : vigil.phase <;> rw [hphase] at hculls hprogress <;> cases hprogress
    · exact hculls.refills_le
    · exact hculls.1.refills_le
    · exact hculls.1.refills_le
  obtain ⟨event, hevent, hstep⟩ := exists_isSome_step? hunderway hrefills
  refine ⟨event, ?_, hstep⟩
  rcases hevent with rfl | rfl
  · exact hunderway
  · exact Bool.and_eq_true_iff.mpr ⟨hunderway, List.isPerm_iff.mpr (.refl _)⟩

theorem culled_of_ending {progress : Progress κ}
    (hculls : (Phase.ending progress).Culls base target store) :
    progress.removed = min target base.idles.length ∧ base.Culled store progress.removed :=
  ⟨hculls.1.removed_eq hculls.2, hculls.1.culled⟩

theorem culled_of_evict {store : Store κ} (hformed : store.Formed)
    {order : Store κ → List κ} (hperm : ∀ store, (order store).Perm store.keys.keys)
    (target : Nat) (evictor : Evictor κ) :
    (evictor.evict order target store).1 = min target store.idles.length ∧
      store.Culled (evictor.evict order target store).2.2
        (evictor.evict order target store).1 := by
  obtain ⟨refills, hreaches⟩ := reaches_evict hperm target evictor store
  exact culled_of_ending (culls_of_reaches hreaches (culls_start hformed target evictor.cursor))

/-- In whatever order the keys are listed, a round that nobody disturbs comes to its end, and has
then removed as many entries as it was to remove, or as nobody refers to. So does the evictor, which
brings an overfull pool as far down to its low watermark as the references to its entries let it. -/
theorem culls_of_formed {store : Store κ} (hformed : store.Formed) (target : Nat)
    (cursor : List κ) :
    (∀ (vigil later : Vigil κ) (events : List (Event κ)), vigil.system.store = store →
      vigil.phase = .sweeping { left := target, cursor } →
      Runs.run? step? undisturbed events vigil = some later →
      events.length ≤ 2 * cursor.length + 3 * (2 * store.size + 1) + 1 ∧
        (later.phase.isUnderway = true →
          ∃ event, undisturbed later event = true ∧ (later.step? event).isSome) ∧
        (later.phase.isUnderway = false →
          ∃ progress, later.phase = .ending progress ∧
            progress.removed = min target store.idles.length ∧
            store.Culled later.system.store progress.removed ∧
            (target = store.size - store.lowWatermark → store.isOverfull = true →
              store.lowWatermark ≤ store.highWatermark →
              store.Lowered later.system.store))) ∧
    ∀ (order : Store κ → List κ) (stalled : Bool),
      (∀ store, (order store).Perm store.keys.keys) →
      (Evictor.evict order target ⟨cursor, stalled⟩ store).1 = min target store.idles.length ∧
      store.Culled (Evictor.evict order target ⟨cursor, stalled⟩ store).2.2
        (Evictor.evict order target ⟨cursor, stalled⟩ store).1 ∧
      (store.isOverfull = true → store.lowWatermark ≤ store.highWatermark →
        store.Lowered (Evictor.round order ⟨cursor, stalled⟩ store).2) := by
  constructor
  case left =>
    intro vigil later events hstore hphase hrun
    have hculls : later.phase.Culls store target later.system.store := by
      refine culls_of_reaches (Runs.reaches_of_run? hrun) ?_
      rw [hstore, hphase]
      exact culls_start hformed target cursor
    refine ⟨?_, exists_isSome_of_culls hculls, fun hended => ?_⟩
    · have hlength := Runs.length_le_of_run?
        (fun vigil => vigil.phase.weight vigil.system.store.size)
        (fun hlaw hstep => (strode_of_undisturbed hlaw hstep).1.weight_lt
          (strode_of_undisturbed hlaw hstep).2) hrun
      simp only [hphase, hstore, Phase.weight, maxPasses] at hlength
      omega
    · cases hlater : later.phase with
      | ending progress =>
          rw [hlater] at hculls
          obtain ⟨hremoved, hculled⟩ := culled_of_ending hculls
          refine ⟨progress, rfl, hremoved, hculled, ?_⟩
          rintro rfl hoverfull hle
          exact hculled.lowered hremoved hoverfull hle
      | sweeping | judging =>
          rw [hlater] at hended
          cases hended
      | _ =>
          rw [hlater] at hculls
          exact hculls.elim
  case right =>
    intro order stalled hperm
    obtain ⟨hremoved, hculled⟩ := culled_of_evict hformed hperm target ⟨cursor, stalled⟩
    refine ⟨hremoved, hculled, fun hoverfull hle => ?_⟩
    obtain ⟨hremoved, hculled⟩ := culled_of_evict hformed hperm
      (store.size - store.lowWatermark) ⟨cursor, stalled⟩
    exact hculled.lowered hremoved hoverfull hle

/-- Three keys that nobody refers to, two of them used again, and two keys in use. -/
def mixed : List (LockPool.Event Nat) :=
  [1, 2, 3, 1, 3].flatMap (fun key => [.tryGet key .read, .act 0 .giveUp, .undo 0]) ++
    [.get 4 .read, .get 5 .read]

/-- A round that is to remove four entries removes three, whatever is left of an earlier cursor. -/
theorem culls_of_mixed : ∃ system : System Nat,
    System.run? mixed (System.start 1 2) = some system ∧ system.store.Formed ∧
      (∀ later events, Runs.run? step? undisturbed events
          (amid system.store (.sweeping { left := 4, cursor := [9, 2, 2] })) = some later →
        events.length ≤ 40 ∧ (later.phase.isUnderway = false → later.system.store.size = 2)) ∧
      (Evictor.round (fun store => store.keys.keys) ⟨[9, 2, 2], false⟩
        system.store).2.size = 2 := by
  let shown (system : System Nat) := (system.store.size, system.store.idles,
    system.store.lowWatermark, system.store.highWatermark)
  have hruns : (System.run? mixed (System.start 1 2)).map shown =
      some (5, [1, 2, 3], 1, 2) := by decide
  obtain ⟨system, hrun, hshown⟩ := Option.map_eq_some_iff.mp hruns
  simp only [shown, Prod.mk.injEq] at hshown
  obtain ⟨hsize, hidles, hlow, hhigh⟩ := hshown
  have hformed := System.formed_of_reaches (Runs.reaches_of_run? hrun)
  obtain ⟨hrounds, hevictor⟩ := culls_of_formed hformed 4 [9, 2, 2]
  refine ⟨system, hrun, hformed, fun later events hlater => ?_, ?_⟩
  · obtain ⟨hlength, -, hends⟩ := hrounds _ later events rfl rfl hlater
    rw [hsize] at hlength
    refine ⟨hlength, fun hended => ?_⟩
    obtain ⟨progress, -, hremoved, hculled, -⟩ := hends hended
    have hless := hculled.size_eq
    rw [hremoved, hidles, hsize] at hless
    exact Nat.add_right_cancel hless
  · have hoverfull : system.store.isOverfull = true := by
      rw [Store.isOverfull, hsize, hhigh]
      rfl
    obtain ⟨-, -, hrounds⟩ := hevictor (fun store => store.keys.keys) false fun _ => .refl _
    have hlowered := hrounds hoverfull (by rw [hlow, hhigh]; decide)
    rw [hlowered.size_eq, hlow, hsize, hidles]
    rfl

end Vigil

end Pooling.LockPool
