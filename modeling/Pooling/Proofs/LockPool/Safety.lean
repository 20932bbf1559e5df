import Pooling.Proofs.LockPool.Store
import Pooling.Proofs.LockPool.System

/-!
The safety of a lock pool: whatever the evictor does meanwhile, all who refer to the lock of a key
refer to the same lock, which its readers share and its writer has alone.
-/

namespace Pooling.LockPool

variable {κ : Type} [DecidableEq κ]

theorem Act.sameBut {act : Act} {store after : Store κ} {reference : Reference κ} {stage : Stage}
    (hperform : act.perform? store reference = some (after, stage)) :
    store.SameBut reference.id after := by
  unfold perform? at hperform
  split at hperform
  next =>
    obtain ⟨taken, htake, heq⟩ := Option.map_eq_some_iff.mp hperform
    cases heq
    obtain ⟨-, -, -, -, hstore, -⟩ := Store.takeLock?_spec htake
    exact hstore
  next =>
    obtain ⟨taken, htake, heq⟩ := Option.map_eq_some_iff.mp hperform
    cases heq
    obtain ⟨-, -, -, -, hstore, -⟩ := Store.takeLock?_spec htake
    exact hstore
  next =>
    cases hperform
    exact .refl _ _
  next =>
    cases hperform
    exact Store.sameBut_modifyEntry _ _ _
  next =>
    cases hperform
    exact Store.sameBut_modifyEntry _ _ _
  next => cases hperform

namespace System

/-- The count of an entry, and the holders of its lock, are those of the references to its key. -/
structure Agrees (system : System κ) (key : κ) (entry : Entry) : Prop where
  references_eq : entry.references = Int32.ofNat (system.outstanding key)
  heldBy : entry.lock.HeldBy (system.holders key .read) (system.holders key .write)

structure Sound (system : System κ) : Prop where
  outstanding_lt : ∀ key, system.outstanding key < countLimit
  mapped : ∀ reference ∈ system.references,
    system.store.lookup? reference.key = some reference.id
  agrees : ∀ key id, system.store.lookup? key = some id →
    ∃ entry, system.store.entry? id = some entry ∧ system.Agrees key entry
  key_unique : ∀ first second id, system.store.lookup? first = some id →
    system.store.lookup? second = some id → first = second
  id_lt_next : ∀ key id, system.store.lookup? key = some id → id < system.store.next

theorem sound_start (lowWatermark highWatermark : Nat) :
    (start lowWatermark highWatermark : System κ).Sound where
  outstanding_lt := by
    intro key
    show 0 < countLimit
    decide
  mapped := fun _ hmem => nomatch hmem
  agrees := fun _ _ hlookup => nomatch hlookup
  key_unique := fun _ _ _ hlookup => nomatch hlookup
  id_lt_next := fun _ _ hlookup => nomatch hlookup

namespace Sound

variable {before after : System κ}

theorem of_sameBut (hsound : before.Sound) {key : κ} {id : Nat}
    (hlookup : before.store.lookup? key = some id)
    (hstore : before.store.SameBut id after.store)
    (hlimit : after.outstanding key < countLimit)
    (hmapped : ∀ reference ∈ after.references,
      before.store.lookup? reference.key = some reference.id)
    (hothers : ∀ other, other ≠ key → ∀ chosen,
      after.count other chosen = before.count other chosen)
    (hentry : ∃ entry, after.store.entry? id = some entry ∧ after.Agrees key entry) :
    after.Sound where
  outstanding_lt := by
    intro other
    by_cases heq : other = key
    · exact heq ▸ hlimit
    · rw [outstanding, hothers other heq]
      exact hsound.outstanding_lt other
  mapped := by
    intro reference hmem
    rw [hstore.lookup_eq]
    exact hmapped reference hmem
  agrees := by
    intro other otherId hother
    rw [hstore.lookup_eq] at hother
    by_cases heq : other = key
    · subst heq
      rw [hlookup] at hother
      cases hother
      exact hentry
    · have hne : otherId ≠ id := fun hid =>
        heq (hsound.key_unique other key id (hid ▸ hother) hlookup)
      obtain ⟨entry, hfound, hagrees⟩ := hsound.agrees other otherId hother
      refine ⟨entry, (hstore.entry_eq otherId hne).trans hfound, ?_, ?_⟩
      · rw [outstanding, hothers other heq]
        exact hagrees.references_eq
      · rw [holders, holders, hothers other heq, hothers other heq]
        exact hagrees.heldBy
  key_unique := by
    intro first second id hfirst hsecond
    rw [hstore.lookup_eq] at hfirst hsecond
    exact hsound.key_unique first second id hfirst hsecond
  id_lt_next := by
    intro key id hlookup
    rw [hstore.lookup_eq] at hlookup
    rw [hstore.next_eq]
    exact hsound.id_lt_next key id hlookup

theorem count_eq_zero (hsound : before.Sound) {key : κ} (hnone : before.store.lookup? key = none)
    (chosen : Stage → Bool) : before.count key chosen = 0 := by
  apply Tally.tally_eq_zero_iff.mpr
  intro reference hmem
  apply Reference.weight_of_ne
  intro heq
  have hmapped := hsound.mapped reference hmem
  rw [heq, hnone] at hmapped
  cases hmapped

theorem references_nonneg (hsound : before.Sound) {key : κ} {entry : Entry}
    (hagrees : before.Agrees key entry) : 0 ≤ entry.references := by
  rw [hagrees.references_eq]
  exact Int32.zero_le_ofNat_of_lt (hsound.outstanding_lt key)

theorem refer_known (hsound : before.Sound) {key : κ} {stage : Stage}
    (hwaits : ∀ mode, stage ≠ .holding mode) (hlimit : before.outstanding key + 1 < countLimit)
    {id : Nat} (hlookup : before.store.lookup? key = some id) :
    (before.refer key stage).Sound := by
  obtain ⟨entry, hentry, hagrees⟩ := hsound.agrees key id hlookup
  obtain ⟨hid, hstore, hafter⟩ :=
    Store.reference_of_lookup hlookup hentry (hsound.references_nonneg hagrees)
  have hmore := before.outstanding_refer key stage
  refine hsound.of_sameBut hlookup hstore (hmore ▸ hlimit) ?_ ?_ ⟨_, hafter, ?_, ?_⟩
  · intro reference hmem
    rcases List.mem_append.mp hmem with hold | hnew
    · exact hsound.mapped reference hold
    · rw [List.mem_singleton.mp hnew, hid]
      exact hlookup
  · exact fun other hne => before.count_refer_of_ne hne stage
  · rw [hmore, Int32.ofNat_add, ← hagrees.references_eq]
    rfl
  · rw [before.holders_refer hwaits, before.holders_refer hwaits]
    exact hagrees.heldBy

theorem refer_new (hsound : before.Sound) {key : κ} {stage : Stage}
    (hwaits : ∀ mode, stage ≠ .holding mode) (hnone : before.store.lookup? key = none) :
    (before.refer key stage).Sound := by
  have hstore : (before.refer key stage).store = (before.store.addEntry key).2 :=
    congrArg Prod.snd (Store.reference_of_none hnone)
  have hid : (before.store.reference key).1 = before.store.next :=
    congrArg Prod.fst (Store.reference_of_none hnone)
  have honce : (before.refer key stage).outstanding key = 1 := by
    rw [before.outstanding_refer, outstanding, hsound.count_eq_zero hnone]
  have hunheld : ∀ mode, (before.refer key stage).holders key mode = 0 := fun mode => by
    rw [before.holders_refer hwaits, holders, hsound.count_eq_zero hnone]
  constructor
  case outstanding_lt =>
    intro other
    by_cases heq : other = key
    · rw [heq, honce]
      decide
    · rw [outstanding, before.count_refer_of_ne heq]
      exact hsound.outstanding_lt other
  case mapped =>
    intro reference hmem
    rw [hstore, Store.lookup?_addEntry]
    rcases List.mem_append.mp hmem with hold | hnew
    · have hmapped := hsound.mapped reference hold
      have hne : reference.key ≠ key := fun heq => by
        rw [heq, hnone] at hmapped
        cases hmapped
      rw [if_neg hne]
      exact hmapped
    · rw [List.mem_singleton.mp hnew, if_pos rfl, hid]
  case agrees =>
    intro other id hlookup
    rw [hstore, Store.lookup?_addEntry] at hlookup
    rw [hstore, Store.entry?_addEntry]
    split at hlookup
    next heq =>
      cases hlookup
      refine ⟨_, if_pos rfl, ?_, ?_⟩
      · rw [heq, honce]
        rfl
      · rw [heq, hunheld, hunheld]
        exact ⟨rfl, rfl⟩
    next hne =>
      obtain ⟨entry, hentry, hagrees⟩ := hsound.agrees other id hlookup
      have hlt := hsound.id_lt_next other id hlookup
      refine ⟨entry, (if_neg (Nat.ne_of_lt hlt)).trans hentry, ?_, ?_⟩
      · rw [outstanding, before.count_refer_of_ne hne]
        exact hagrees.references_eq
      · rw [before.holders_refer hwaits, before.holders_refer hwaits]
        exact hagrees.heldBy
  case key_unique =>
    intro first second id hfirst hsecond
    rw [hstore, Store.lookup?_addEntry] at hfirst hsecond
    split at hfirst
    next heq =>
      cases hfirst
      split at hsecond
      next hsame => exact heq.trans hsame.symm
      next => exact absurd (hsound.id_lt_next second _ hsecond) (Nat.lt_irrefl _)
    next =>
      split at hsecond
      next =>
        cases hsecond
        exact absurd (hsound.id_lt_next first _ hfirst) (Nat.lt_irrefl _)
      next => exact hsound.key_unique first second id hfirst hsecond
  case id_lt_next =>
    intro other id hlookup
    rw [hstore, Store.lookup?_addEntry] at hlookup
    rw [hstore]
    show id < before.store.next + 1
    split at hlookup
    next =>
      cases hlookup
      exact Nat.lt_succ_self _
    next => exact Nat.lt_succ_of_lt (hsound.id_lt_next other id hlookup)

theorem lookup_refer (hsound : before.Sound) (key : κ) {reference : Reference κ}
    (hmem : reference ∈ before.references) :
    (before.store.reference key).2.lookup? reference.key =
      before.store.lookup? reference.key := by
  cases hlookup : before.store.lookup? key with
  | some id =>
      obtain ⟨entry, hentry, hagrees⟩ := hsound.agrees key id hlookup
      obtain ⟨-, hstore, -⟩ :=
        Store.reference_of_lookup hlookup hentry (hsound.references_nonneg hagrees)
      exact hstore.lookup_eq reference.key
  | none =>
      have hne : reference.key ≠ key := fun heq => by
        have hmapped := hsound.mapped reference hmem
        rw [heq, hlookup] at hmapped
        cases hmapped
      rw [Store.reference_of_none hlookup, Store.lookup?_addEntry, if_neg hne]

theorem refer (hsound : before.Sound) {key : κ} {stage : Stage}
    (hwaits : ∀ mode, stage ≠ .holding mode) (hlimit : before.outstanding key + 1 < countLimit) :
    (before.refer key stage).Sound := by
  -- The third branch, for an entry that is mapped but claimed, is never taken: its count is not
  -- negative while it is mapped.
  cases hlookup : before.store.lookup? key with
  | some id => exact hsound.refer_known hwaits hlimit hlookup
  | none => exact hsound.refer_new hwaits hlookup

/-- A reference may go on to another stage, if its entry keeps its count and the lock goes along,
whoever else holds that. -/
theorem restage (hsound : before.Sound) {index : Nat} {reference : Reference κ}
    (hreference : before.references[index]? = some reference) {store : Store κ} {stage : Stage}
    (hstore : before.store.SameBut reference.id store)
    (hchange : ∀ entry, before.store.entry? reference.id = some entry →
      ∃ after, store.entry? reference.id = some after ∧ after.references = entry.references ∧
        ∀ readers writers,
          entry.lock.HeldBy (readers + reference.stage.share .read)
            (writers + reference.stage.share .write) →
          after.lock.HeldBy (readers + stage.share .read) (writers + stage.share .write)) :
    (⟨store, before.references.set index { reference with stage }⟩ : System κ).Sound := by
  have hmem := List.mem_of_getElem? hreference
  have hlookup := hsound.mapped reference hmem
  obtain ⟨entry, hentry, hagrees⟩ := hsound.agrees reference.key reference.id hlookup
  obtain ⟨after, hafter, hcount, hlock⟩ := hchange entry hentry
  obtain ⟨readers, hreaders, hreadersAfter⟩ := holders_set hreference store stage .read
  obtain ⟨writers, hwriters, hwritersAfter⟩ := holders_set hreference store stage .write
  refine hsound.of_sameBut hlookup hstore ?_ ?_ ?_ ⟨after, hafter, ?_, ?_⟩
  · rw [outstanding_set hreference]
    exact hsound.outstanding_lt reference.key
  · intro other hother
    rcases List.mem_or_eq_of_mem_set hother with hold | rfl
    · exact hsound.mapped other hold
    · exact hlookup
  · intro other hne chosen
    have hset := count_set hreference store stage other chosen
    have hold := reference.weight_of_ne hne.symm chosen
    have hnew := Reference.weight_of_ne { reference with stage } hne.symm chosen
    omega
  · rw [outstanding_set hreference, hcount]
    exact hagrees.references_eq
  · have hheld := hagrees.heldBy
    rw [hreaders, hwriters] at hheld
    rw [hreadersAfter, hwritersAfter]
    exact hlock readers writers hheld

theorem grant (hsound : before.Sound) {index : Nat} {reference : Reference κ}
    (hreference : before.references[index]? = some reference)
    (hwaits : ∀ mode, reference.stage ≠ .holding mode) {mode : LockMode} {store : Store κ}
    (htake : before.store.takeLock? reference.id mode = some store) :
    (⟨store, before.references.set index { reference with stage := .holding mode }⟩ :
      System κ).Sound := by
  obtain ⟨entry, lock, hentry, hlock, hstore, hafter⟩ := Store.takeLock?_spec htake
  refine hsound.restage hreference hstore fun found hfound => ?_
  cases hentry.symm.trans hfound
  refine ⟨_, hafter, rfl, fun readers writers hheld => ?_⟩
  simp only [Stage.share, hwaits, if_false] at hheld
  cases mode with
  | read => exact hheld.take_read hlock
  | write => exact hheld.take_write hlock

theorem act (hsound : before.Sound) {index : Nat} {reference : Reference κ} {act : Act}
    (hreference : before.references[index]? = some reference) {store : Store κ} {stage : Stage}
    (hperform : act.perform? before.store reference = some (store, stage)) :
    (⟨store, before.references.set index { reference with stage }⟩ : System κ).Sound := by
  have hstore := Act.sameBut hperform
  unfold Act.perform? at hperform
  split at hperform
  next mode hstage =>
    obtain ⟨taken, htake, heq⟩ := Option.map_eq_some_iff.mp hperform
    cases heq
    exact hsound.grant hreference (by simp [hstage]) htake
  next mode hstage =>
    obtain ⟨taken, htake, heq⟩ := Option.map_eq_some_iff.mp hperform
    cases heq
    exact hsound.grant hreference (by simp [hstage]) htake
  next mode hstage =>
    cases hperform
    refine hsound.restage hreference hstore fun entry hentry => ?_
    refine ⟨entry, hentry, rfl, fun readers writers hheld => ?_⟩
    simpa [Stage.share, hstage] using hheld
  next hstage =>
    cases hperform
    refine hsound.restage hreference hstore fun entry hentry => ?_
    refine ⟨_, Store.entry?_modifyEntry_self hentry _, rfl, fun readers writers hheld => ?_⟩
    rw [hstage] at hheld
    exact hheld.downgrade
  next mode hstage =>
    cases hperform
    refine hsound.restage hreference hstore fun entry hentry => ?_
    refine ⟨_, Store.entry?_modifyEntry_self hentry _, rfl, fun readers writers hheld => ?_⟩
    rw [hstage] at hheld
    cases mode with
    | read => exact hheld.release_read
    | write => exact hheld.release_write
  next => cases hperform

theorem undo (hsound : before.Sound) {index : Nat} {reference : Reference κ}
    (hreference : before.references[index]? = some reference)
    (hended : ∀ mode, reference.stage ≠ .holding mode) :
    (⟨(before.store.unreference reference.id).2, before.references.eraseIdx index⟩ :
      System κ).Sound := by
  have hlookup := hsound.mapped reference (List.mem_of_getElem? hreference)
  obtain ⟨entry, hentry, hagrees⟩ := hsound.agrees reference.key reference.id hlookup
  have hcount := count_eraseIdx hreference (before.store.unreference reference.id).2
  have hless := hcount reference.key fun _ => true
  have hholders : ∀ mode, (⟨(before.store.unreference reference.id).2,
      before.references.eraseIdx index⟩ : System κ).holders reference.key mode =
        before.holders reference.key mode := by
    intro mode
    rw [holders, holders, ← hcount reference.key]
    simp [Reference.weight, hended]
  simp only [Reference.weight, and_self, if_true] at hless
  refine hsound.of_sameBut hlookup (Store.sameBut_modifyEntry _ _ _) ?_ ?_ ?_
    ⟨_, Store.entry?_modifyEntry_self hentry _, ?_, ?_⟩
  · have hlimit := hsound.outstanding_lt reference.key
    simp only [outstanding] at hlimit ⊢
    omega
  · exact fun other hmem => hsound.mapped other (List.mem_of_mem_eraseIdx hmem)
  · intro other hne chosen
    have hsame := hcount other chosen
    rwa [reference.weight_of_ne hne.symm, Nat.add_zero] at hsame
  · show entry.references - 1 = _
    rw [hagrees.references_eq, outstanding, ← hless, Int32.ofNat_add]
    simp [outstanding]
  · rw [hholders, hholders]
    exact hagrees.heldBy

theorem look (hsound : before.Sound) (key : κ) :
    ({ before with store := (before.store.clearAccessed key).2 } : System κ).Sound := by
  unfold Store.clearAccessed
  cases hlookup : before.store.lookup? key with
  | none => exact hsound
  | some id =>
      obtain ⟨entry, hentry, hagrees⟩ := hsound.agrees key id hlookup
      exact hsound.of_sameBut hlookup (Store.sameBut_modifyEntry _ _ _) (hsound.outstanding_lt key)
        hsound.mapped (fun _ _ _ => rfl)
        ⟨_, Store.entry?_modifyEntry_self hentry _, hagrees.references_eq, hagrees.heldBy⟩

theorem outstanding_eq_zero (hsound : before.Sound) {key : κ} {id : Nat}
    (hlookup : before.store.lookup? key = some id)
    (hidle : ((before.store.entry? id).getD {}).references = 0) : before.outstanding key = 0 := by
  obtain ⟨entry, hentry, hagrees⟩ := hsound.agrees key id hlookup
  rw [hentry, Option.getD_some, hagrees.references_eq] at hidle
  have hshown := Int32.toInt_ofNat_of_lt (hsound.outstanding_lt key)
  rw [hidle, Int32.toInt_zero] at hshown
  omega

theorem lookup_evict (hsound : before.Sound) (dropped : κ) {reference : Reference κ}
    (hmem : reference ∈ before.references) :
    (before.store.removeIdle dropped).2.lookup? reference.key = some reference.id := by
  have hmapped := hsound.mapped reference hmem
  rcases before.store.removeIdle_spec dropped with hsame | ⟨id, hdrops, hidle⟩
  · rw [hsame]
    exact hmapped
  · have hnone := hsound.outstanding_eq_zero hdrops.lookup_key hidle
    have hne : reference.key ≠ dropped := fun heq => by
      have hpos := Nat.lt_of_lt_of_le (reference.weight_pos heq rfl)
        (Tally.le_tally (fun reference => reference.weight dropped fun _ => true) hmem)
      exact absurd hnone (Nat.ne_of_gt hpos)
    rw [hdrops.lookup_eq, if_neg hne]
    exact hmapped

theorem evict (hsound : before.Sound) (dropped : κ) :
    ({ before with store := (before.store.removeIdle dropped).2 } : System κ).Sound := by
  rcases before.store.removeIdle_spec dropped with hsame | ⟨id, hdrops, -⟩
  · rw [hsame]
    exact hsound
  · constructor
    case outstanding_lt => exact hsound.outstanding_lt
    case mapped => exact fun reference => hsound.lookup_evict dropped
    case agrees =>
      intro key otherId hfound
      obtain ⟨-, hbefore, hne⟩ := hdrops.kept hsound.key_unique hfound
      obtain ⟨entry, hentry, hagrees⟩ := hsound.agrees key otherId hbefore
      exact ⟨entry, (hdrops.entry_eq otherId hne).trans hentry, hagrees.references_eq,
        hagrees.heldBy⟩
    case key_unique =>
      intro first second otherId hfirst hsecond
      exact hsound.key_unique first second otherId (hdrops.kept hsound.key_unique hfirst).2.1
        (hdrops.kept hsound.key_unique hsecond).2.1
    case id_lt_next =>
      intro key otherId hfound
      show otherId < (before.store.removeIdle dropped).2.next
      rw [hdrops.next_eq]
      exact hsound.id_lt_next key otherId (hdrops.kept hsound.key_unique hfound).2.1

theorem step (hsound : before.Sound) {event : Event κ} (hlaw : countable before event = true)
    (hstep : before.step? event = some after) : after.Sound := by
  cases event with
  | get key mode =>
      cases hstep
      exact hsound.refer (fun _ => nofun) (of_decide_eq_true hlaw)
  | tryGet key mode =>
      cases hstep
      exact hsound.refer (fun _ => nofun) (of_decide_eq_true hlaw)
  | act index act =>
      simp only [step?, Option.bind_eq_bind, Option.bind_eq_some_iff, Option.some.injEq] at hstep
      obtain ⟨reference, hreference, ⟨store, stage⟩, hperform, rfl⟩ := hstep
      exact hsound.act hreference hperform
  | undo index =>
      simp only [step?, Option.bind_eq_bind, Option.bind_eq_some_iff] at hstep
      obtain ⟨reference, hreference, hstep⟩ := hstep
      split at hstep
      next hended =>
        cases hstep
        refine hsound.undo hreference fun mode hholding => ?_
        simp [hholding] at hended
      next => cases hstep
  | look key =>
      cases hstep
      exact hsound.look key
  | evict key =>
      cases hstep
      exact hsound.evict key

/-- No event takes the entry of a key away while there is a reference to it. -/
theorem lookup_step (hsound : before.Sound) {event : Event κ}
    (hstep : before.step? event = some after) {reference : Reference κ}
    (hmem : reference ∈ before.references) :
    after.store.lookup? reference.key = some reference.id := by
  have hmapped := hsound.mapped reference hmem
  cases event with
  | get key mode =>
      cases hstep
      exact (hsound.lookup_refer key hmem).trans hmapped
  | tryGet key mode =>
      cases hstep
      exact (hsound.lookup_refer key hmem).trans hmapped
  | act index act =>
      simp only [step?, Option.bind_eq_bind, Option.bind_eq_some_iff, Option.some.injEq] at hstep
      obtain ⟨reference, -, ⟨store, stage⟩, hperform, rfl⟩ := hstep
      exact ((Act.sameBut hperform).lookup_eq _).trans hmapped
  | undo index =>
      simp only [step?, Option.bind_eq_bind, Option.bind_eq_some_iff] at hstep
      obtain ⟨reference, -, hstep⟩ := hstep
      split at hstep
      next =>
        cases hstep
        exact hmapped
      next => cases hstep
  | look key =>
      cases hstep
      exact (before.store.lookup?_clearAccessed key reference.key).trans hmapped
  | evict key =>
      cases hstep
      exact hsound.lookup_evict key hmem

theorem alone (hsound : before.Sound) {first second : Nat} {writer other : Reference κ}
    (hfirst : before.references[first]? = some writer)
    (hsecond : before.references[second]? = some other) (hne : first ≠ second)
    (hwriter : writer.stage = .holding .write) (hkey : other.key = writer.key) (mode : LockMode) :
    other.stage ≠ .holding mode := by
  intro hother
  have hlookup := hsound.mapped writer (List.mem_of_getElem? hfirst)
  obtain ⟨entry, -, hagrees⟩ := hsound.agrees writer.key writer.id hlookup
  have hwrites : 0 < writer.weight writer.key (· = .holding .write) :=
    writer.weight_pos rfl (by simp [hwriter])
  have hholds : 0 < other.weight writer.key (· = .holding mode) :=
    other.weight_pos hkey (by simp [hother])
  have hpos := Nat.lt_of_lt_of_le hwrites (Tally.le_tally
    (fun reference => reference.weight writer.key (· = .holding .write))
    (List.mem_of_getElem? hfirst))
  obtain ⟨hreaders, hwriters⟩ := hagrees.heldBy.alone hpos
  cases mode with
  | read =>
      have hle := Tally.le_tally
        (fun reference => reference.weight writer.key (· = .holding .read))
        (List.mem_of_getElem? hsecond)
      simp only [holders, count] at hreaders
      omega
  | write =>
      exact hne (Tally.eq_of_tally_le_one (Nat.le_of_eq hwriters) hfirst hsecond hwrites hholds)

theorem same_lock (hsound : before.Sound) {first second : Reference κ}
    (hfirst : first ∈ before.references) (hsecond : second ∈ before.references) :
    first.id = second.id ↔ first.key = second.key := by
  have hmapped := hsound.mapped first hfirst
  have hother := hsound.mapped second hsecond
  constructor
  · intro hid
    exact hsound.key_unique first.key second.key second.id (hid ▸ hmapped) hother
  · intro hkey
    rw [hkey, hother] at hmapped
    exact (Option.some.inj hmapped).symm

end Sound

theorem Reaches.sound {lowWatermark highWatermark : Nat} {system : System κ}
    (hreaches : Reaches (start lowWatermark highWatermark) system) : system.Sound :=
  hreaches.invariant Sound (sound_start lowWatermark highWatermark) fun hsound hlaw hstep =>
    hsound.step hlaw hstep

/-- What a lock pool promises to everyone who refers to a lock of it. -/
structure Safe (system : System κ) : Prop where
  counted : ∀ key id, system.store.lookup? key = some id →
    ∃ entry, system.store.entry? id = some entry ∧ 0 ≤ entry.references ∧
      entry.references.toInt = system.outstanding key
  mapped : ∀ reference ∈ system.references,
    system.store.lookup? reference.key = some reference.id
  stays_mapped : ∀ event after, system.step? event = some after →
    ∀ reference ∈ system.references, after.store.lookup? reference.key = some reference.id
  refers_to_mapped : ∀ key id, system.store.lookup? key = some id →
    (system.store.reference key).1 = id
  same_lock : ∀ first ∈ system.references, ∀ second ∈ system.references,
    first.id = second.id ↔ first.key = second.key
  alone : ∀ (first second : Nat) (writer other : Reference κ),
    system.references[first]? = some writer → system.references[second]? = some other →
    first ≠ second → writer.stage = .holding .write → other.key = writer.key →
    ∀ mode, other.stage ≠ .holding mode

/-- Eviction never parts the references to a key: in whatever order the calls, the guards and the
evictor take their steps, they stay with one entry, whose count is theirs and whose lock excludes
writers. -/
theorem safe_of_reaches {lowWatermark highWatermark : Nat} {system : System κ}
    (hreaches : Reaches (start lowWatermark highWatermark) system) : system.Safe := by
  have hsound := hreaches.sound
  constructor
  case counted =>
    intro key id hlookup
    obtain ⟨entry, hentry, hagrees⟩ := hsound.agrees key id hlookup
    refine ⟨entry, hentry, hsound.references_nonneg hagrees, ?_⟩
    rw [hagrees.references_eq]
    exact Int32.toInt_ofNat_of_lt (hsound.outstanding_lt key)
  case mapped => exact hsound.mapped
  case stays_mapped => exact fun event after hstep reference => hsound.lookup_step hstep
  case refers_to_mapped =>
    intro key id hlookup
    obtain ⟨entry, hentry, hagrees⟩ := hsound.agrees key id hlookup
    exact (Store.reference_of_lookup hlookup hentry (hsound.references_nonneg hagrees)).1
  case same_lock => exact fun first hfirst second hsecond => hsound.same_lock hfirst hsecond
  case alone =>
    intro first second writer other hfirst hsecond hne hwriter hkey
    exact hsound.alone hfirst hsecond hne hwriter hkey

/-- A writer, a reader and a call that gives up, while the evictor tries to drop their key; once all
are gone it does, and the next call gets a new entry. -/
def contested : List (Event Nat) :=
  [.tryGet 7 .write, .act 0 .grant, .get 7 .read, .look 7, .evict 7, .act 0 .downgrade,
    .act 1 .grant, .act 0 .drop, .undo 0, .tryGet 7 .write, .act 1 .giveUp, .look 7, .evict 7,
    .undo 1, .act 0 .drop, .undo 0, .look 7, .evict 7, .get 7 .write, .act 0 .grant]

theorem safe_of_contested : ∃ system : System Nat,
    run? contested (start 1 2) = some system ∧ system.store.next = 2 ∧ system.Safe := by
  have hruns : (run? contested (start 1 2)).map (fun system => system.store.next) = some 2 := by
    decide
  obtain ⟨system, hrun, hnext⟩ := Option.map_eq_some_iff.mp hruns
  exact ⟨system, hrun, hnext, safe_of_reaches (Runs.reaches_of_run? hrun)⟩

end System

end Pooling.LockPool
