import Pooling.Pool.Call
import Pooling.Proofs.Tally

/-!
Waking those who sleep on a condition variable, in a list of all who could: what a signal changes,
and what becomes of the list when one of them takes a step that may wake others.
-/

namespace Pooling.Waking

variable {α : Type u} {isParked : α → Bool} {rouse : α → α}

/-- Wakes sleepers; where one is to be woken, it is the one of the given number. -/
def wake? (isParked : α → Bool) (rouse : α → α) (wake : Wake) (sleeper : Nat) (items : List α) :
    Option (List α) :=
  match wake with
  | .nobody => some items
  -- A signal that finds nobody asleep is lost, as a condition variable keeps none.
  | .one =>
      if items.any isParked then
        (items[sleeper]?.filter isParked).map fun item => items.set sleeper (rouse item)
      else some items
  | .everyone => some (items.map rouse)

theorem wake_one {sleeper : Nat} {items awake : List α}
    (hwoken : wake? isParked rouse .one sleeper items = some awake) :
    (∀ item ∈ items, isParked item = false) ∧ awake = items ∨
      ∃ item, items[sleeper]? = some item ∧ isParked item = true ∧
        awake = items.set sleeper (rouse item) := by
  rw [wake?] at hwoken
  split at hwoken
  next =>
    obtain ⟨item, hitem, rfl⟩ := Option.map_eq_some_iff.mp hwoken
    obtain ⟨hsleeper, hparked⟩ := Option.filter_eq_some_iff.mp hitem
    exact .inr ⟨item, hsleeper, hparked, rfl⟩
  next hnone =>
    cases hwoken
    refine .inl ⟨fun item hitem => ?_, rfl⟩
    exact eq_false_of_ne_true fun hparked => hnone (List.any_eq_true.mpr ⟨item, hitem, hparked⟩)

theorem wake_everyone {sleeper : Nat} {items awake : List α}
    (hwoken : wake? isParked rouse .everyone sleeper items = some awake) :
    awake = items.map rouse :=
  (Option.some.inj hwoken).symm

theorem wake_getElem? {wake : Wake} {sleeper : Nat} {items awake : List α}
    (hwoken : wake? isParked rouse wake sleeper items = some awake) (index : Nat) :
    awake[index]? = items[index]? ∨ awake[index]? = items[index]?.map rouse := by
  cases wake with
  | nobody =>
      cases hwoken
      exact .inl rfl
  | one =>
      rcases wake_one hwoken with ⟨-, rfl⟩ | ⟨item, hitem, -, rfl⟩
      · exact .inl rfl
      · by_cases heq : sleeper = index
        · subst heq
          have hbound := (List.getElem?_eq_some_iff.mp hitem).1
          rw [List.getElem?_set_self hbound, hitem]
          exact .inr rfl
        · exact .inl (List.getElem?_set_ne heq)
  | everyone =>
      rw [wake_everyone hwoken]
      exact .inr List.getElem?_map

theorem tally_wake {measure : α → Nat} (hsame : ∀ item, measure (rouse item) = measure item)
    {wake : Wake} {sleeper : Nat} {items awake : List α}
    (hwoken : wake? isParked rouse wake sleeper items = some awake) :
    tally measure awake = tally measure items := by
  cases wake with
  | nobody =>
      cases hwoken
      rfl
  | one =>
      rcases wake_one hwoken with ⟨-, rfl⟩ | ⟨item, hitem, -, rfl⟩
      · rfl
      · have hset := Tally.tally_set measure hitem (rouse item)
        have hrouse := hsame item
        omega
  | everyone =>
      rw [wake_everyone hwoken]
      exact Tally.tally_map hsame items

/-! One of the list takes a step, and with it wakes others. -/

variable {wake : Wake} {sleeper index : Nat} {items awake : List α} {old new : α}

theorem tally_step (hold : items[index]? = some old)
    (hwoken : wake? isParked rouse wake sleeper (items.set index new) = some awake)
    {measure : α → Nat} (hsame : ∀ item, measure (rouse item) = measure item) :
    tally measure awake + measure old = tally measure items + measure new := by
  rw [tally_wake hsame hwoken]
  exact Tally.tally_set measure hold new

theorem getElem?_step (hold : items[index]? = some old)
    (hwoken : wake? isParked rouse wake sleeper (items.set index new) = some awake) {place : Nat}
    {moved : α} (hmoved : awake[place]? = some moved) :
    ∃ mid, (mid = new ∧ place = index ∨ items[place]? = some mid ∧ place ≠ index) ∧
      (moved = mid ∨ moved = rouse mid) := by
  have hmid : ∃ mid, (items.set index new)[place]? = some mid ∧
      (moved = mid ∨ moved = rouse mid) := by
    rcases wake_getElem? hwoken place with hsame | hrouse
    · exact ⟨moved, hsame ▸ hmoved, .inl rfl⟩
    · rw [hrouse, Option.map_eq_some_iff] at hmoved
      obtain ⟨mid, hmid, rfl⟩ := hmoved
      exact ⟨mid, hmid, .inr rfl⟩
  obtain ⟨mid, hmid, hmoved⟩ := hmid
  refine ⟨mid, ?_, hmoved⟩
  by_cases heq : index = place
  · subst heq
    have hbound := (List.getElem?_eq_some_iff.mp hold).1
    rw [List.getElem?_set_self hbound, Option.some.injEq] at hmid
    exact .inl ⟨hmid.symm, rfl⟩
  · rw [List.getElem?_set_ne heq] at hmid
    exact .inr ⟨hmid, fun hplace => heq hplace.symm⟩

theorem getElem?_awake (hold : items[index]? = some old)
    (hwoken : wake? isParked rouse wake sleeper (items.set index new) = some awake) {place : Nat}
    {item mid : α} (hitem : items[place]? = some item)
    (hmid : mid = if index = place then new else item) :
    awake[place]? = some mid ∨ awake[place]? = some (rouse mid) := by
  have hset : (items.set index new)[place]? = some mid := by
    rw [hmid]
    split
    next heq =>
      subst heq
      exact List.getElem?_set_self (List.getElem?_eq_some_iff.mp hold).1
    next hne => rw [List.getElem?_set_ne hne, hitem]
  rcases wake_getElem? hwoken place with hsame | hrouse
  · exact .inl (hsame.trans hset)
  · rw [hrouse, hset]
    exact .inr rfl

/-- What waking leaves alone is changed in one place by the step. -/
theorem map_getElem?_step (hold : items[index]? = some old)
    (hwoken : wake? isParked rouse wake sleeper (items.set index new) = some awake)
    {view : α → β} (hsame : ∀ item, view (rouse item) = view item) (place : Nat) :
    awake[place]?.map view = if place = index then some (view new) else items[place]?.map view := by
  have hset : awake[place]?.map view = (items.set index new)[place]?.map view := by
    rcases wake_getElem? hwoken place with heq | heq
    · rw [heq]
    · rw [heq, Option.map_map]
      congr 1
      exact funext hsame
  rw [hset]
  split
  next heq =>
    subst heq
    rw [List.getElem?_set_self (List.getElem?_eq_some_iff.mp hold).1, Option.map_some]
  next hne => rw [List.getElem?_set_ne fun heq => hne heq.symm]

theorem forall_step (hold : items[index]? = some old)
    (hwoken : wake? isParked rouse wake sleeper (items.set index new) = some awake)
    {holds : α → Prop} (hrouse : ∀ item, holds item → holds (rouse item))
    (hitems : ∀ item ∈ items, holds item) (hnew : holds new) : ∀ item ∈ awake, holds item := by
  intro moved hmem
  obtain ⟨place, hplace⟩ := List.getElem?_of_mem hmem
  obtain ⟨mid, hmid, hawake⟩ := getElem?_step hold hwoken hplace
  have hholds : holds mid := by
    rcases hmid with ⟨rfl, -⟩ | ⟨hmid, -⟩
    · exact hnew
    · exact hitems mid (List.mem_of_getElem? hmid)
  rcases hawake with rfl | rfl
  · exact hholds
  · exact hrouse mid hholds

end Pooling.Waking
