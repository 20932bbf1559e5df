/-!
Sums of a measure over a list, and what becomes of them when one item changes.
-/

namespace Pooling

variable {α : Type u}

def tally (measure : α → Nat) : List α → Nat
  | [] => 0
  | item :: items => measure item + tally measure items

namespace Tally

@[simp] theorem tally_nil (measure : α → Nat) : tally measure [] = 0 := rfl

@[simp] theorem tally_cons (measure : α → Nat) (item : α) (items : List α) :
    tally measure (item :: items) = measure item + tally measure items := rfl

@[simp] theorem tally_append (measure : α → Nat) (first second : List α) :
    tally measure (first ++ second) = tally measure first + tally measure second := by
  induction first with
  | nil => simp
  | cons item first ih => simp [ih, Nat.add_assoc]

theorem tally_set (measure : α → Nat) {items : List α} {index : Nat} {item : α}
    (hitem : items[index]? = some item) (new : α) :
    tally measure (items.set index new) + measure item = tally measure items + measure new := by
  induction items generalizing index with
  | nil => simp at hitem
  | cons first items ih =>
      cases index with
      | zero =>
          have heq : first = item := by simpa using hitem
          subst heq
          simp only [List.set_cons_zero, tally_cons]
          omega
      | succ index =>
          have ih := ih (by simpa using hitem)
          simp only [List.set_cons_succ, tally_cons]
          omega

theorem tally_eraseIdx (measure : α → Nat) {items : List α} {index : Nat} {item : α}
    (hitem : items[index]? = some item) :
    tally measure (items.eraseIdx index) + measure item = tally measure items := by
  induction items generalizing index with
  | nil => simp at hitem
  | cons first items ih =>
      cases index with
      | zero =>
          have heq : first = item := by simpa using hitem
          subst heq
          simp only [List.eraseIdx_cons_zero, tally_cons]
          omega
      | succ index =>
          have ih := ih (by simpa using hitem)
          simp only [List.eraseIdx_cons_succ, tally_cons]
          omega

theorem tally_map {measure : α → Nat} {change : α → α}
    (hsame : ∀ item, measure (change item) = measure item) (items : List α) :
    tally measure (items.map change) = tally measure items := by
  induction items with
  | nil => rfl
  | cons item items ih => simp only [List.map_cons, tally_cons, ih, hsame]

theorem le_tally (measure : α → Nat) {items : List α} {item : α} (hmem : item ∈ items) :
    measure item ≤ tally measure items := by
  induction items with
  | nil => cases hmem
  | cons first items ih =>
      rw [tally_cons]
      rcases List.mem_cons.mp hmem with rfl | hmem
      · omega
      · have := ih hmem
        omega

theorem tally_eq_zero_iff {measure : α → Nat} {items : List α} :
    tally measure items = 0 ↔ ∀ item ∈ items, measure item = 0 := by
  induction items with
  | nil => simp
  | cons item items ih => simp [ih]

theorem tally_add (first second : α → Nat) (items : List α) :
    tally (fun item => first item + second item) items =
      tally first items + tally second items := by
  induction items with
  | nil => rfl
  | cons item items ih =>
      simp only [tally_cons, ih]
      omega

theorem tally_mono {first second : α → Nat} (hle : ∀ item, first item ≤ second item)
    (items : List α) : tally first items ≤ tally second items := by
  induction items with
  | nil => exact Nat.le_refl _
  | cons item items ih => exact Nat.add_le_add (hle item) ih

/-- Where one item has all of a greater measure, it has all of a lesser one. -/
theorem tally_eq_of_alone {measure greater : α → Nat} (hle : ∀ item, measure item ≤ greater item)
    {items : List α} {index : Nat} {item : α} (hitem : items[index]? = some item)
    (halone : tally greater items ≤ greater item) : tally measure items = measure item := by
  have hrest := tally_eraseIdx measure hitem
  have hgreater := tally_eraseIdx greater hitem
  have hmono := tally_mono hle (items.eraseIdx index)
  omega

/-- A tally of one leaves room for one item only. -/
theorem eq_of_tally_le_one {measure : α → Nat} {items : List α} (hle : tally measure items ≤ 1)
    {first second : Nat} {item other : α} (hitem : items[first]? = some item)
    (hother : items[second]? = some other) (hpos : 0 < measure item)
    (hotherPos : 0 < measure other) : first = second := by
  induction items generalizing first second with
  | nil => simp at hitem
  | cons head items ih =>
      rw [tally_cons] at hle
      cases first with
      | zero =>
          cases second with
          | zero => rfl
          | succ second =>
              have heq : head = item := by simpa using hitem
              have hmem := List.mem_of_getElem? (List.getElem?_cons_succ ▸ hother)
              have htally := le_tally measure hmem
              subst heq
              omega
      | succ first =>
          have hmem := List.mem_of_getElem? (List.getElem?_cons_succ ▸ hitem)
          have htally := le_tally measure hmem
          cases second with
          | zero =>
              have heq : head = other := by simpa using hother
              subst heq
              omega
          | succ second =>
              have ih := ih (by omega) (by simpa using hitem) (by simpa using hother)
              rw [ih]

theorem length_flatMap_eq_tally (parts : α → List β) (items : List α) :
    (items.flatMap parts).length = tally (fun item => (parts item).length) items := by
  induction items with
  | nil => rfl
  | cons item items ih => rw [List.flatMap_cons, List.length_append, tally_cons, ih]

theorem count_flatMap_eq_tally [DecidableEq β] (parts : α → List β) (items : List α) (value : β) :
    (items.flatMap parts).count value = tally (fun item => (parts item).count value) items := by
  induction items with
  | nil => rfl
  | cons item items ih => rw [List.flatMap_cons, List.count_append, tally_cons, ih]

end Tally

end Pooling
