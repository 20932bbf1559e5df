import Mathlib.Data.List.Nodup
import Pooling.Proofs.Metrics.Readback

/-!
Reading back what is exposed of a snapshot. The text says all of it under the pool's name and tags
if and only if no value of theirs has a character in it that has to be escaped.
-/

namespace Pooling.Exposition

/-! The numbers of a snapshot. -/

theorem isDigit_of_mem_toDigits {count : Nat} {char : Char}
    (hmem : char ∈ Nat.toDigits 10 count) : char.isDigit = true :=
  Nat.isDigit_of_mem_toDigits (by decide) (by decide) hmem

theorem number?_toString (count : Nat) :
    number? (toString count).toList = some (.decimal false count 0) := by
  rw [Nat.toString_eq_repr, Nat.toList_repr]
  have hdigits : ∀ char ∈ Nat.toDigits 10 count, char.isDigit = true :=
    fun char => isDigit_of_mem_toDigits
  obtain ⟨first, rest, hchars⟩ :=
    List.exists_cons_of_ne_nil (Nat.toDigits_ne_nil (n := count) (b := 10))
  have hfirst := hdigits first (by simp [hchars])
  have hread : number? (first :: rest) = decimal? false (first :: rest) :=
    number?_digits false hfirst rest
  rw [hchars, hread, ← hchars, decimal?_digits false Nat.toDigits_ne_nil hdigits,
    Nat.ofDigitChars_ten_toDigits]

theorem toDigits_hundred {count : Nat} (hcount : count < 100) :
    Nat.toDigits 10 (100 + count) =
      ['1', Nat.digitChar (count / 10), Nat.digitChar (count % 10)] := by
  have htens := Nat.toDigits_append_toDigits (b := 10) (n := 1) (d := count / 10) (by decide)
    (by decide) (by omega)
  have hones := Nat.toDigits_append_toDigits (b := 10) (n := 10 + count / 10) (d := count % 10)
    (by decide) (by omega) (by omega)
  have heq : 10 * (10 + count / 10) + count % 10 = 100 + count := by omega
  rw [heq, ← htens] at hones
  rw [← hones, Nat.toDigits_of_lt_base (n := 1) (by decide),
    Nat.toDigits_of_lt_base (n := count / 10) (by omega),
    Nat.toDigits_of_lt_base (n := count % 10) (by omega)]
  rfl

/-- A finite value in hundredths, to the even one halfway between two. -/
def hundredths (value : Binary64) : Nat := Rounding.halfEven (value.ratio.1 * 100) value.ratio.2

/-- A value to two places. -/
def rounded (value : Binary64) : Number :=
  if value.isNaN then .nan
  else if value.isInfinite then .infinite value.negative
  else .decimal value.negative (hundredths value) (-2)

theorem toList_twoPlaces {value : Binary64} (hnumber : value.isNaN = false)
    (hfinite : value.isInfinite = false) :
    value.twoPlaces.toList =
      (if value.negative then ['-'] else []) ++
        (Nat.toDigits 10 (hundredths value / 100) ++
          '.' :: [Nat.digitChar (hundredths value % 100 / 10),
            Nat.digitChar (hundredths value % 10)]) := by
  have hplaces := toDigits_hundred (Nat.mod_lt (hundredths value) (y := 100) (by decide))
  have hsign : (if value.negative then "-" else "").toList =
      if value.negative then ['-'] else [] := by
    split <;> rfl
  unfold Binary64.twoPlaces
  rw [if_neg (ne_true_of_eq_false hnumber), if_neg (ne_true_of_eq_false hfinite)]
  show (_ ++ toString (hundredths value / 100) ++ "." ++
    String.ofList ((Nat.toDigits 10 (100 + hundredths value % 100)).drop 1)).toList = _
  rw [hplaces]
  simp [hsign]

theorem isDigit_digitChar {digit : Nat} (hdigit : digit < 10) :
    digit.digitChar.isDigit = true := by
  have hmem : digit.digitChar ∈ Nat.toDigits 10 digit := by
    rw [Nat.toDigits_of_lt_base hdigit]
    exact List.mem_singleton_self _
  exact isDigit_of_mem_toDigits hmem

theorem number?_twoPlaces (value : Binary64) :
    number? value.twoPlaces.toList = some (rounded value) := by
  by_cases hnumber : value.isNaN = true
  · rw [rounded, if_pos hnumber, Binary64.twoPlaces, if_pos hnumber]
    rfl
  rw [rounded, if_neg hnumber]
  by_cases hfinite : value.isInfinite = true
  · rw [if_pos hfinite, Binary64.twoPlaces, if_neg hnumber]
    simp only [hfinite, if_true]
    cases value.negative <;> rfl
  rw [if_neg hfinite,
    toList_twoPlaces (eq_false_of_ne_true hnumber) (eq_false_of_ne_true hfinite)]
  generalize hundredths value = count
  have htens : count % 100 / 10 < 10 := by omega
  have hones : count % 10 < 10 := by omega
  have hplaces : ∀ char ∈ [Nat.digitChar (count % 100 / 10), Nat.digitChar (count % 10)],
      char.isDigit = true := by
    simp [isDigit_digitChar htens, isDigit_digitChar hones]
  have hwhole : ∀ char ∈ Nat.toDigits 10 (count / 100), char.isDigit = true :=
    fun char => isDigit_of_mem_toDigits
  have hdigits : Nat.ofDigitChars 10 (Nat.toDigits 10 (count / 100) ++
      [Nat.digitChar (count % 100 / 10), Nat.digitChar (count % 10)]) 0 = count := by
    rw [Nat.ofDigitChars_append, Nat.ofDigitChars_ten_toDigits,
      Nat.ofDigitChars_cons_digitChar_of_lt_ten htens,
      Nat.ofDigitChars_cons_digitChar_of_lt_ten hones, Nat.ofDigitChars_nil]
    omega
  have hread := decimal?_places value.negative Nat.toDigits_ne_nil hwhole hplaces
  rw [hdigits] at hread
  obtain ⟨first, rest, hchars⟩ :=
    List.exists_cons_of_ne_nil (Nat.toDigits_ne_nil (n := count / 100) (b := 10))
  rw [hchars, List.cons_append] at hread ⊢
  rw [number?_digits value.negative (hwhole first (by simp [hchars])), hread]
  rfl

theorem isInk_of_isDigit {char : Char} (hdigit : char.isDigit = true) : isInk char = true :=
  isInk_of_isMetricPart (Bool.or_eq_true_iff.mpr (.inr hdigit))

theorem isInk_toString (count : Nat) : (toString count).toList.all isInk = true := by
  rw [Nat.toString_eq_repr, Nat.toList_repr, List.all_eq_true]
  exact fun char hmem => isInk_of_isDigit (isDigit_of_mem_toDigits hmem)

theorem isInk_twoPlaces (value : Binary64) : value.twoPlaces.toList.all isInk = true := by
  by_cases hnumber : value.isNaN = true
  · rw [Binary64.twoPlaces, if_pos hnumber]
    rfl
  by_cases hfinite : value.isInfinite = true
  · rw [Binary64.twoPlaces, if_neg hnumber]
    simp only [hfinite, if_true]
    cases value.negative <;> rfl
  rw [toList_twoPlaces (eq_false_of_ne_true hnumber) (eq_false_of_ne_true hfinite),
    List.all_eq_true]
  intro char hmem
  rcases List.mem_append.mp hmem with hsign | hmem
  · split at hsign
    · rw [List.mem_singleton.mp hsign]
      rfl
    · cases hsign
  rcases List.mem_append.mp hmem with hwhole | hplaces
  · exact isInk_of_isDigit (isDigit_of_mem_toDigits hwhole)
  have htens : hundredths value % 100 / 10 < 10 := by omega
  have hones : hundredths value % 10 < 10 := by omega
  simp only [List.mem_cons, List.not_mem_nil, or_false] at hplaces
  rcases hplaces with rfl | rfl | rfl
  · rfl
  · exact isInk_of_isDigit (isDigit_digitChar htens)
  · exact isInk_of_isDigit (isDigit_digitChar hones)

/-- So many hundredths are at most half a hundredth away from the absolute value. -/
def IsNear (value : Binary64) (count : Nat) : Prop :=
  2 * (value.ratio.1 * 100) ≤ 2 * (count * value.ratio.2) + value.ratio.2 ∧
    2 * (count * value.ratio.2) ≤ 2 * (value.ratio.1 * 100) + value.ratio.2

theorem isNear_hundredths (value : Binary64) : IsNear value (hundredths value) := by
  refine Rounding.halfEven_near ?_
  rw [Binary64.ratio]
  generalize (if value.magnitude >>> 52 = 0 then (-1074 : Int) else _) = power
  split
  · exact Nat.one_pos
  · show 0 < 1 <<< (-power).toNat
    rw [Nat.shiftLeft_eq, Nat.one_mul]
    exact Nat.two_pow_pos _

/-! What is told of a snapshot. -/

def Figure.count (name help : String) (type : MetricType) (count : Nat) : Figure :=
  ⟨name, help, type, .decimal false count 0⟩

def figures (snapshot : Snapshot) : List Figure :=
  [.count "resourcepool_resources_live" "Resources owned by the pool" .gauge snapshot.live,
    .count "resourcepool_resources_available" "Resources waiting in the pool" .gauge
      snapshot.available,
    .count "resourcepool_resources_in_use" "Resources checked out" .gauge snapshot.inUse,
    ⟨"resourcepool_utilization", "Checked-out share of capacity", .gauge,
      rounded snapshot.utilization⟩,
    .count "resourcepool_acquired_total" "Total resources acquired" .counter
      snapshot.totals.acquired.toNat,
    .count "resourcepool_released_total" "Total resources released" .counter
      snapshot.totals.released.toNat,
    .count "resourcepool_created_total" "Total resources created" .counter
      snapshot.totals.created.toNat,
    .count "resourcepool_unhealthy_total" "Resources discarded as unhealthy" .counter
      snapshot.totals.unhealthy.toNat,
    .count "resourcepool_gc_total" "Resources garbage collected" .counter
      snapshot.totals.collected.toNat,
    .count "resourcepool_timeouts_total" "Acquisitions that timed out" .counter
      snapshot.totals.timeouts.toNat]

/-- One line of help, one of type and one sample for each figure. -/
def told (snapshot : Snapshot) (labels : Labels) : List Line :=
  (figures snapshot).flatMap (Figure.lines labels)

theorem tells_of_words {name help value : String} {type : MetricType} {number : Number}
    (hwords : isMetricName name = true ∧ isPlain help.toList = true ∧
      help.toList.head?.any isBlank = false)
    (hinked : value.toList.all isInk = true)
    (hvalued : number? value.toList = some number) :
    Metric.Tells ⟨name, help, type, value⟩ ⟨name, help, type, number⟩ where
  name_eq := rfl
  help_eq := rfl
  type_eq := rfl
  named := hwords.1
  helped := hwords.2.1
  starts := hwords.2.2
  inked := hinked
  valued := hvalued

theorem tells_count {name help : String} {type : MetricType}
    (hwords : isMetricName name = true ∧ isPlain help.toList = true ∧
      help.toList.head?.any isBlank = false) (count : Nat) :
    Metric.Tells ⟨name, help, type, toString count⟩ (.count name help type count) :=
  tells_of_words hwords (isInk_toString count) (number?_toString count)

theorem metrics_tell (snapshot : Snapshot) :
    List.Forall₂ Metric.Tells (metrics snapshot) (figures snapshot) := by
  have hutilization : Metric.Tells
      ⟨"resourcepool_utilization", "Checked-out share of capacity", .gauge,
        snapshot.utilization.twoPlaces⟩
      ⟨"resourcepool_utilization", "Checked-out share of capacity", .gauge,
        rounded snapshot.utilization⟩ :=
    tells_of_words (by decide) (isInk_twoPlaces snapshot.utilization)
      (number?_twoPlaces snapshot.utilization)
  refine .cons ?_ (.cons ?_ (.cons ?_ (.cons hutilization (.cons ?_ (.cons ?_ (.cons ?_
    (.cons ?_ (.cons ?_ (.cons ?_ .nil)))))))))
  all_goals exact tells_count (by decide) _

theorem isOrderly_told (snapshot : Snapshot) (labels : Labels) :
    isOrderly (told snapshot labels) = true := by
  have hnodup : ((figures snapshot).map Figure.name).Nodup := by
    show List.Nodup ["resourcepool_resources_live", "resourcepool_resources_available",
      "resourcepool_resources_in_use", "resourcepool_utilization", "resourcepool_acquired_total",
      "resourcepool_released_total", "resourcepool_created_total", "resourcepool_unhealthy_total",
      "resourcepool_gc_total", "resourcepool_timeouts_total"]
    decide
  rw [isOrderly, decide_eq_true_iff, told, List.pairwise_flatMap]
  refine ⟨fun figure _ => by simp [Figure.lines, Line.clashes], ?_⟩
  refine (List.pairwise_map.mp hnodup).imp fun hne line hline other hother => ?_
  simp only [Figure.lines, List.mem_cons, List.not_mem_nil, or_false] at hline hother
  rcases hline with rfl | rfl | rfl <;> rcases hother with rfl | rfl | rfl <;>
    simp [Line.clashes, hne]

theorem exists_utilization {snapshot : Snapshot} (hnumber : snapshot.utilization.isNaN = false)
    (hfinite : snapshot.utilization.isInfinite = false) (labels : Labels) :
    ∃ count, IsNear snapshot.utilization count ∧
      .sample "resourcepool_utilization" labels
        (.decimal snapshot.utilization.negative count (-2)) none ∈ told snapshot labels := by
  refine ⟨hundredths snapshot.utilization, isNear_hundredths _, ?_⟩
  have hvalue : rounded snapshot.utilization =
      .decimal snapshot.utilization.negative (hundredths snapshot.utilization) (-2) := by
    rw [rounded, if_neg (ne_true_of_eq_false hnumber), if_neg (ne_true_of_eq_false hfinite)]
  rw [← hvalue]
  exact List.mem_flatMap.mpr ⟨⟨"resourcepool_utilization", "Checked-out share of capacity", .gauge,
    rounded snapshot.utilization⟩, by simp [figures], by simp [Figure.lines]⟩

/-! Labels of a pool. -/

/-- The tags of a pool as they may be: names of labels, each once and none of them the one under
which the pool's own name stands. -/
structure Tagging (tags : List (String × String)) : Prop where
  named : ∀ tag ∈ tags, isLabelName tag.1 = true
  foreign : ∀ tag ∈ tags, tag.1 ≠ "pool"
  nodup : (tags.map Prod.fst).Nodup

theorem labelsOf_perm (pool : String) (tags : List (String × String)) :
    (labelsOf pool tags).Perm (("pool", pool) :: tags) :=
  (List.mergeSort_perm tags _).cons _

theorem isLabelName_pool : isLabelName "pool" = true := by decide

theorem forall_mem_labelsOf {pool : String} {tags : List (String × String)}
    {holds : String × String → Prop} :
    (∀ pair ∈ labelsOf pool tags, holds pair) ↔ holds ("pool", pool) ∧ ∀ tag ∈ tags, holds tag := by
  rw [← List.forall_mem_cons]
  exact forall_congr' fun pair => by rw [(labelsOf_perm pool tags).mem_iff]

namespace Tagging

variable {tags : List (String × String)} (htags : Tagging tags)
include htags

theorem isLabelName_of_mem_labelsOf (pool : String) :
    ∀ pair ∈ labelsOf pool tags, isLabelName pair.1 = true :=
  forall_mem_labelsOf.mpr ⟨isLabelName_pool, htags.named⟩

theorem nodup_labelsOf (pool : String) : ((labelsOf pool tags).map Prod.fst).Nodup := by
  rw [((labelsOf_perm pool tags).map Prod.fst).nodup_iff, List.map_cons, List.nodup_cons]
  refine ⟨fun hmem => ?_, htags.nodup⟩
  obtain ⟨tag, htag, hname⟩ := List.mem_map.mp hmem
  exact htags.foreign tag htag hname

end Tagging

theorem eq_of_labelsOf_perm {pool other : String} {tags others : List (String × String)}
    (hothers : Tagging others) (hperm : (labelsOf pool tags).Perm (labelsOf other others)) :
    pool = other ∧ tags.Perm others := by
  have hperm := (labelsOf_perm pool tags).symm.trans (hperm.trans (labelsOf_perm other others))
  obtain rfl : pool = other := by
    rcases List.mem_cons.mp (hperm.mem_iff.mp List.mem_cons_self) with heq | hmem
    · exact (Prod.mk.inj heq).2
    · exact absurd rfl (hothers.foreign _ hmem)
  exact ⟨rfl, hperm.cons_inv⟩

/-- Nothing in the values of the labels has to be escaped. -/
def Unescaped (pool : String) (tags : List (String × String)) : Prop :=
  isPlain pool.toList = true ∧ ∀ tag ∈ tags, isPlain tag.2.toList = true

theorem isPlain_of_mem_labelsOf {pool : String} {tags : List (String × String)} :
    (∀ pair ∈ labelsOf pool tags, isPlain pair.2.toList = true) ↔ Unescaped pool tags :=
  forall_mem_labelsOf

theorem labelsOf_escaped (pool : String) (tags : List (String × String)) :
    labelsOf (String.ofList (escaped pool.toList)) (tags.map escapedLabel) =
      (labelsOf pool tags).map escapedLabel := by
  have hsort := List.map_mergeSort (f := escapedLabel) (l := tags)
    (r := fun first second => first.1 ≤ second.1) (s := fun first second => first.1 ≤ second.1)
    fun _ _ _ _ => rfl
  rw [labelsOf, labelsOf, List.map_cons, hsort]
  rfl

/-! Reading a snapshot back. -/

/-- How a pool with these tags is exposed. -/
structure Legible (pool : String) (tags : List (String × String)) : Prop where
  /-- The text of a snapshot is read as it is meant if and only if nothing has to be escaped. -/
  reads_iff : ∀ snapshot,
    read? (render snapshot pool tags) = some (told snapshot (labelsOf pool tags)) ↔
      Unescaped pool tags
  /-- It is always read as it is meant if whoever calls has escaped what has to be. -/
  reads_escaped : ∀ snapshot,
    read? (render snapshot (String.ofList (escaped pool.toList)) (tags.map escapedLabel)) =
      some (told snapshot (labelsOf pool tags))
  /-- A finite utilization is meant in hundredths. -/
  rounds : ∀ snapshot, snapshot.utilization.isNaN = false →
    snapshot.utilization.isInfinite = false → ∃ count, IsNear snapshot.utilization count ∧
      .sample "resourcepool_utilization" (labelsOf pool tags)
        (.decimal snapshot.utilization.negative count (-2)) none ∈
          told snapshot (labelsOf pool tags)
  labels_perm : (labelsOf pool tags).Perm (("pool", pool) :: tags)
  /-- Nobody else's series have the same labels. -/
  apart : ∀ {other others}, Tagging others → (labelsOf pool tags).Perm (labelsOf other others) →
    pool = other ∧ tags.Perm others
  /-- Nobody else's series are written the same, as long as nothing has to be escaped. -/
  apart_text : ∀ {other others}, Tagging others → Unescaped pool tags → Unescaped other others →
    labelText (labelsOf pool tags) = labelText (labelsOf other others) →
      pool = other ∧ tags.Perm others

section

variable {pool : String} {tags : List (String × String)} (htags : Tagging tags)
include htags

theorem read?_render_iff (snapshot : Snapshot) :
    read? (render snapshot pool tags) = some (told snapshot (labelsOf pool tags)) ↔
      Unescaped pool tags := by
  -- Whatever is told of a snapshot is in order, so that reading can only fail at a line.
  rw [← isPlain_of_mem_labelsOf, ← lines?_join_iff (htags.isLabelName_of_mem_labelsOf pool)
    (htags.nodup_labelsOf pool) (metrics_tell snapshot) (List.cons_ne_nil _ _)]
  exact Option.filter_eq_some_iff.trans (and_iff_left (isOrderly_told snapshot _))

theorem read?_render_escaped (snapshot : Snapshot) :
    read? (render snapshot (String.ofList (escaped pool.toList)) (tags.map escapedLabel)) =
      some (told snapshot (labelsOf pool tags)) := by
  have hlines := lines?_escaped (htags.isLabelName_of_mem_labelsOf pool)
    (htags.nodup_labelsOf pool) (metrics_tell snapshot)
  rw [← labelsOf_escaped] at hlines
  exact Option.filter_eq_some_iff.mpr ⟨hlines, isOrderly_told snapshot _⟩

theorem labelsOf_eq_of_labelText (hplain : Unescaped pool tags) {other : String}
    {others : List (String × String)} (hothers : Tagging others)
    (hunescaped : Unescaped other others)
    (htext : labelText (labelsOf pool tags) = labelText (labelsOf other others)) :
    labelsOf pool tags = labelsOf other others := by
  have hfirst := labels?_escaped (htags.isLabelName_of_mem_labelsOf pool) []
  have hsecond := labels?_escaped (hothers.isLabelName_of_mem_labelsOf other) []
  rw [map_escapedLabel (isPlain_of_mem_labelsOf.mpr hplain), htext] at hfirst
  rw [map_escapedLabel (isPlain_of_mem_labelsOf.mpr hunescaped)] at hsecond
  exact (Prod.mk.inj (Option.some.inj (hfirst.symm.trans hsecond))).1

theorem legible_of_tagging (pool : String) : Legible pool tags where
  reads_iff := read?_render_iff htags
  reads_escaped := read?_render_escaped htags
  rounds _ hnumber hfinite := exists_utilization hnumber hfinite _
  labels_perm := labelsOf_perm pool tags
  apart hothers hperm := eq_of_labelsOf_perm hothers hperm
  apart_text hothers hplain hunescaped htext := by
    refine eq_of_labelsOf_perm hothers ?_
    rw [labelsOf_eq_of_labelText htags hplain hothers hunescaped htext]

end

theorem tagging_single {name : String} (hname : isLabelName name = true) (hpool : name ≠ "pool")
    (value : String) : Tagging [(name, value)] where
  named := List.forall_mem_singleton.mpr hname
  foreign := List.forall_mem_singleton.mpr hpool
  nodup := List.nodup_singleton name

theorem legible_of_region : isLabelName "region" = true ∧ Legible "clients" [("region", "eu")] :=
  ⟨by decide, legible_of_tagging (tagging_single (by decide) (by decide) "eu") "clients"⟩

/-- A quote in a name is taken for its end, and what follows does not go on from there. -/
theorem read?_eq_none {pool : String} {value rest : List Char} {sign : Char}
    (hpool : pool.toList = value ++ '"' :: sign :: rest) (hplain : isPlain value = true)
    (hsign : isBlank sign = false) (hcomma : sign ≠ ',') (hbrace : sign ≠ '\x7d')
    (snapshot : Snapshot) (tags : List (String × String)) :
    read? (render snapshot pool tags) = none := by
  have hlabels : ∀ more, labels? ((labelText (labelsOf pool tags)).toList ++ more) = none :=
    fun more => labels?_eq_none isLabelName_pool hpool hplain hsign hcomma hbrace _ more
  have hlines := lines?_join_eq_none hlabels (metrics_tell snapshot) (List.cons_ne_nil _ _)
  rw [read?, render, hlines, Option.filter_none]

theorem render_congr {pool other : String} {tags others : List (String × String)}
    (htext : labelText (labelsOf pool tags) = labelText (labelsOf other others))
    (snapshot : Snapshot) : render snapshot pool tags = render snapshot other others := by
  have hwrite : write (labelsOf pool tags) = write (labelsOf other others) := by
    funext metric
    rw [write, write, sampleLine, sampleLine, htext]
  rw [render, render, hwrite]

/-- A pool that is called a"b is not read at all, one whose name has a backslash and an n in it is
read as another with a line feed there, and one that is called a",x="b cannot be told from the
pool a with a tag x. -/
theorem illegible_of_quotes :
    (∀ snapshot, read? (render snapshot "a\"b" []) = none) ∧
      (∀ snapshot, read? (render snapshot "a\\nb" []) =
        some (told snapshot (labelsOf "a\nb" []))) ∧
      Tagging [("x", "b")] ∧ "a\",x=\"b" ≠ "a" ∧
      ∀ snapshot, render snapshot "a\",x=\"b" [] = render snapshot "a" [("x", "b")] := by
  have hnone : Tagging [] := ⟨by simp, by simp, List.nodup_nil⟩
  have htext : labelText (labelsOf "a\",x=\"b" []) = labelText (labelsOf "a" [("x", "b")]) := by
    simp [labelText, labelsOf, label]
  refine ⟨fun snapshot => ?_, fun snapshot => ?_,
    tagging_single (by decide) (by decide) "b", by decide, render_congr htext⟩
  · have hpool : "a\"b".toList = ['a'] ++ '"' :: 'b' :: [] := rfl
    exact read?_eq_none hpool rfl rfl (by decide) (by decide) snapshot []
  · have hescaped : String.ofList (escaped "a\nb".toList) = "a\\nb" := rfl
    rw [← hescaped]
    exact read?_render_escaped hnone snapshot

end Pooling.Exposition
