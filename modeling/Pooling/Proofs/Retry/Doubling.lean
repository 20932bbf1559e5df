import Pooling.Proofs.Retry.Grants
import Pooling.Proofs.Retry.Jitter
import Pooling.Retry.Wait

/-!
The waits of the exponential strategy, one after another: the first one doubled as often as there
were waits before it, below the cap, and its jitter.
-/

namespace Pooling

namespace Words

def past (words : Words) (count : Nat) : Words := { words with used := words.used + count }

theorem ahead_eq (words : Words) (count : Nat) : words.ahead count =
    (words.list[(words.used + count) % words.list.length]?).getD 0 := by
  induction count generalizing words with
  | zero => rfl
  | succ count ih =>
      rw [ahead, ih, used_next, list_next, Nat.add_right_comm, Nat.add_assoc]

theorem next_past (words : Words) (count : Nat) :
    (words.past count).next = (words.ahead count, words.past (count + 1)) := by
  rw [ahead_eq]
  rfl

end Words

namespace Duration

theorem add?_eq_some_iff {first second sum : Duration} :
    first.add? second = some sum ↔ sum.nanos = first.nanos + second.nanos := by
  rw [add?]
  split
  next hfits =>
    rw [Option.some.injEq]
    exact ⟨fun heq => heq ▸ rfl, fun heq => ext_nanos heq.symm⟩
  next hlong =>
    refine ⟨fun heq => ?_, fun heq => absurd (heq ▸ sum.le_max) hlong⟩
    cases heq

theorem add?_eq_none_iff {first second : Duration} :
    first.add? second = none ↔ maxNanos < first.nanos + second.nanos := by
  rw [add?]
  split
  next hfits =>
    refine ⟨fun heq => ?_, fun hlong => absurd hfits (Nat.not_le.mpr hlong)⟩
    cases heq
  next hlong => exact ⟨fun _ => Nat.lt_of_not_le hlong, fun _ => rfl⟩

end Duration

namespace ExponentialWait

/-- The definition as an equation of functions: of their values it would be checked by adding up. -/
theorem jittered_def : jittered = fun wait =>
    match wait.next.add? (.ofMillis (jitter wait.next.millis wait.words.next.1)) with
    | some span => .ok span
    | none => .error .spanOverflow := by
  delta jittered
  rfl

section

variable (initial cap : Duration)

/-- A wait before its jitter, by the number of waits before it. The cap is for all but the first. -/
def base : Nat → Duration
  | 0 => max initial (.ofMillis 1)
  | made + 1 => min (.ofNanos (2 ^ (made + 1) * (max initial (.ofMillis 1)).nanos)) cap

@[simp] theorem nanos_base_zero : (base initial cap 0).nanos = max initial.nanos 1000000 :=
  Duration.nanos_max _ _

theorem nanos_base_succ (made : Nat) : (base initial cap (made + 1)).nanos =
    min (min (2 ^ (made + 1) * (base initial cap 0).nanos) Duration.maxNanos) cap.nanos :=
  Duration.nanos_min _ _

theorem base_succ_le (made : Nat) : base initial cap (made + 1) ≤ cap := by
  rw [Duration.le_iff, nanos_base_succ]
  exact Nat.min_le_right _ _

/-- A cap below the first wait takes its place; any other leaves each wait no shorter than it. -/
theorem min_cap_le_base (made : Nat) :
    min cap (base initial cap 0) ≤ base initial cap made := by
  rw [Duration.le_iff, Duration.nanos_min]
  cases made with
  | zero => exact Nat.min_le_right _ _
  | succ made =>
      have hpow : 1 * (base initial cap 0).nanos ≤ 2 ^ (made + 1) * (base initial cap 0).nanos :=
        Nat.mul_le_mul_right _ Nat.one_le_two_pow
      have hmax := (base initial cap 0).le_max
      rw [nanos_base_succ]
      omega

theorem base_le_max (made : Nat) :
    base initial cap made ≤ max (base initial cap 0) cap := by
  rw [Duration.le_iff, Duration.nanos_max]
  cases made with
  | zero => exact Nat.le_max_left _ _
  | succ made =>
      have hle := Duration.le_iff.mp (base_succ_le initial cap made)
      exact hle.trans (Nat.le_max_right _ _)

theorem doubled_base (made : Nat) :
    min (base initial cap made).doubled cap = base initial cap (made + 1) := by
  apply Duration.ext_nanos
  rw [Duration.nanos_min, Duration.nanos_doubled, nanos_base_succ]
  cases made with
  | zero => rfl
  | succ made =>
      rw [nanos_base_succ, Nat.pow_succ 2 (made + 1), Nat.mul_right_comm]
      omega

variable (skipInitial : Bool) (words : Words)

/-- Where a strategy stands after so many waits, the skipped ones not counted. -/
def standing (made : Nat) : ExponentialWait :=
  ⟨base initial cap made, cap, skipInitial, words.past made⟩

theorem standing_zero :
    standing initial cap skipInitial words 0 = start initial cap skipInitial words := rfl

/-- The nanoseconds of a wait and its jitter, whether a span can be that long or not. -/
def length (made : Nat) : Nat :=
  (base initial cap made).nanos +
    (jitter (base initial cap made).millis (words.ahead made)).toNat * 1000000

theorem base_le_length (made : Nat) :
    (base initial cap made).nanos ≤ length initial cap words made :=
  Nat.le_add_right _ _

theorem length_le_withTenth (made : Nat) :
    length initial cap words made ≤ (base initial cap made).withTenth :=
  (base initial cap made).jitter_le_withTenth (words.ahead made)

/-- Where the longest wait and a tenth fit in a span, so does every wait with its jitter. -/
theorem length_le_of_fits
    (hfits : (max (base initial cap 0) cap).withTenth ≤ Duration.maxNanos) (made : Nat) :
    length initial cap words made ≤ Duration.maxNanos :=
  (length_le_withTenth initial cap words made).trans
    ((Duration.withTenth_mono (base_le_max initial cap made)).trans hfits)

theorem doubled_standing (made : Nat) : (standing initial cap skipInitial words made).doubled =
    standing initial cap skipInitial words (made + 1) := by
  rw [doubled, standing, words.next_past, doubled_base]
  rfl

end

section

variable {initial cap : Duration} {skipInitial : Bool} {words : Words} {made : Nat}

theorem jittered_of_le (hfits : length initial cap words made ≤ Duration.maxNanos) :
    (standing initial cap skipInitial words made).jittered =
      .ok ⟨length initial cap words made, hfits⟩ := by
  have hsum : (base initial cap made).add?
      (.ofMillis (jitter (base initial cap made).millis (words.ahead made))) =
        some ⟨length initial cap words made, hfits⟩ := Duration.add?_eq_some_iff.mpr rfl
  simp only [jittered_def, standing, words.next_past, hsum]

theorem jittered_of_lt (hlong : Duration.maxNanos < length initial cap words made) :
    (standing initial cap skipInitial words made).jittered = .error .spanOverflow := by
  have hsum : (base initial cap made).add?
      (.ofMillis (jitter (base initial cap made).millis (words.ahead made))) = none :=
    Duration.add?_eq_none_iff.mpr hlong
  simp only [jittered_def, standing, words.next_past, hsum]

theorem jittered_eq_ok_iff {span : Duration} :
    (standing initial cap skipInitial words made).jittered = .ok span ↔
      span.nanos = length initial cap words made := by
  rcases Nat.lt_or_ge Duration.maxNanos (length initial cap words made) with hlong | hfits
  · rw [jittered_of_lt hlong]
    refine ⟨fun heq => ?_, fun heq => absurd span.le_max (Nat.not_le.mpr (heq ▸ hlong))⟩
    cases heq
  · rw [jittered_of_le hfits, Except.ok.injEq]
    exact ⟨fun heq => heq ▸ rfl, fun heq => Duration.ext_nanos heq.symm⟩

theorem exists_jittered_iff :
    (∃ span, (standing initial cap skipInitial words made).jittered = .ok span) ↔
      length initial cap words made ≤ Duration.maxNanos := by
  constructor
  · rintro ⟨span, hspan⟩
    exact jittered_eq_ok_iff.mp hspan ▸ span.le_max
  · intro hfits
    exact ⟨_, jittered_of_le hfits⟩

theorem jittered_eq_error_iff {abort : Abort} :
    (standing initial cap skipInitial words made).jittered = .error abort ↔
      abort = .spanOverflow ∧ Duration.maxNanos < length initial cap words made := by
  rcases Nat.lt_or_ge Duration.maxNanos (length initial cap words made) with hlong | hfits
  · rw [jittered_of_lt hlong, Except.error.injEq, eq_comm]
    exact (and_iff_left hlong).symm
  · rw [jittered_of_le hfits]
    refine ⟨fun heq => ?_, fun hboth => absurd hboth.2 (Nat.not_lt.mpr hfits)⟩
    cases heq

end

/-! Any calls, in any order. -/

def called (wait : ExponentialWait) (calls : List UInt32) : ExponentialWait :=
  calls.foldl (fun wait attempts => (wait.wait attempts).2) wait

/-- How many of the calls are not skipped. -/
def unskipped (skipInitial : Bool) (calls : List UInt32) : Nat :=
  calls.countP fun attempts => !(skipInitial && attempts ≤ 1)

theorem wait_skipped {wait : ExponentialWait} {attempts : UInt32}
    (hskips : wait.skips attempts = true) : wait.wait attempts = (.ok .zero, wait) := by
  rw [ExponentialWait.wait, if_pos hskips]

section

variable (initial cap : Duration) {skipInitial : Bool} (words : Words) (made : Nat)
  {attempts : UInt32}

theorem wait_standing_skipped (hskips : (skipInitial && attempts ≤ 1) = true) :
    (standing initial cap skipInitial words made).wait attempts =
      (.ok .zero, standing initial cap skipInitial words made) :=
  wait_skipped hskips

theorem wait_standing (htaken : (skipInitial && attempts ≤ 1) = false) :
    (standing initial cap skipInitial words made).wait attempts =
      ((standing initial cap skipInitial words made).jittered,
        standing initial cap skipInitial words (made + 1)) := by
  have hskips : ¬ (standing initial cap skipInitial words made).skips attempts = true :=
    Bool.eq_false_iff.mp htaken
  rw [ExponentialWait.wait, if_neg hskips, doubled_standing]

end

theorem called_standing (initial cap : Duration) (skipInitial : Bool) (words : Words)
    (calls : List UInt32) (made : Nat) :
    (standing initial cap skipInitial words made).called calls =
      standing initial cap skipInitial words (made + unskipped skipInitial calls) := by
  induction calls generalizing made with
  | nil => rfl
  | cons attempts calls ih =>
      rw [called, List.foldl_cons, unskipped, List.countP_cons]
      cases htaken : skipInitial && decide (attempts ≤ 1) with
      | true =>
          rw [wait_standing_skipped initial cap words made htaken]
          exact ih made
      | false =>
          rw [wait_standing initial cap words made htaken, ← Nat.add_assoc, Nat.add_right_comm]
          exact ih (made + 1)

theorem called_start (initial cap : Duration) (skipInitial : Bool) (words : Words)
    (calls : List UInt32) : (start initial cap skipInitial words).called calls =
      standing initial cap skipInitial words (unskipped skipInitial calls) := by
  have hcalled := called_standing initial cap skipInitial words calls 0
  rwa [standing_zero, Nat.zero_add] at hcalled

theorem not_skips_iff {skipInitial : Bool} {attempts : UInt32} :
    (skipInitial && attempts ≤ 1) = false ↔ ¬ (skipInitial = true ∧ attempts ≤ 1) := by
  rw [← Bool.not_eq_true, Bool.and_eq_true_iff, decide_eq_true_eq]

/-- What the exponential strategy answers after any calls, and where it stands then: a skipped call
gives a wait of nothing and takes no word; any other takes one word and gives the first wait,
doubled for each wait before it, below the longest span and, but for the first, the cap, with a
jitter that depends on the wait and the word. The next wait is set also where there is no span of
that length. -/
theorem exact_of_calls (initial cap : Duration) (skipInitial : Bool) (words : Words)
    (calls : List UInt32) (attempts : UInt32) :
    let made := unskipped skipInitial calls
    let wait := (start initial cap skipInitial words).called calls
    let millis := jitter (base initial cap made).millis (words.ahead made)
    let nanos := (base initial cap made).nanos + millis.toNat * 1000000
    wait = ⟨base initial cap made, cap, skipInitial, words.past made⟩ ∧
    (skipInitial = true ∧ attempts ≤ 1 → wait.wait attempts = (.ok .zero, wait)) ∧
    (¬ (skipInitial = true ∧ attempts ≤ 1) →
      (wait.wait attempts).2 =
        ⟨base initial cap (made + 1), cap, skipInitial, words.past (made + 1)⟩ ∧
      (∀ span, (wait.wait attempts).1 = .ok span ↔ span.nanos = nanos) ∧
      ∀ abort, (wait.wait attempts).1 = .error abort ↔
        abort = .spanOverflow ∧ Duration.maxNanos < nanos) := by
  intro made wait millis nanos
  have hwait : wait = standing initial cap skipInitial words made :=
    called_start initial cap skipInitial words calls
  refine ⟨hwait, fun hskips => ?_, fun htaken => ?_⟩
  · rw [hwait]
    apply wait_standing_skipped
    exact Bool.and_eq_true_iff.mpr ⟨hskips.1, decide_eq_true hskips.2⟩
  · rw [hwait, wait_standing initial cap words made (not_skips_iff.mpr htaken)]
    exact ⟨rfl, fun span => jittered_eq_ok_iff, fun abort => jittered_eq_error_iff⟩

/-- Two calls that are skipped and one that is not, and a first wait that is longer than the cap. -/
theorem exact_of_mixed :
    let words : Words := { list := [UInt64.ofNat (UInt64.size - 1)] }
    let wait := (start (.ofNanos 60500000) (.ofMillis 50) true words).called [0, 2, 1]
    let longest := start .longest (.ofMillis 50) false words
    (true = true ∧ (1 : UInt32) ≤ 1) ∧ ¬ (true = true ∧ (4 : UInt32) ≤ 1) ∧
      ¬ (false = true ∧ (1 : UInt32) ≤ 1) ∧
      wait.words = words.past 1 ∧ wait.wait 1 = (.ok .zero, wait) ∧
      (wait.wait 4).1 = .ok (.ofMillis 55) ∧ (wait.wait 4).2.words = words.past 2 ∧
      (longest.wait 1).1 = .error .spanOverflow ∧ (longest.wait 1).2.next = .ofMillis 50 := by
  intro words wait longest
  have hskips : true = true ∧ (1 : UInt32) ≤ 1 := by decide
  have htaken : ¬ (true = true ∧ (4 : UInt32) ≤ 1) := by decide
  have hfirst : ¬ (false = true ∧ (1 : UInt32) ≤ 1) := by decide
  obtain ⟨hwait, hskipped, -⟩ := exact_of_calls (.ofNanos 60500000) (.ofMillis 50) true words
    [0, 2, 1] 1
  obtain ⟨-, -, hgiven⟩ := exact_of_calls (.ofNanos 60500000) (.ofMillis 50) true words
    [0, 2, 1] 4
  obtain ⟨-, -, hlong⟩ := exact_of_calls .longest (.ofMillis 50) false words [] 1
  obtain ⟨hnext, hspan, -⟩ := hgiven htaken
  obtain ⟨hlast, -, hraised⟩ := hlong hfirst
  refine ⟨hskips, htaken, hfirst, congrArg ExponentialWait.words hwait, hskipped hskips,
    (hspan (.ofMillis 55)).mpr (by decide +kernel), congrArg ExponentialWait.words hnext,
    (hraised .spanOverflow).mpr ⟨rfl, by decide +kernel⟩, ?_⟩
  exact (congrArg ExponentialWait.next hlast).trans (by decide +kernel)

end ExponentialWait

end Pooling
