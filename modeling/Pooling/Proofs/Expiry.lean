import Pooling.Resource.Lifetime

/-!
The limits of age and idleness. They are compared in whole milliseconds, and yet each is exceeded
exactly when the time gone by is longer than the limit, to the nanosecond.
-/

namespace Pooling.Expiry

/-- More time than the limit has gone by since the earlier reading. The clock may have been set back
in between, and then no time has. -/
def Exceeds (limit : Duration) (earlier now : Reading) : Prop :=
  (limit.nanos : Int) < max 0 ((now.toNat : Int) - earlier.toNat) * 1000000

instance (limit : Duration) (earlier now : Reading) : Decidable (Exceeds limit earlier now) :=
  inferInstanceAs (Decidable (_ < _))

/-- The policy with its limits cut to whole milliseconds, as many as a word counts. -/
def truncated : Expiry → Expiry
  | timeToLive limit => timeToLive (.ofMillis limit.millis)
  | idleTimeout limit => idleTimeout (.ofMillis limit.millis)
  | either ttl idle => either (.ofMillis ttl.millis) (.ofMillis idle.millis)
  | policy => policy

/-- The policy looks at the time gone by and at nothing else. -/
def IsTimed : Expiry → Prop
  | timeToLive _ => True
  | idleTimeout _ => True
  | either _ _ => True
  | _ => False

/-- What is cut off a limit is less than the millisecond by which it is exceeded at the least, and a
limit that is saturated is longer than any clock can measure. -/
theorem millis_lt_iff {limit : Duration} {earlier now : Reading} :
    limit.millis < now.since earlier ↔ Exceeds limit earlier now := by
  have hnow := now.toNat_lt
  have hsize : UInt64.size = 2 ^ 64 := rfl
  rw [UInt64.lt_iff_toNat_lt, Duration.toNat_millis, Reading.toNat_since, Exceeds, hsize]
  omega

theorem millis_ofMillis (millis : UInt64) : (Duration.ofMillis millis).millis = millis := by
  have hlt := millis.toNat_lt
  have hsize : UInt64.size = 2 ^ 64 := rfl
  apply UInt64.toNat_inj.mp
  rw [Duration.toNat_millis, Duration.nanos_ofMillis, Nat.mul_div_cancel _ (by decide), hsize]
  omega

theorem Exceeds.later {limit : Duration} {earlier now later : Reading}
    (hexceeds : Exceeds limit earlier now) (hle : now ≤ later) : Exceeds limit earlier later := by
  rw [UInt64.le_iff_toNat_le] at hle
  unfold Exceeds at *
  omega

section

variable (lifetime : Lifetime) (now : Reading)

theorem expired_timeToLive_iff (limit : Duration) :
    (timeToLive limit).expired lifetime now = true ↔ Exceeds limit lifetime.created now := by
  rw [expired, decide_eq_true_iff, Lifetime.age, millis_lt_iff]

theorem expired_idleTimeout_iff (limit : Duration) :
    (idleTimeout limit).expired lifetime now = true ↔ Exceeds limit lifetime.lastAccess now := by
  rw [expired, decide_eq_true_iff, Lifetime.idle, millis_lt_iff]

theorem expired_either_iff (ttl idle : Duration) :
    (either ttl idle).expired lifetime now = true ↔
      Exceeds ttl lifetime.created now ∨ Exceeds idle lifetime.lastAccess now := by
  rw [expired, Bool.or_eq_true, decide_eq_true_iff, decide_eq_true_iff, Lifetime.age,
    Lifetime.idle, millis_lt_iff, millis_lt_iff]

theorem expired_truncated (policy : Expiry) :
    policy.truncated.expired lifetime now = policy.expired lifetime now := by
  cases policy with
  | never | custom => rfl
  | timeToLive | idleTimeout | either => simp only [truncated, expired, millis_ofMillis]

theorem expired_later {policy : Expiry} (htimed : policy.IsTimed) {later : Reading}
    (hle : now ≤ later) (hexpired : policy.expired lifetime now = true) :
    policy.expired lifetime later = true := by
  cases policy with
  | never | custom => exact htimed.elim
  | timeToLive limit =>
      rw [expired_timeToLive_iff] at hexpired ⊢
      exact hexpired.later hle
  | idleTimeout limit =>
      rw [expired_idleTimeout_iff] at hexpired ⊢
      exact hexpired.later hle
  | either ttl idle =>
      rw [expired_either_iff] at hexpired ⊢
      exact hexpired.imp (·.later hle) (·.later hle)

/-- Limits are exact: a resource has expired when it is older, or has been idle for longer, than its
limit, whatever part of a millisecond the limit ends in and however long it is; and once it has, it
stays so as the time goes on. -/
theorem exact_of_limits :
    (∀ limit, (timeToLive limit).expired lifetime now = true ↔
      Exceeds limit lifetime.created now) ∧
    (∀ limit, (idleTimeout limit).expired lifetime now = true ↔
      Exceeds limit lifetime.lastAccess now) ∧
    (∀ ttl idle, (either ttl idle).expired lifetime now = true ↔
      Exceeds ttl lifetime.created now ∨ Exceeds idle lifetime.lastAccess now) ∧
    (∀ policy : Expiry, policy.truncated.expired lifetime now = policy.expired lifetime now) ∧
    ∀ policy : Expiry, policy.IsTimed → ∀ later, now ≤ later →
      policy.expired lifetime now = true → policy.expired lifetime later = true :=
  ⟨expired_timeToLive_iff lifetime now, expired_idleTimeout_iff lifetime now,
    expired_either_iff lifetime now, expired_truncated lifetime now,
    fun _ htimed _ hle => expired_later lifetime now htimed hle⟩

end

/-- A limit of a millisecond and a half is exceeded at the second millisecond, the longest limit
never, and no limit by a clock that was set back. -/
theorem exact_of_edges :
    (timeToLive (.ofNanos 1500000)).expired ⟨7, 8⟩ 9 = true ∧
      (idleTimeout (.ofNanos 1500000)).expired ⟨7, 8⟩ 9 = false ∧
      (either .longest .zero).expired ⟨9, 9⟩ 3 = false ∧
      (either .longest .zero).expired ⟨0, 0⟩ 18446744073709551615 = true ∧
      (timeToLive .longest).expired ⟨0, 0⟩ 18446744073709551615 = false ∧
      IsTimed (timeToLive (.ofNanos 1500000)) ∧ (9 : Reading) ≤ 10 ∧
      (timeToLive (.ofNanos 1500000)).expired ⟨7, 8⟩ 10 = true := by
  obtain ⟨hold, hidle, -, -, hlater⟩ := exact_of_limits ⟨7, 8⟩ 9
  obtain ⟨-, -, hback, -⟩ := exact_of_limits ⟨9, 9⟩ 3
  obtain ⟨hlong, -, hlast, -⟩ := exact_of_limits ⟨0, 0⟩ 18446744073709551615
  have hexpired := (hold (.ofNanos 1500000)).mpr (by decide)
  refine ⟨hexpired, ?_, ?_, (hlast _ _).mpr (by decide), ?_, trivial, by decide,
    hlater (timeToLive (.ofNanos 1500000)) trivial 10 (by decide) hexpired⟩
  · exact eq_false_of_ne_true (mt (hidle _).mp (by decide))
  · exact eq_false_of_ne_true (mt (hback _ _).mp (by decide))
  · exact eq_false_of_ne_true (mt (hlong _).mp (by decide))

end Pooling.Expiry
