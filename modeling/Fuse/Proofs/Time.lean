-- Times come back as they were. A point on the clock is as far from the epoch as its
-- timestamp says, and each of the two gives the other, but for one timestamp that only
-- the release profile writes.
import Fuse.Time

namespace Fuse

/-- What follows a result goes on with it. -/
theorem ok_bind {ε α β : Type} (a : α) (f : α → Except ε β) : (Except.ok a >>= f) = f a := rfl

/-- Plain arithmetic stops only where it is checked and out of range. -/
theorem Profile.plain_eq_ok {α : Type} {profile : Profile} {inRange : Bool}
    (h : profile = .release ∨ inRange = true) (fault : Fault) (word : α) :
    profile.plain inRange fault word = .ok word := by
  unfold plain
  rcases h with rfl | rfl <;> simp

/-! ## Points on the clock -/

namespace Instant

/-- A distance from the epoch belongs to one point. -/
theorem toNanos_inj {t u : Instant} : t.toNanos = u.toNanos ↔ t = u := by
  constructor
  · intro h
    have ht := t.nsec_lt
    have hu := u.nsec_lt
    unfold toNanos nanosPerSecond at h
    unfold nanosPerSecond at ht hu
    have hsec : t.sec = u.sec := Int64.toInt_inj.mp (by omega)
    have hnsec : t.nsec = u.nsec := UInt32.toNat_inj.mp (by omega)
    cases t
    cases u
    cases hsec
    cases hnsec
    rfl
  · rintro rfl
    rfl

/-- The seconds are the whole seconds below the distance, also before the epoch. -/
theorem fdiv_toNanos (t : Instant) : t.toNanos.fdiv nanosPerSecond = t.sec.toInt := by
  have h := t.nsec_lt
  unfold toNanos nanosPerSecond at *
  rw [Int.fdiv_eq_ediv_of_nonneg _ (by omega)]
  omega

theorem fmod_toNanos (t : Instant) : t.toNanos.fmod nanosPerSecond = t.nsec.toNat := by
  have h := t.nsec_lt
  unfold toNanos nanosPerSecond at *
  rw [Int.fmod_eq_emod_of_nonneg _ (by omega)]
  omega

/-- The point at a distance is the one that is so far away. -/
theorem ofNanos?_toNanos (t : Instant) : ofNanos? t.toNanos = some t := by
  have hrange : Int64.minValue.toInt ≤ t.sec.toInt ∧ t.sec.toInt ≤ Int64.maxValue.toInt :=
    ⟨t.sec.minValue_le_toInt, t.sec.toInt_le⟩
  unfold ofNanos?
  simp only [fdiv_toNanos, fmod_toNanos, Int.toNat_natCast, t.nsec_lt, hrange, and_self, if_true,
    dite_true, Int64.ofInt_toInt, UInt32.ofNat_toNat]

theorem toNanos_epoch : epoch.toNanos = 0 := by simp [toNanos, epoch]

theorem add_eq_ok {t u : Instant} {d : Duration} (h : u.toNanos = t.toNanos + d.toNanos) :
    t.add d = .ok u := by
  unfold add
  rw [← h, ofNanos?_toNanos]

theorem sub_eq_ok {t u : Instant} {d : Duration} (h : u.toNanos = t.toNanos - d.toNanos) :
    t.sub d = .ok u := by
  unfold sub
  rw [← h, ofNanos?_toNanos]

/-! ## The distance from the epoch -/

theorem secs_fromEpoch (t : Instant) :
    t.fromEpoch.secs.toInt64 = .ofNat (t.toNanos.natAbs / nanosPerSecond) := UInt64.toInt64_ofNat'

theorem nanos_fromEpoch (t : Instant) :
    t.fromEpoch.nanos = .ofNat (t.toNanos.natAbs % nanosPerSecond) := rfl

/-- The distance in seconds has a sign bit of its own just at the earliest point. -/
theorem div_le (t : Instant) : t.toNanos.natAbs / nanosPerSecond ≤ UInt64.size / 2 := by
  have hsize : UInt64.size / 2 = 9223372036854775808 := rfl
  have h := t.nsec_lt
  have hlow := t.sec.le_toInt
  have hhigh := t.sec.toInt_lt
  unfold toNanos nanosPerSecond at *
  omega

/-- From the epoch on, the distance is split as the point is. -/
theorem split_after {t : Instant} (h : 0 ≤ t.toNanos) :
    ((t.toNanos.natAbs / nanosPerSecond : Nat) : Int) = t.sec.toInt ∧
      t.toNanos.natAbs % nanosPerSecond = t.nsec.toNat := by
  have hn := t.nsec_lt
  unfold toNanos nanosPerSecond at *
  omega

/-- Before the epoch, the nanoseconds of the distance are those that are missing to the next
second, if there are any. -/
theorem split_before {t : Instant} (h : t.toNanos < 0) :
    (t.nsec.toNat = 0 ∧ -((t.toNanos.natAbs / nanosPerSecond : Nat) : Int) = t.sec.toInt ∧
      t.toNanos.natAbs % nanosPerSecond = 0) ∨
    (-((t.toNanos.natAbs / nanosPerSecond : Nat) : Int) - 1 = t.sec.toInt ∧
      t.toNanos.natAbs % nanosPerSecond = nanosPerSecond - t.nsec.toNat) := by
  have hn := t.nsec_lt
  unfold toNanos nanosPerSecond at *
  omega

/-! ## Writing points down -/

/-- The earliest point on the clock. -/
def earliest : Instant := ⟨.minValue, 0, epoch.nsec_lt⟩

theorem toTimestamp_after (profile : Profile) {t : Instant} (h : 0 ≤ t.toNanos) :
    t.toTimestamp profile = .ok ⟨t.sec, t.nsec⟩ := by
  obtain ⟨hsecs, hnanos⟩ := split_after h
  have hsec : t.fromEpoch.secs.toInt64 = t.sec := by
    rw [secs_fromEpoch, ← Int64.ofInt_eq_ofNat, hsecs, Int64.ofInt_toInt]
  have hnsec : t.fromEpoch.nanos = t.nsec := by
    rw [nanos_fromEpoch, hnanos, UInt32.ofNat_toNat]
  unfold toTimestamp
  rw [if_pos h, hsec, hnsec]

/-- Only at the earliest point the seconds of the distance have no opposite. -/
theorem secs_ne_minValue {t : Instant} (h : t ≠ earliest) :
    t.fromEpoch.secs.toInt64 ≠ .minValue := by
  intro he
  have hfar : t.toNanos.natAbs / nanosPerSecond = UInt64.size / 2 := by
    refine Nat.le_antisymm t.div_le (Nat.not_lt.mp fun hlt => ?_)
    have hpos := Int64.toInt_ofNat_of_lt hlt
    have hnonneg := Int.natCast_nonneg (t.toNanos.natAbs / nanosPerSecond)
    rw [← hpos, ← secs_fromEpoch, he] at hnonneg
    exact absurd hnonneg (by decide)
  refine h (toNanos_inj.mp ?_)
  have hsize : UInt64.size / 2 = 9223372036854775808 := rfl
  have hn := t.nsec_lt
  have hlow := t.sec.le_toInt
  have hhigh := t.sec.toInt_lt
  have hearliest : earliest.toNanos = -2 ^ 63 * nanosPerSecond := rfl
  rw [hearliest]
  unfold toNanos nanosPerSecond at *
  omega

/-- The opposite of the distance in seconds. At the earliest point it is the number itself. -/
theorem toInt_neg_secs (t : Instant) :
    (-t.fromEpoch.secs.toInt64).toInt = -((t.toNanos.natAbs / nanosPerSecond : Nat) : Int) := by
  rw [secs_fromEpoch, Int64.toInt_neg_ofNat_of_le t.div_le]

/-- One second before the opposite of the distance, and as many nanoseconds after that as the
distance lacks of a second. -/
theorem borrow {t : Instant}
    (hsec : -((t.toNanos.natAbs / nanosPerSecond : Nat) : Int) - 1 = t.sec.toInt)
    (hnanos : t.toNanos.natAbs % nanosPerSecond = nanosPerSecond - t.nsec.toNat) :
    t.fromEpoch.nanos ≠ 0 ∧ -t.fromEpoch.secs.toInt64 ≠ .minValue ∧
      t.fromEpoch.nanos ≤ .ofNat nanosPerSecond ∧ -t.fromEpoch.secs.toInt64 - 1 = t.sec ∧
      .ofNat nanosPerSecond - t.fromEpoch.nanos = t.nsec := by
  have hlt := t.nsec_lt
  have hlow := t.sec.le_toInt
  have hback := t.toInt_neg_secs
  have hwhole : (UInt32.ofNat nanosPerSecond).toNat = nanosPerSecond := rfl
  have hrest : t.fromEpoch.nanos.toNat = nanosPerSecond - t.nsec.toNat := by
    rw [nanos_fromEpoch, hnanos]
    exact UInt32.toNat_ofNat_of_lt' (Nat.lt_of_le_of_lt (Nat.sub_le _ _) (by decide))
  have hle : t.fromEpoch.nanos ≤ .ofNat nanosPerSecond := by
    rw [UInt32.le_iff_toNat_le, hrest, hwhole]
    exact Nat.sub_le _ _
  refine ⟨fun he => ?_, fun he => ?_, hle, ?_, ?_⟩
  · rw [he] at hrest
    exact absurd hrest.symm (Nat.sub_ne_zero_of_lt hlt)
  · rw [he, Int64.toInt_minValue] at hback
    omega
  · apply Int64.toInt_inj.mp
    rw [Int64.toInt_sub, hback]
    have hone : (1 : Int64).toInt = 1 := rfl
    rw [hone, hsec]
    exact Int.bmod_eq_of_le (by omega) (by have := t.sec.toInt_lt; omega)
  · apply UInt32.toNat_inj.mp
    rw [UInt32.toNat_sub_of_le _ _ hle, hrest, hwhole]
    omega

/-- Before the epoch, the number of seconds is the opposite of the distance, or one less if
nanoseconds count forward from it. -/
theorem toTimestamp_before {profile : Profile} {t : Instant} (h : t.toNanos < 0)
    (hr : profile = .release ∨ t ≠ earliest) : t.toTimestamp profile = .ok ⟨t.sec, t.nsec⟩ := by
  have hnegate := hr.imp_right fun hne => bne_iff_ne.mpr (secs_ne_minValue hne)
  unfold toTimestamp
  rw [if_neg (Int.not_le.mpr h), Profile.plain_eq_ok hnegate, ok_bind]
  rcases split_before h with ⟨hzero, hsec, hnanos⟩ | ⟨hsec, hnanos⟩
  · have hwhole : t.fromEpoch.nanos = 0 := by
      rw [nanos_fromEpoch, hnanos]
      rfl
    have hsecs : -t.fromEpoch.secs.toInt64 = t.sec :=
      Int64.toInt_inj.mp (t.toInt_neg_secs.trans hsec)
    have hnsec : t.nsec = 0 := UInt32.toNat_inj.mp hzero
    rw [if_pos hwhole, hsecs, hnsec]
    rfl
  · obtain ⟨hsome, hne, hle, hsecs, hnsec⟩ := borrow hsec hnanos
    rw [if_neg hsome, Profile.plain_eq_ok (Or.inr (bne_iff_ne.mpr hne)), ok_bind,
      Profile.plain_eq_ok (Or.inr (decide_eq_true hle)), ok_bind, hsecs, hnsec]
    rfl

/-- A point is written down as what it consists of. -/
theorem toTimestamp_eq {profile : Profile} {t : Instant}
    (hr : profile = .release ∨ t ≠ earliest) : t.toTimestamp profile = .ok ⟨t.sec, t.nsec⟩ := by
  by_cases h : 0 ≤ t.toNanos
  · exact toTimestamp_after profile h
  · exact toTimestamp_before (Int.not_le.mp h) hr

end Instant

/-! ## Reading timestamps -/

theorem Duration.ofParts_of_lt (secs : UInt64) {nanos : UInt32}
    (h : nanos.toNat < nanosPerSecond) : ofParts secs nanos = .ok ⟨secs, nanos⟩ := by
  unfold ofParts
  dsimp only
  rw [Nat.div_eq_of_lt h, Nat.add_zero, if_pos secs.toNat_lt, Nat.mod_eq_of_lt h,
    UInt64.ofNat_toNat, UInt32.ofNat_toNat]

namespace Timestamp

/-- The seconds before the epoch, as a length of time. -/
theorem toNanos_ofSecs_natAbs {sec : Int64} (h : sec.toInt < 0) :
    ((Duration.ofSecs (.ofNat sec.toInt.natAbs)).toNanos : Int) =
      -(sec.toInt * nanosPerSecond) := by
  have hlow := sec.le_toInt
  have habs : (UInt64.ofNat sec.toInt.natAbs).toNat = sec.toInt.natAbs :=
    UInt64.toNat_ofNat_of_lt' (by
      have hsize : UInt64.size = 2 ^ 64 := rfl
      omega)
  unfold Duration.toNanos Duration.ofSecs nanosPerSecond
  dsimp only
  rw [habs, UInt32.toNat_zero]
  omega

/-- From the epoch on, seconds and nanoseconds are added at once. -/
theorem toInstant_after {t : Timestamp} (h : t.nsec.toNat < nanosPerSecond) (hs : 0 ≤ t.sec) :
    t.toInstant = .ok ⟨t.sec, t.nsec, h⟩ := by
  have hsec : (t.sec.toUInt64.toNat : Int) = t.sec.toInt := by
    rw [Int64.toNat_toUInt64_of_le hs]
    exact Int.toNat_of_nonneg (Int64.le_iff_toInt_le.mp hs)
  unfold toInstant
  rw [if_pos hs, Duration.ofParts_of_lt _ h, ok_bind]
  apply Instant.add_eq_ok
  rw [Instant.toNanos_epoch, Duration.toNanos, Instant.toNanos]
  dsimp only
  rw [Int.natCast_add, Int.natCast_mul, hsec, Int.zero_add]

/-- Before the epoch, the seconds are taken away first. -/
theorem toInstant_before {t : Timestamp} (h : t.nsec.toNat < nanosPerSecond) (hs : ¬0 ≤ t.sec) :
    t.toInstant = .ok ⟨t.sec, t.nsec, h⟩ := by
  have hneg : t.sec.toInt < 0 := Int.not_le.mp fun h => hs (Int64.le_iff_toInt_le.mpr h)
  let whole : Instant := ⟨t.sec, 0, by decide⟩
  have hwhole : Instant.epoch.sub (.ofSecs (.ofNat t.sec.toInt.natAbs)) = .ok whole := by
    apply Instant.sub_eq_ok
    rw [Instant.toNanos_epoch, toNanos_ofSecs_natAbs hneg]
    simp [Instant.toNanos, whole]
  unfold toInstant
  rw [if_neg hs, hwhole, ok_bind, Duration.ofParts_of_lt 0 h, ok_bind]
  apply Instant.add_eq_ok
  simp [Instant.toNanos, Duration.toNanos, whole]

/-- A timestamp with less than a second of nanoseconds is a point on the clock. -/
theorem toInstant_eq (t : Timestamp) (h : t.nsec.toNat < nanosPerSecond) :
    t.toInstant = .ok ⟨t.sec, t.nsec, h⟩ := by
  by_cases hs : 0 ≤ t.sec
  · exact toInstant_after h hs
  · exact toInstant_before h hs

end Timestamp

/-! ## The law -/

/-- Whatever the profile, a timestamp with less than a second of nanoseconds is read as the
point that is so far from the epoch, and every point on the clock is written down as the
timestamp that is read as this point. Only the earliest point of all is left out where
arithmetic is checked. -/
theorem times_come_back_as_they_were (profile : Profile) :
    (∀ t : Timestamp, t.nsec.toNat < nanosPerSecond →
      ∃ i, t.toInstant = .ok i ∧ i.toNanos = t.sec.toInt * nanosPerSecond + t.nsec.toNat ∧
        (profile = .release ∨ t ≠ ⟨.minValue, 0⟩ → i.toTimestamp profile = .ok t)) ∧
    ∀ i : Instant, profile = .release ∨ i ≠ .earliest →
      ∃ t, i.toTimestamp profile = .ok t ∧ t.toInstant = .ok i := by
  constructor
  · intro t ht
    refine ⟨⟨t.sec, t.nsec, ht⟩, t.toInstant_eq ht, rfl, fun hr => ?_⟩
    refine Instant.toTimestamp_eq (hr.imp_right fun hne he => hne ?_)
    cases t
    cases he
    rfl
  · intro i hr
    exact ⟨⟨i.sec, i.nsec⟩, Instant.toTimestamp_eq hr, Timestamp.toInstant_eq _ i.nsec_lt⟩

/-- Half a second before the last second before the epoch, and the earliest point, where
arithmetic wraps around. -/
theorem times_before_the_epoch_come_back :
    (∃ i, Timestamp.toInstant ⟨-2, 500000000⟩ = .ok i ∧ i.toNanos = -1500000000 ∧
      i.toTimestamp .dev = .ok ⟨-2, 500000000⟩) ∧
    ∃ t, Instant.earliest.toTimestamp .release = .ok t ∧ t.toInstant = .ok .earliest := by
  constructor
  · obtain ⟨i, hread, hfar, hwrite⟩ :=
      (times_come_back_as_they_were .dev).1 ⟨-2, 500000000⟩ (by decide)
    exact ⟨i, hread, hfar, hwrite (Or.inr (by decide))⟩
  · exact (times_come_back_as_they_were .release).2 .earliest (Or.inl rfl)

/-- The earliest point is read from a timestamp, but it is not written down where arithmetic
is checked: the distance from the epoch is a number of seconds that has no opposite. -/
theorem the_earliest_point_is_not_written_down :
    Timestamp.toInstant ⟨.minValue, 0⟩ = .ok .earliest ∧
      Instant.earliest.toTimestamp .dev = .error .negateOverflow := by
  exact ⟨Timestamp.toInstant_eq _ (by decide), rfl⟩

end Fuse
