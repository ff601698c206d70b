import Mathlib.Algebra.Order.Ring.Int
import CrynuxRelay.Model.Funding

/-!
# The schedule of a vesting

* `elapsedDays_mono`, `elapsedDays_le` -- whole days count up with time, as far as a `Duration` reaches;
* `scheduled_mono`, `scheduled_le_total` -- the schedule never goes back and never exceeds the total;
* `scheduled_eq_total` -- **from day `D` on the schedule is the total**, up to 106751 days;
* `scheduled_lt_of_long` -- a longer one is never over, since no `Duration` reaches its last day;
* `ScheduleLaw`, `schedule_law_iff` -- **the whole law of the schedule**, which holds exactly up to there.
-/

namespace CrynuxRelay

open Int

variable {now now' start : Int} {d : Nat}

/-! ## days -/

def maxElapsedDays : Nat := 106751

lemma nanosPerDay_pos : 0 < nanosPerDay := by decide

lemma dayStart_eq (now : Int) : dayStart now = nanosPerDay * (now / nanosPerDay) := by
  exact (eq_sub_of_add_eq (mul_ediv_add_emod now nanosPerDay)).symm

lemma dayStart_mono (h : now ≤ now') : dayStart now ≤ dayStart now' := by
  rw [dayStart_eq, dayStart_eq]
  exact Int.mul_le_mul_of_nonneg_left (Int.ediv_le_ediv nanosPerDay_pos h) (by decide)

lemma elapsedDays_mono (start : Int) (h : now ≤ now') :
    elapsedDays start now ≤ elapsedDays start now' := by
  have hd := Int.sub_le_sub_right (dayStart_mono h) (dayStart start)
  exact Int.ediv_le_ediv nanosPerDay_pos (min_le_min_right _ hd)

lemma elapsedDays_nonneg (h : start ≤ now) : 0 ≤ elapsedDays start now := by
  have hd := sub_nonneg_of_le (dayStart_mono h)
  exact ediv_nonneg (le_min hd (by decide)) (by decide)

lemma elapsedDays_le (start now : Int) : elapsedDays start now ≤ maxElapsedDays := by
  have hmax : ((2 ^ 63 - 1 : Int)) / nanosPerDay = maxElapsedDays := by decide
  exact Int.ediv_le_ediv nanosPerDay_pos (min_le_right _ _)

def OnOrAfterDay (start : Int) (d : Nat) (now : Int) : Prop :=
  dayStart start + d * nanosPerDay ≤ dayStart now

lemma OnOrAfterDay.start_le (h : OnOrAfterDay start d now) (hd : 0 < d) : start ≤ now := by
  rcases lt_or_ge now start with hlt | hge
  · have hle := dayStart_mono (le_of_lt hlt)
    have hpos : 0 < (d : Int) * nanosPerDay :=
      mul_pos (natCast_pos.2 hd) nanosPerDay_pos
    exact absurd (le_trans h hle) (not_le.2 (lt_add_of_pos_right _ hpos))
  · exact hge

/-- the days that have passed are counted as far as a `Duration` reaches. -/
lemma OnOrAfterDay.le_elapsedDays (h : OnOrAfterDay start d now)
    (hd : d ≤ maxElapsedDays) : (d : Int) ≤ elapsedDays start now := by
  refine Int.le_ediv_of_mul_le nanosPerDay_pos (le_min ?_ ?_)
  · exact Int.le_sub_left_of_add_le h
  · have hmax : (maxElapsedDays : Int) * nanosPerDay ≤ 2 ^ 63 - 1 := by decide
    refine le_trans ?_ hmax
    exact Int.mul_le_mul_of_nonneg_right (Int.ofNat_le.2 hd) (by decide)

/-! ## the schedule -/

section schedule
variable {T : Int} {D : Nat}

lemma scheduled_of_le (hT : 0 < T) (hD : 0 < D) (hs : start ≤ now) :
    computeVestingShouldReleased T start D now =
      if (D : Int) ≤ elapsedDays start now then T else T * elapsedDays start now / D := by
  rw [computeVestingShouldReleased, if_neg]
  intro h
  rcases h with h | h | h
  · exact absurd hT (not_lt.2 h)
  · omega
  · exact absurd hs (not_le.2 h)

lemma scheduled_of_lt (hs : now < start) : computeVestingShouldReleased T start D now = 0 := by
  rw [computeVestingShouldReleased, if_pos (.inr (.inr hs))]

section
variable (hT : 0 < T) (hD : 0 < D)
include hT hD

lemma scheduled_lt_total (h : elapsedDays start now < D) : T * elapsedDays start now / D < T := by
  have hD' : (0 : Int) < D := Int.natCast_pos.2 hD
  refine Int.ediv_lt_of_lt_mul hD' ?_
  exact Int.mul_lt_mul_of_pos_left h hT

lemma scheduled_nonneg : 0 ≤ computeVestingShouldReleased T start D now := by
  rcases lt_or_ge now start with hs | hs
  · rw [scheduled_of_lt hs]
  · rw [scheduled_of_le hT hD hs]
    split
    · exact hT.le
    · exact ediv_nonneg (mul_nonneg hT.le (elapsedDays_nonneg hs)) (natCast_nonneg D)

lemma scheduled_le_total : computeVestingShouldReleased T start D now ≤ T := by
  rcases lt_or_ge now start with hs | hs
  · rw [scheduled_of_lt hs]
    exact hT.le
  · rw [scheduled_of_le hT hD hs]
    split
    · exact le_refl T
    · next h => exact (scheduled_lt_total hT hD (not_le.1 h)).le

theorem scheduled_mono (h : now ≤ now') :
    computeVestingShouldReleased T start D now ≤ computeVestingShouldReleased T start D now' := by
  rcases lt_or_ge now start with hs | hs
  · rw [scheduled_of_lt hs]
    exact scheduled_nonneg hT hD
  · have hdays := elapsedDays_mono start h
    rw [scheduled_of_le hT hD hs, scheduled_of_le hT hD (le_trans hs h)]
    split
    · next hfull =>
      rw [if_pos (le_trans hfull hdays)]
    · next hpart =>
      split
      · exact (scheduled_lt_total hT hD (Int.not_le.1 hpart)).le
      · exact Int.ediv_le_ediv (Int.natCast_pos.2 hD) (Int.mul_le_mul_of_nonneg_left hdays hT.le)

lemma scheduled_eq_total (h : OnOrAfterDay start D now)
    (hmax : D ≤ maxElapsedDays) : computeVestingShouldReleased T start D now = T := by
  rw [scheduled_of_le hT hD (h.start_le hD), if_pos (h.le_elapsedDays hmax)]

end

/-- a duration that no `Duration` reaches is never over. -/
lemma scheduled_lt_of_long (hT : 0 < T) (hD : maxElapsedDays < D) :
    computeVestingShouldReleased T start D now < T := by
  have hpos : 0 < D := by omega
  rcases lt_or_ge now start with hs | hs
  · rwa [scheduled_of_lt hs]
  · have hle := elapsedDays_le start now
    have hlt : elapsedDays start now < D := by omega
    rw [scheduled_of_le hT hpos hs, if_neg (not_le.2 hlt)]
    exact scheduled_lt_total hT hpos hlt

/-! ## the law -/

def OnDay (start : Int) (k : Nat) (now : Int) : Prop :=
  dayStart now = dayStart start + k * nanosPerDay

/-- what a schedule promises. -/
structure ScheduleLaw (T start : Int) (D : Nat) : Prop where
  mono : ∀ now now', now ≤ now' →
    computeVestingShouldReleased T start D now ≤ computeVestingShouldReleased T start D now'
  bounds : ∀ now, 0 ≤ computeVestingShouldReleased T start D now ∧
    computeVestingShouldReleased T start D now ≤ T
  before : ∀ now, now < start → computeVestingShouldReleased T start D now = 0
  full : ∀ now, OnOrAfterDay start D now → computeVestingShouldReleased T start D now = T
  daily : ∀ k now now', k < D → OnDay start k now → OnDay start (k + 1) now' →
    computeVestingShouldReleased T start D now' - computeVestingShouldReleased T start D now = T / D ∨
      computeVestingShouldReleased T start D now' - computeVestingShouldReleased T start D now = -(-T / D)
  locked : ∀ (v : VestingRecord) now, v.totalAmount = T → v.startTime = start → v.durationDays = D →
    v.status ≠ .deprecated → v.lockedAmountAt now + computeVestingShouldReleased T start D now = T

lemma scheduled_onDay {k : Nat} (hT : 0 < T) (hD : 0 < D) (hmax : D ≤ maxElapsedDays) (hk : k ≤ D)
    (h : OnDay start k now) : computeVestingShouldReleased T start D now = T * k / D := by
  have hD' : (D : Int) ≠ 0 := by omega
  rcases lt_or_ge now start with hs | hs
  · -- before the start on its day
    have hle : @LE.le Int _ (dayStart now) (dayStart start) := dayStart_mono hs.le
    have hday : @Eq Int (dayStart now) (dayStart start + k * (86400 * 10 ^ 9)) := h
    have hk : k = 0 := by omega
    rw [scheduled_of_lt hs, hk, Int.natCast_zero, Int.mul_zero, Int.zero_ediv]
  · have hdays : elapsedDays start now = k := by
      refine Int.le_antisymm ?_ (OnOrAfterDay.le_elapsedDays h.ge (hk.trans hmax))
      refine Int.ediv_le_of_le_mul nanosPerDay_pos ((min_le_left _ _).trans ?_)
      rw [h, add_sub_cancel_left]
    rw [scheduled_of_le hT hD hs, hdays]
    split
    · next hfull =>
      obtain rfl : k = D := by omega
      rw [Int.mul_ediv_cancel _ hD']
    · rfl

/-- a quotient grows by the quotient of what is added, rounded down or up. -/
lemma ediv_step (a b : Int) {c : Int} (hc : 0 < c) :
    (a + b) / c - a / c = b / c ∨ (a + b) / c - a / c = -(-b / c) := by
  by_cases hdvd : c ∣ b
  · rw [Int.add_ediv_of_dvd_right hdvd]
    omega
  · rw [Int.neg_ediv, if_neg hdvd, Int.sign_eq_one_of_pos hc]
    have hlow : a / c + b / c ≤ (a + b) / c := by
      refine Int.le_ediv_of_mul_le hc ?_
      rw [Int.add_mul]
      exact Int.add_le_add (Int.ediv_mul_le a hc.ne') (Int.ediv_mul_le b hc.ne')
    have hhigh : (a + b) / c < a / c + 1 + (b / c + 1) := by
      refine Int.ediv_lt_of_lt_mul hc ?_
      rw [Int.add_mul]
      exact Int.add_lt_add (Int.lt_ediv_add_one_mul_self a hc) (Int.lt_ediv_add_one_mul_self b hc)
    omega

/-- **the law holds exactly for the durations that a `Duration` can count.** -/
theorem schedule_law_iff (hT : 0 < T) (hD : 0 < D) : ScheduleLaw T start D ↔ D ≤ maxElapsedDays := by
  constructor
  · intro h
    refine not_lt.1 fun hlong => (scheduled_lt_of_long hT hlong).ne (h.full (start + D * nanosPerDay) ?_)
    rw [OnOrAfterDay, dayStart_eq, dayStart_eq, add_mul_ediv_right _ _ nanosPerDay_pos.ne', mul_add,
      mul_comm nanosPerDay D]
  · intro hmax
    refine ⟨fun now now' h => scheduled_mono hT hD h,
      fun now => ⟨scheduled_nonneg hT hD, scheduled_le_total hT hD⟩, fun now h => scheduled_of_lt h,
      fun now h => scheduled_eq_total hT hD h hmax, fun k now now' hk h h' => ?_, ?_⟩
    · rw [scheduled_onDay hT hD hmax hk.le h, scheduled_onDay hT hD hmax hk h', natCast_succ, mul_add,
        mul_one]
      exact ediv_step _ _ (natCast_pos.2 hD)
    · rintro v now rfl rfl rfl hst
      rw [VestingRecord.lockedAmountAt, if_neg hst,
        max_eq_left (sub_nonneg_of_le (scheduled_le_total hT hD)), sub_add_cancel]

theorem schedule_law_year : ScheduleLaw 1000 5 365 := (schedule_law_iff (by decide) (by decide)).2 (by decide)

/-- a vesting over 300 years is not released after them. -/
theorem long_schedule_unfinished : ¬ ScheduleLaw 1000 5 109575 := fun h =>
  (scheduled_lt_of_long (by decide) (by decide)).ne (h.full (dayStart 5 + 109575 * nanosPerDay) (by unfold OnOrAfterDay; decide))

end schedule

end CrynuxRelay
