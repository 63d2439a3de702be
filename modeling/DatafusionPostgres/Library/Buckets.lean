import Mathlib.Algebra.Order.Floor.Ring
import Mathlib.Algebra.Order.Field.Basic
import Mathlib.Tactic.GCongr

/-! Buckets of equal width, over any ordered field with a floor. -/
namespace DatafusionPostgres.Library

section Buckets
variable {K : Type} [Field K] [LinearOrder K] [FloorRing K]

/-- The number of the bucket that `x` falls into: from 1 to `count` between the bounds, 0 below
and `count + 1` from the upper bound on. -/
def bucketNumber (low high : K) (count : ℤ) (x : K) : ℤ :=
  if x < low then 0
  else if high ≤ x then count + 1
  else ⌊(x - low) / ((high - low) / count)⌋ + 1

variable {low high x y : K} {count b m : ℤ}

theorem bucketNumber_of_lt (h : x < low) : bucketNumber low high count x = 0 := if_pos h

theorem bucketNumber_of_le (hbounds : low < high) (h : high ≤ x) :
    bucketNumber low high count x = count + 1 := by
  rw [bucketNumber, if_neg (not_lt.mpr (hbounds.le.trans h)), if_pos h]

theorem bucketNumber_of_between (hlow : low ≤ x) (hhigh : x < high) :
    bucketNumber low high count x = ⌊(x - low) / ((high - low) / count)⌋ + 1 := by
  rw [bucketNumber, if_neg (not_lt.mpr hlow), if_neg (not_le.mpr hhigh)]

private theorem add_count_steps (hcount : 0 < count) :
    low + count * ((high - low) / (count : K)) = high := by
  rw [mul_div_cancel₀ _ (Int.cast_ne_zero.mpr hcount.ne'), add_sub_cancel]

variable [IsStrictOrderedRing K]

private theorem step_pos (hbounds : low < high) (hcount : 0 < count) :
    0 < (high - low) / (count : K) :=
  div_pos (sub_pos.mpr hbounds) (Int.cast_pos.mpr hcount)

private theorem steps_le (hbounds : low < high) (hcount : 0 < count) (h : m ≤ count) :
    low + m * ((high - low) / (count : K)) ≤ high := by
  calc low + m * ((high - low) / (count : K))
      ≤ low + count * ((high - low) / (count : K)) := by
        gcongr
    _ = high := add_count_steps hcount

/-- Between the bounds the bucket is the interval that its number says. -/
theorem bucketNumber_eq_iff (hbounds : low < high) (hcount : 0 < count) (hlow : low ≤ x)
    (hhigh : x < high) : bucketNumber low high count x = b ↔
      low + (b - 1) * (high - low) / count ≤ x ∧ x < low + b * (high - low) / count := by
  have hstep := step_pos (K := K) hbounds hcount
  rw [bucketNumber_of_between hlow hhigh, ← eq_sub_iff_add_eq, Int.floor_eq_iff, le_div_iff₀ hstep,
    div_lt_iff₀ hstep, mul_div_assoc, mul_div_assoc]
  push_cast
  rw [sub_add_cancel, le_sub_iff_add_le', sub_lt_iff_lt_add']

theorem bucketNumber_between (hbounds : low < high) (hcount : 0 < count) (hlow : low ≤ x)
    (hhigh : x < high) :
    1 ≤ bucketNumber low high count x ∧ bucketNumber low high count x ≤ count := by
  have hstep := step_pos (K := K) hbounds hcount
  rw [bucketNumber_of_between hlow hhigh]
  constructor
  · have hfloor : 0 ≤ ⌊(x - low) / ((high - low) / (count : K))⌋ :=
      Int.floor_nonneg.mpr (div_nonneg (sub_nonneg.mpr hlow) hstep.le)
    omega
  · rw [Int.add_one_le_iff, Int.floor_lt, div_lt_iff₀ hstep, sub_lt_iff_lt_add',
      add_count_steps hcount]
    exact hhigh

theorem bucketNumber_nonneg (hbounds : low < high) (hcount : 0 < count) :
    0 ≤ bucketNumber low high count x := by
  rcases lt_or_ge x low with hlow | hlow
  · exact (bucketNumber_of_lt hlow).ge
  · rcases lt_or_ge x high with hhigh | hhigh
    · have := (bucketNumber_between hbounds hcount hlow hhigh).1
      omega
    · rw [bucketNumber_of_le hbounds hhigh]
      omega

/-- The number stays within a bound that the buckets do, or below the end of its bucket. -/
theorem bucketNumber_le_iff (hbounds : low < high) (hcount : 0 < count) (hm : 0 ≤ m) :
    bucketNumber low high count x ≤ m ↔ count < m ∨ x < low + m * (high - low) / count := by
  have hstep := step_pos (K := K) hbounds hcount
  rw [mul_div_assoc]
  rcases lt_or_ge x low with hlow | hlow
  · rw [bucketNumber_of_lt hlow]
    refine iff_of_true hm (.inr (hlow.trans_le ?_))
    exact le_add_of_nonneg_right (mul_nonneg (Int.cast_nonneg hm) hstep.le)
  · rcases lt_or_ge x high with hhigh | hhigh
    · rw [bucketNumber_of_between hlow hhigh, Int.add_one_le_iff, Int.floor_lt, div_lt_iff₀ hstep,
        sub_lt_iff_lt_add', iff_or_self]
      intro h
      calc x < high := hhigh
        _ = low + count * ((high - low) / (count : K)) := (add_count_steps hcount).symm
        _ ≤ low + m * ((high - low) / (count : K)) := by
          gcongr
    · rw [bucketNumber_of_le hbounds hhigh, Int.add_one_le_iff, iff_self_or]
      intro h
      by_contra hle
      exact absurd (h.trans_le (steps_le hbounds hcount (not_lt.mp hle))) (not_lt.mpr hhigh)

theorem bucketNumber_mono (hbounds : low < high) (hcount : 0 < count) (h : x ≤ y) :
    bucketNumber low high count x ≤ bucketNumber low high count y := by
  rw [bucketNumber_le_iff hbounds hcount (bucketNumber_nonneg hbounds hcount)]
  have hy := (bucketNumber_le_iff hbounds hcount (bucketNumber_nonneg hbounds hcount)).mp
    (le_refl (bucketNumber low high count y))
  exact hy.imp_right h.trans_lt

end Buckets
end DatafusionPostgres.Library
