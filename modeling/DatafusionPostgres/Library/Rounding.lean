import Mathlib.Algebra.Order.Field.Rat
import Mathlib.Data.Rat.Floor
import Mathlib.Tactic.FieldSimp
import Mathlib.Tactic.Positivity
import Mathlib.Tactic.Ring

/-! Rational numbers rounded to whole ones, half away from zero. -/
namespace DatafusionPostgres.Library

def roundHalfAway (x : ℚ) : Int := if 0 ≤ x then ⌊x + 1 / 2⌋ else -⌊-x + 1 / 2⌋

private theorem floor_half {a u : Nat} (hu : 0 < u) :
    ⌊(a : ℚ) / u + 1 / 2⌋ = ((a + u / 2) / u : Nat) := by
  have hsum : (a : ℚ) / u + 1 / 2 = ((2 * a + u : Nat) : ℚ) / (2 * u : Nat) := by
    have hu' : (u : ℚ) ≠ 0 := by positivity
    push_cast
    field_simp
  have hdigits : (2 * a + u) / (2 * u) = (a + u / 2) / u := by
    rw [← Nat.div_div_eq_div_mul]
    congr 1
    omega
  rw [hsum, Rat.floor_natCast_div_natCast, ← Int.natCast_ediv, hdigits]

/-- A fraction, rounded by its digits. -/
theorem roundHalfAway_div (n : Int) {u : Nat} (hu : 0 < u) :
    roundHalfAway ((n : ℚ) / u) = n.sign * ((n.natAbs + u / 2) / u : Nat) := by
  have hu' : (0 : ℚ) < u := by positivity
  unfold roundHalfAway
  rcases Int.lt_trichotomy n 0 with hn | rfl | hn
  · have hneg : ¬ (0 : ℚ) ≤ (n : ℚ) / u := by
      rw [not_le]
      exact div_neg_of_neg_of_pos (by exact_mod_cast hn) hu'
    have habs : -((n : ℚ) / u) = (n.natAbs : ℚ) / u := by
      rw [← neg_div, Nat.cast_natAbs, abs_of_neg hn]
      push_cast
      rfl
    rw [if_neg hneg, habs, floor_half hu, Int.sign_eq_neg_one_of_neg hn]
    ring
  · simp only [Int.cast_zero, zero_div, le_refl, if_true, zero_add, Int.sign_zero,
      Int.zero_mul]
    norm_num
  · have hpos : (0 : ℚ) ≤ (n : ℚ) / u := div_nonneg (by exact_mod_cast hn.le) hu'.le
    have habs : (n : ℚ) / u = (n.natAbs : ℚ) / u := by
      rw [Nat.cast_natAbs, abs_of_pos hn]
    rw [if_pos hpos, habs, floor_half hu, Int.sign_eq_one_of_pos hn, Int.one_mul]

theorem roundHalfAway_intCast (n : Int) : roundHalfAway n = n := by
  have h := roundHalfAway_div n Nat.one_pos
  rw [Nat.cast_one, div_one] at h
  rw [h, Nat.div_one, Nat.add_zero, Int.sign_mul_natAbs]

theorem natAbs_roundHalfAway_div_le (n : Int) {u : Nat} (hu : 0 < u) :
    (roundHalfAway ((n : ℚ) / u)).natAbs ≤ n.natAbs := by
  rw [roundHalfAway_div n hu, Int.natAbs_mul, Int.natAbs_natCast]
  rcases eq_or_ne n 0 with rfl | hn
  · rw [Int.sign_zero, Int.natAbs_zero, Nat.zero_mul]
  · have habs := Int.natAbs_pos.mpr hn
    rw [Int.natAbs_sign_of_ne_zero hn, Nat.one_mul]
    obtain ⟨v, rfl⟩ := Nat.exists_eq_succ_of_ne_zero hu.ne'
    have hmul : v * 1 ≤ v * n.natAbs := Nat.mul_le_mul_left v habs
    apply Nat.div_le_of_le_mul
    rw [Nat.succ_mul]
    omega

/-- A tenth, or less, rounds to a smaller number. -/
theorem natAbs_roundHalfAway_div_lt {n : Int} {u : Nat} (hn : n ≠ 0) (hu : 10 ≤ u) :
    (roundHalfAway ((n : ℚ) / u)).natAbs < n.natAbs := by
  have habs := Int.natAbs_pos.mpr hn
  rw [roundHalfAway_div n (by omega), Int.natAbs_mul, Int.natAbs_sign_of_ne_zero hn, Nat.one_mul,
    Int.natAbs_natCast, Nat.div_lt_iff_lt_mul (by omega)]
  have hmul : n.natAbs * 10 ≤ n.natAbs * u := Nat.mul_le_mul_left _ hu
  have hfirst : u ≤ n.natAbs * u := Nat.le_mul_of_pos_left u habs
  omega

end DatafusionPostgres.Library
