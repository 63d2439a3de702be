import Mathlib

/-! Whole numbers as binary floating-point numbers: which of them are kept. -/
namespace DatafusionPostgres.Library
open Float.Model (Format UnpackedFloat)
open Float.Model.UnpackedFloat

/-- The number that a float stands for, if it is finite. -/
def floatNumber : UnpackedFloat → Option ℚ
  | .zero _ => some 0
  | .finite sign mantissa exponent _ => some (sign.apply mantissa * 2 ^ exponent)
  | _ => none

/-- The number needs no more binary digits than that, trailing zeros apart. -/
def Representable (bits : Nat) (n : Int) : Prop :=
  ∃ (m : Int) (k : Nat), m.natAbs < 2 ^ bits ∧ n = m * 2 ^ k

theorem natAbs_apply (sign : Sign) (m : Nat) : (sign.apply m).natAbs = m := by
  cases sign with
  | negative => exact (Int.natAbs_neg _).trans (Int.natAbs_natCast m)
  | positive => exact Int.natAbs_natCast m

theorem representable_of_scaled {bits : Nat} {n m e : Int} (hm : m.natAbs < 2 ^ bits)
    (h : (m : ℚ) * 2 ^ e = n) : Representable bits n := by
  rcases Int.le_total 0 e with he | he
  · obtain ⟨k, rfl⟩ := Int.eq_ofNat_of_zero_le he
    refine ⟨m, k, hm, ?_⟩
    rw [zpow_natCast] at h
    exact_mod_cast h.symm
  · obtain ⟨k, hk⟩ := Int.eq_ofNat_of_zero_le (Int.neg_nonneg_of_nonpos he)
    obtain rfl : e = -(k : Int) := by omega
    have hshift : m = n * 2 ^ k := by
      rw [zpow_neg, zpow_natCast, mul_inv_eq_iff_eq_mul₀ (by positivity)] at h
      exact_mod_cast h
    refine ⟨n, 0, lt_of_le_of_lt ?_ hm, by rw [pow_zero, mul_one]⟩
    rw [hshift, Int.natAbs_mul]
    exact Nat.le_mul_of_pos_right _ (Int.natAbs_pos.mpr (by positivity))

theorem floatNumber_finite {sign m e hm} {n : Int} :
    floatNumber (.finite sign m e hm) = some (n : ℚ) ↔ (sign.apply m : ℚ) * 2 ^ e = n := by
  rw [floatNumber, Option.some.injEq]

theorem representable_of_unpack {spec : Format} {b : BitVec spec.numBits} {n : Int}
    (h : floatNumber (unpack spec b) = some (n : ℚ)) : Representable spec.mantissaBits n := by
  unfold unpack at h
  dsimp only at h
  split at h
  · split at h <;> cases h
  split at h
  · split at h
    · rw [floatNumber, Option.some.injEq] at h
      refine ⟨0, 0, ?_, ?_⟩
      · exact Nat.two_pow_pos _
      · rw [zero_mul]
        exact_mod_cast h.symm
    · rw [floatNumber_finite] at h
      apply representable_of_scaled _ h
      rw [natAbs_apply, Format.mantissaBits]
      exact lt_of_lt_of_le (BitVec.isLt _) (Nat.pow_le_pow_right (by decide) (Nat.le_add_left _ _))
  · rw [floatNumber_finite] at h
    apply representable_of_scaled _ h
    rw [natAbs_apply]
    exact BitVec.isLt _

theorem unpackSign_packComponents {spec : Format} {sign exponent mantissa} :
    unpackSign (packComponents spec sign exponent mantissa) = sign.toBitVec := by
  ext i hi
  have h0 : i = 0 := by omega
  subst h0
  simp [unpackSign, packComponents, BitVec.getLsbD_eq_getElem, BitVec.getLsbD_append,
    BitVec.getElem_append]

theorem ofBitVec_toBitVec (sign : Sign) : Sign.ofBitVec sign.toBitVec = sign := by
  cases sign <;> rfl

theorem floatNumber_unpack_zero {spec : Format} (sign : Sign) :
    floatNumber (unpack spec (pack spec (.zero sign))) = some ((0 : Int) : ℚ) := by
  have hones : (0 : BitVec spec.exponentBits) ≠ -1#_ := by
    intro h
    have hnat := congrArg BitVec.toNat h
    rw [BitVec.neg_one_eq_allOnes, BitVec.toNat_allOnes] at hnat
    have : 1 < 2 ^ spec.exponentBits := Nat.one_lt_two_pow spec.he.ne'
    change 0 = _ at hnat
    omega
  have hzero : unpack spec (pack spec (.zero sign)) = .zero sign := by
    simp only [pack, packedZero, unpack, unpackExponent_packComponents,
      unpackMantissa_packComponents, unpackSign_packComponents, ofBitVec_toBitVec, if_neg hones]
    rfl
  rw [hzero, floatNumber, Int.cast_zero]

/-- A normal number is packed without loss. -/
theorem unpack_pack {spec : Format} {sign : Sign} {m : Nat} {e : Int} {hm : 0 < m}
    (hlog : m.log2 = spec.mantissaBitsWithoutImplicit) {biased : Nat} (hpos : 0 < biased)
    (hbiased : e + spec.exponentBias + spec.mantissaBitsWithoutImplicit = biased)
    (hlt : biased + 1 < 2 ^ spec.exponentBits) :
    unpack spec (pack spec (.finite sign m e hm)) = .finite sign m e hm := by
  have hlow : 2 ^ spec.mantissaBitsWithoutImplicit ≤ m := hlog ▸ Nat.log2_self_le hm.ne'
  have hhigh : m < 2 ^ (spec.mantissaBitsWithoutImplicit + 1) := hlog ▸ Nat.lt_log2_self
  have hpack : pack spec (.finite sign m e hm) =
      packComponents spec sign (BitVec.ofNat _ biased) (BitVec.ofNat _ m) := by
    unfold pack
    dsimp only
    rw [hbiased, Int.toNat_natCast, if_neg (by omega), if_pos]
    rw [hlog, Format.mantissaBits, Nat.add_comm]
  have hexponent : (BitVec.ofNat spec.exponentBits biased).toNat = biased := by
    rw [BitVec.toNat_ofNat, Nat.mod_eq_of_lt (by omega)]
  have hones : BitVec.ofNat spec.exponentBits biased ≠ -1#_ := by
    intro h
    have := congrArg BitVec.toNat h
    rw [hexponent, BitVec.neg_one_eq_allOnes, BitVec.toNat_allOnes] at this
    omega
  have hzero : BitVec.ofNat spec.exponentBits biased ≠ 0#_ := by
    intro h
    have := congrArg BitVec.toNat h
    rw [hexponent, BitVec.toNat_zero] at this
    omega
  have hmantissa : (1#1 ++ BitVec.ofNat spec.mantissaBitsWithoutImplicit m).toNat = m := by
    have hmod : m % 2 ^ spec.mantissaBitsWithoutImplicit =
        m - 2 ^ spec.mantissaBitsWithoutImplicit := by
      rw [Nat.mod_eq_sub_mod hlow, Nat.mod_eq_of_lt (by omega)]
    rw [BitVec.toNat_append, BitVec.toNat_ofNat, BitVec.toNat_ofNat, hmod,
      ← Nat.shiftLeft_add_eq_or_of_lt (by omega), Nat.one_mod_eq_one.mpr (by decide),
      Nat.one_shiftLeft]
    omega
  have hback : (biased : Int) - (spec.exponentBias + spec.mantissaBitsWithoutImplicit) = e := by
    omega
  rw [hpack]
  simp only [unpack, unpackExponent_packComponents, unpackMantissa_packComponents,
    unpackSign_packComponents, if_neg hones, if_neg hzero, hmantissa, hexponent, hback,
    ofBitVec_toBitVec]

theorem shiftRight_exact (m n : Nat) :
    (ExtendedMantissa.mk (m * 2 ^ n) false false) >>> n = ExtendedMantissa.mk m false false := by
  change n.repeat ExtendedMantissa.shiftRightOne _ = _
  induction n generalizing m with
  | zero => rw [pow_zero, Nat.mul_one]; rfl
  | succ n ih =>
    have hsplit : m * 2 ^ (n + 1) = m * 2 * 2 ^ n := by ring
    rw [Nat.repeat, hsplit, ih, ExtendedMantissa.shiftRightOne]
    simp

theorem log2_mul_two_pow {m : Nat} (hm : m ≠ 0) (n : Nat) : (m * 2 ^ n).log2 = m.log2 + n := by
  induction n with
  | zero => rw [pow_zero, Nat.mul_one, Nat.add_zero]
  | succ n ih =>
    have hsplit : m * 2 ^ (n + 1) = 2 * (m * 2 ^ n) := by ring
    rw [hsplit, Nat.log2_two_mul (by positivity), ih, Nat.add_assoc]

section Rounding
variable {spec : Format} {sign : Sign} {m : Nat} {e : Int}

theorem targetExponent_eq (hlog : m.log2 = spec.mantissaBitsWithoutImplicit)
    (hmin : spec.minExponent ≤ e) :
    spec.targetExponent (Float.Model.totalExponent m e) = e := by
  rw [Format.targetExponent, Float.Model.totalExponent, hlog, Format.mantissaBits]
  push_cast
  rw [max_eq_left] <;> omega

/-- The spare bits of a mantissa are shifted out when they are zero. -/
theorem shiftToTargetExponent_exact (hm : 0 < m)
    (hlog : m.log2 = spec.mantissaBitsWithoutImplicit) (hmin : spec.minExponent ≤ e) (j : Nat) :
    shiftToTargetExponent spec (m * 2 ^ j) (e - j) .exact = (⟨m, false, false⟩, e) := by
  have htotal : Float.Model.totalExponent (m * 2 ^ j) (e - j) = Float.Model.totalExponent m e := by
    rw [Float.Model.totalExponent, Float.Model.totalExponent, log2_mul_two_pow hm.ne']
    push_cast
    ring
  have hamount : (e - (e - j)).toNat = j := by omega
  rw [shiftToTargetExponent, htotal, targetExponent_eq hlog hmin, shiftToExponent, hamount]
  exact Prod.ext (shiftRight_exact m j) (Int.sub_add_cancel e j)

theorem roundWithAccuracy_exact (sign : Sign) (hm : 0 < m)
    (hlog : m.log2 = spec.mantissaBitsWithoutImplicit) (hmin : spec.minExponent ≤ e) (j : Nat) :
    roundWithAccuracy spec sign (m * 2 ^ j) (e - j) .exact = .finite sign m e hm := by
  have hagain := shiftToTargetExponent_exact hm hlog hmin 0
  rw [pow_zero, Nat.mul_one, Nat.cast_zero, Int.sub_zero] at hagain
  simp only [roundWithAccuracy, shiftToTargetExponent_exact hm hlog hmin j,
    ExtendedMantissa.roundedMantissa, ExtendedMantissa.accuracy, Accuracy.roundToNearestEven,
    hagain, dif_neg hm.ne']

end Rounding

/-- A whole number that needs no more bits than the mantissa has is rounded to itself. -/
theorem round_exact {spec : Format} {sign : Sign} {n : Nat} (hn : 0 < n)
    (hexponent : 2 ≤ 2 ^ (spec.exponentBits - 1)) (h : Representable spec.mantissaBits n) :
    ∃ (m : Nat) (e : Int) (hm : 0 < m), m.log2 = spec.mantissaBitsWithoutImplicit ∧
      e = n.log2 - spec.mantissaBitsWithoutImplicit ∧ (m : ℚ) * 2 ^ e = n ∧
      UnpackedFloat.round spec sign n 0 = .finite sign m e hm := by
  generalize hbits : spec.mantissaBitsWithoutImplicit = bits
  have hmin : spec.minExponent ≤ -bits := by
    rw [Format.minExponent, Format.mantissaBits, hbits]
    push_cast
    have : (2 : Int) ≤ 2 ^ (spec.exponentBits - 1) := by exact_mod_cast hexponent
    omega
  have htarget : spec.targetExponent (Float.Model.totalExponent n 0) = n.log2 - bits := by
    rw [Format.targetExponent, Float.Model.totalExponent, Format.mantissaBits, hbits]
    push_cast
    rw [max_eq_left] <;> omega
  rcases Nat.le_total n.log2 bits with hle | hle
  · obtain ⟨k, hk⟩ := Nat.exists_eq_add_of_le hle
    have hlog : (n * 2 ^ k).log2 = bits := by rw [log2_mul_two_pow hn.ne', hk]
    have hamount : (0 - -(k : Int)).toNat = k := by omega
    refine ⟨n * 2 ^ k, -k, by positivity, hlog, by omega, ?_, ?_⟩
    · push_cast
      rw [zpow_neg, zpow_natCast, mul_assoc, mul_inv_cancel₀ (by positivity), mul_one]
    · have htarget' : (n.log2 : Int) - bits = -k := by omega
      have hrounded :=
        roundWithAccuracy_exact sign (by positivity) (hlog.trans hbits.symm)
        (show spec.minExponent ≤ -k by omega) 0
      rw [pow_zero, Nat.mul_one, Nat.cast_zero, Int.sub_zero] at hrounded
      simp only [UnpackedFloat.round, htarget, htarget', decreaseExponent, hamount, Nat.shiftLeft_eq]
      rwa [Int.zero_sub]
  · obtain ⟨k, hk⟩ := Nat.exists_eq_add_of_le hle
    obtain ⟨m, hm⟩ : ∃ m, n = m * 2 ^ k := by
      obtain ⟨m, j, hbound, heq⟩ := h
      have hnat : n = m.natAbs * 2 ^ j := by
        have habs := congrArg Int.natAbs heq
        rwa [Int.natAbs_natCast, Int.natAbs_mul, Int.natAbs_pow] at habs
      have hne : m.natAbs ≠ 0 := by
        intro hzero
        rw [hzero, Nat.zero_mul] at hnat
        exact hn.ne' hnat
      have hlog : n.log2 = m.natAbs.log2 + j := by rw [hnat, log2_mul_two_pow hne]
      have hsmall : m.natAbs.log2 < 1 + bits := by
        rw [Nat.log2_lt hne]
        rwa [Format.mantissaBits, hbits] at hbound
      obtain ⟨d, hd⟩ := Nat.exists_eq_add_of_le (show k ≤ j by omega)
      exact ⟨m.natAbs * 2 ^ d, by rw [hnat, hd]; ring⟩
    subst hm
    have hpos : 0 < m := Nat.pos_of_mul_pos_right hn
    have hlog : m.log2 = bits := by
      rw [log2_mul_two_pow hpos.ne'] at hk
      omega
    have hamount : (0 - (k : Int)).toNat = 0 := by omega
    refine ⟨m, k, hpos, hlog, by omega, ?_, ?_⟩
    · push_cast
      rw [zpow_natCast]
    · have htarget' : ((m * 2 ^ k).log2 : Int) - bits = k := by omega
      have hrounded := roundWithAccuracy_exact sign hpos (hlog.trans hbits.symm)
        (show spec.minExponent ≤ k by omega) k
      simp only [UnpackedFloat.round, htarget, htarget', decreaseExponent, hamount, Nat.shiftLeft_zero,
        Nat.cast_zero]
      rw [Int.sub_self] at hrounded
      exact hrounded

theorem floatNumber_ofInt_iff (spec : Format) {n : Int}
    (hexponent : 2 ≤ 2 ^ (spec.exponentBits - 1))
    (hrange : n.natAbs.log2 + 1 < 2 ^ (spec.exponentBits - 1)) :
    floatNumber (unpack spec (pack spec (ofInt spec n))) = some (n : ℚ) ↔
      Representable spec.mantissaBits n := by
  refine ⟨representable_of_unpack, fun h => ?_⟩
  have hbias : spec.exponentBias + 1 = 2 ^ (spec.exponentBits - 1) := by
    rw [Format.exponentBias]
    omega
  have hbits : 2 ^ spec.exponentBits = 2 * 2 ^ (spec.exponentBits - 1) := by
    rw [← pow_succ', Nat.sub_add_cancel spec.he]
  have hnonzero : ∀ (sign : Sign) (a : Nat), n = sign.apply a → 0 < a →
      floatNumber (unpack spec (pack spec (UnpackedFloat.round spec sign a 0))) = some (n : ℚ) := by
    intro sign a hsign ha
    have habs : n.natAbs = a := by rw [hsign, natAbs_apply]
    have hrep : Representable spec.mantissaBits a := by
      obtain ⟨m, k, hm, rfl⟩ := h
      refine ⟨m.natAbs, k, by rwa [Int.natAbs_natCast], ?_⟩
      rw [← habs, Int.natAbs_mul, Int.natAbs_pow]
      push_cast
      rfl
    obtain ⟨m, e, hm, hlog, he, hvalue, hround⟩ := round_exact ha hexponent hrep
    rw [habs] at hrange
    have hpack : unpack spec (pack spec (.finite sign m e hm)) = .finite sign m e hm :=
      unpack_pack hlog (show 0 < a.log2 + spec.exponentBias by omega) (by push_cast; omega)
        (by omega)
    rw [hround, hpack, floatNumber_finite, hsign]
    cases sign with
    | negative =>
      simp only [Sign.apply]
      push_cast
      rw [neg_mul, hvalue]
    | positive => exact_mod_cast hvalue
  unfold ofInt UnpackedFloat.normalize
  rcases Int.lt_trichotomy n 0 with hneg | rfl | hpos
  · rw [Int.compare_eq_lt.mpr hneg]
    exact hnonzero .negative (-n).toNat (by simp only [Sign.apply]; omega) (by omega)
  · exact floatNumber_unpack_zero .positive
  · rw [Int.compare_eq_gt.mpr hpos]
    exact hnonzero .positive n.toNat (by simp only [Sign.apply]; omega) (by omega)

end DatafusionPostgres.Library
