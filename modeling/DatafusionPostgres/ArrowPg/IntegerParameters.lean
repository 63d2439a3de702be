import DatafusionPostgres.ArrowPg.BoundValues
import DatafusionPostgres.Library.IntegerFloat

/-! Integers bound where another type is expected: exact, or rejected. -/
namespace DatafusionPostgres.ArrowPg
open Library

def TimeUnit.perSecond : TimeUnit → Int
  | .second => 1
  | .millisecond => 1000
  | .microsecond => 1000000
  | .nanosecond => 1000000000

/-- A scalar that is the number; as a timestamp, the instant so many seconds after the epoch. -/
def ScalarValue.DenotesInteger (n : Int) : ScalarValue → Prop
  | .int8 value => ∃ v, value = some v ∧ v.toInt = n
  | .int16 value => ∃ v, value = some v ∧ v.toInt = n
  | .int32 value => ∃ v, value = some v ∧ v.toInt = n
  | .int64 value => ∃ v, value = some v ∧ v.toInt = n
  | .uint8 value => ∃ v, value = some v ∧ (v.toNat : Int) = n
  | .uint16 value => ∃ v, value = some v ∧ (v.toNat : Int) = n
  | .uint32 value => ∃ v, value = some v ∧ (v.toNat : Int) = n
  | .uint64 value => ∃ v, value = some v ∧ (v.toNat : Int) = n
  | .float32 value => ∃ v, value = some v ∧ floatNumber v.toModel.unpack = some (n : ℚ)
  | .float64 value => ∃ v, value = some v ∧ floatNumber v.toModel.unpack = some (n : ℚ)
  | .timestampSecond value tz =>
    (ScalarValue.timestampSecond value tz).DenotesInstant ⟨n * 1000000000⟩
  | .timestampMillisecond value tz =>
    (ScalarValue.timestampMillisecond value tz).DenotesInstant ⟨n * 1000000000⟩
  | .timestampMicrosecond value tz =>
    (ScalarValue.timestampMicrosecond value tz).DenotesInstant ⟨n * 1000000000⟩
  | .timestampNanosecond value tz =>
    (ScalarValue.timestampNanosecond value tz).DenotesInstant ⟨n * 1000000000⟩
  | _ => False

/-- What the conversion of the integer should come to: an error, or the number in the type that
is asked for, the number of units in the range of an `i64`. -/
structure ExactOrRejected (n : Int64) (target : DataType) (result : PgWireResult ScalarValue) :
    Prop where
  kept : ∀ v, result = .ok v → v.dataType = target ∧ v.DenotesInteger n.toInt
  inRange : ∀ v, result = .ok v → ∀ unit tz, target = .timestamp unit tz →
    fitsI64 (n.toInt * unit.perSecond)

/-- A float target has the digits for the integer, a timestamp the range, and no time zone. -/
def IntegerFits (n : Int64) : DataType → Prop
  | .float32 => Representable 24 n.toInt
  | .float64 => Representable 53 n.toInt
  | .timestamp unit tz => tz = none ∧ fitsI64 (n.toInt * unit.perSecond)
  | _ => True

section Targets
variable {n : Int64}

private theorem exact_rejected (target : DataType) (e : PgWireError) :
    ExactOrRejected n target (.error e) where
  kept := by
    rintro v ⟨⟩
  inRange := by
    rintro v ⟨⟩

private theorem exact_iff_of_ok {target : DataType} {v : ScalarValue}
    (h : ∀ unit tz, target ≠ .timestamp unit tz) (htype : v.dataType = target) :
    ExactOrRejected n target (.ok v) ↔ v.DenotesInteger n.toInt := by
  constructor
  · intro hexact
    exact (hexact.kept v rfl).2
  · intro hdenotes
    refine ⟨?_, fun _ _ unit tz heq => absurd heq (h unit tz)⟩
    rintro _ ⟨⟩
    exact ⟨htype, hdenotes⟩

private theorem checked_exact {τ : Type} {low high : Int} {ofInt : Int → τ}
    {target : DataType} (scalar : Option τ → ScalarValue)
    (h : ∀ unit tz, target ≠ .timestamp unit tz) (htype : ∀ v, (scalar v).dataType = target)
    (hround : low ≤ n.toInt → n.toInt ≤ high →
      (scalar (some (ofInt n.toInt))).DenotesInteger n.toInt) :
    ExactOrRejected n target (do
      return scalar (← (some n).mapM (checkedIntCast (tryFromI64 low high ofInt) target))) := by
  by_cases hfits : low ≤ n.toInt ∧ n.toInt ≤ high
  · have hcast : checkedIntCast (tryFromI64 low high ofInt) target n = .ok (ofInt n.toInt) := by
      rw [checkedIntCast, tryFromI64, if_pos hfits, orOutOfRange]
    have hrun : (do return scalar (← (some n).mapM
        (checkedIntCast (tryFromI64 low high ofInt) target)) : PgWireResult ScalarValue) =
        .ok (scalar (some (ofInt n.toInt))) := by
      simp only [Option.mapM, hcast]
      rfl
    rw [hrun]
    exact (exact_iff_of_ok h (htype _)).mpr (hround hfits.1 hfits.2)
  · have hcast : checkedIntCast (tryFromI64 low high ofInt) target n =
        .error (outOfRangeError "INT" n target) := by
      rw [checkedIntCast, tryFromI64, if_neg hfits, orOutOfRange]
    have hrun : (do return scalar (← (some n).mapM
        (checkedIntCast (tryFromI64 low high ofInt) target)) : PgWireResult ScalarValue) =
        .error (outOfRangeError "INT" n target) := by
      simp only [Option.mapM, hcast]
      rfl
    rw [hrun]
    exact exact_rejected target _

private theorem log2_natAbs_lt (n : Int64) : n.toInt.natAbs.log2 < 64 := by
  by_cases hzero : n.toInt.natAbs = 0
  · rw [hzero]
    decide
  · rw [Nat.log2_lt hzero]
    have hlow := n.le_toInt
    have hhigh := n.toInt_lt
    omega

private theorem float32_exact_iff :
    ExactOrRejected n .float32 (.ok (.float32 (some (i64AsF32 n)))) ↔
      Representable 24 n.toInt := by
  have htarget : ∀ unit tz, DataType.float32 ≠ .timestamp unit tz := by
    rintro unit tz ⟨⟩
  refine (exact_iff_of_ok htarget rfl).trans ?_
  have hround := floatNumber_ofInt_iff .binary32 (by decide)
    ((Nat.succ_lt_succ (log2_natAbs_lt n)).trans (by decide))
  refine Iff.trans ?_ hround
  constructor
  · rintro ⟨_, heq, hvalue⟩
    cases heq
    exact hvalue
  · intro hvalue
    exact ⟨_, rfl, hvalue⟩

private theorem float64_exact_iff :
    ExactOrRejected n .float64 (.ok (.float64 (some (i64AsF64 n)))) ↔
      Representable 53 n.toInt := by
  have htarget : ∀ unit tz, DataType.float64 ≠ .timestamp unit tz := by
    rintro unit tz ⟨⟩
  refine (exact_iff_of_ok htarget rfl).trans ?_
  have hround := floatNumber_ofInt_iff .binary64 (by decide)
    ((Nat.succ_lt_succ (log2_natAbs_lt n)).trans (by decide))
  refine Iff.trans ?_ hround
  constructor
  · rintro ⟨_, heq, hvalue⟩
    cases heq
    exact hvalue
  · intro hvalue
    exact ⟨_, rfl, hvalue⟩

theorem Int64.toInt_mul_iff (a b : Int64) :
    (a * b).toInt = a.toInt * b.toInt ↔ fitsI64 (a.toInt * b.toInt) := by
  constructor
  · intro h
    rw [← h]
    exact ⟨(a * b).le_toInt, Int.le_sub_one_of_lt (a * b).toInt_lt⟩
  · rintro ⟨hlow, hhigh⟩
    rw [Int64.toInt_mul]
    exact Int.bmod_eq_of_le (by omega) (by omega)

private theorem scaled_iff {unit : TimeUnit} {tz : Option String} {v : ScalarValue}
    {value : Int64} (htype : v.dataType = .timestamp unit none)
    (hdenotes : v.DenotesInteger n.toInt ↔ value.toInt = n.toInt * unit.perSecond)
    (hvalue : value.toInt = n.toInt * unit.perSecond ↔ fitsI64 (n.toInt * unit.perSecond)) :
    ExactOrRejected n (.timestamp unit tz) (.ok v) ↔
      tz = none ∧ fitsI64 (n.toInt * unit.perSecond) := by
  constructor
  · intro h
    have hkept := (h.kept _ rfl).1
    rw [htype] at hkept
    cases hkept
    exact ⟨rfl, h.inRange _ rfl unit none rfl⟩
  · rintro ⟨rfl, hfits⟩
    constructor
    · rintro _ ⟨⟩
      exact ⟨htype, hdenotes.mpr (hvalue.mpr hfits)⟩
    · rintro _ _ unit' tz' ⟨⟩
      exact hfits

private theorem some_toInt_iff {v : Int64} {z w : Int} (h : z = w) :
    (∃ u, some v = some u ∧ u.toInt = z) ↔ v.toInt = w := by
  subst h
  constructor
  · rintro ⟨_, heq, hint⟩
    cases heq
    exact hint
  · intro hint
    exact ⟨v, rfl, hint⟩

private theorem fdiv_of_mul_eq {a b c : Int} (hb : b ≠ 0) (h : a * b = c) :
    (n.toInt * c).fdiv b = n.toInt * a := by
  rw [← h, ← Int.mul_assoc, Int.mul_fdiv_cancel _ hb]

private theorem timestamp_exact_iff (unit : TimeUnit) (tz : Option String) :
    ExactOrRejected n (.timestamp unit tz) (coerceIntValue (some n) (.timestamp unit tz)) ↔
      tz = none ∧ fitsI64 (n.toInt * unit.perSecond) := by
  have hfits : fitsI64 (n.toInt * 1) := by
    rw [Int.mul_one]
    exact ⟨n.le_toInt, Int.le_sub_one_of_lt n.toInt_lt⟩
  cases unit with
  | second =>
    have hunits : (n.toInt * 1000000000).fdiv 1000000000 = n.toInt * 1 :=
      fdiv_of_mul_eq (by decide) rfl
    exact scaled_iff rfl (some_toInt_iff hunits) (iff_of_true (Int.mul_one _).symm hfits)
  | millisecond =>
    have hunits : (n.toInt * 1000000000).fdiv 1000000 = n.toInt * 1000 :=
      fdiv_of_mul_eq (by decide) rfl
    exact scaled_iff rfl (some_toInt_iff hunits) (Int64.toInt_mul_iff n 1000)
  | microsecond =>
    have hunits : (n.toInt * 1000000000).fdiv 1000 = n.toInt * 1000000 :=
      fdiv_of_mul_eq (by decide) rfl
    exact scaled_iff rfl (some_toInt_iff hunits) (Int64.toInt_mul_iff n 1000000)
  | nanosecond =>
    exact scaled_iff rfl (some_toInt_iff rfl) (Int64.toInt_mul_iff n 1000000000)

end Targets

/-- An integer is bound exactly, or rejected, exactly if the target has room for it. -/
theorem coerceIntValue_exact_iff (n : Int64) (target : DataType) :
    ExactOrRejected n target (coerceIntValue (some n) target) ↔ IntegerFits n target := by
  cases target with
  | int8 =>
    refine iff_true_intro (checked_exact .int8 (by rintro unit tz ⟨⟩) (fun _ => rfl) ?_)
    intro hlow hhigh
    exact ⟨_, rfl, Int8.toInt_ofInt_of_le hlow (by omega)⟩
  | int16 =>
    refine iff_true_intro (checked_exact .int16 (by rintro unit tz ⟨⟩) (fun _ => rfl) ?_)
    intro hlow hhigh
    exact ⟨_, rfl, Int16.toInt_ofInt_of_le hlow (by omega)⟩
  | int32 =>
    refine iff_true_intro (checked_exact .int32 (by rintro unit tz ⟨⟩) (fun _ => rfl) ?_)
    intro hlow hhigh
    exact ⟨_, rfl, Int32.toInt_ofInt_of_le hlow (by omega)⟩
  | int64 =>
    have htarget : ∀ unit tz, DataType.int64 ≠ .timestamp unit tz := by
      rintro unit tz ⟨⟩
    exact iff_true_intro ((exact_iff_of_ok htarget rfl).mpr ⟨n, rfl, rfl⟩)
  | uint8 =>
    refine iff_true_intro (checked_exact .uint8 (by rintro unit tz ⟨⟩) (fun _ => rfl) ?_)
    intro hlow hhigh
    have hlt : n.toInt.toNat < 2 ^ 8 := by omega
    have hback := congrArg Int.ofNat (UInt8.toNat_ofNat_of_lt' hlt)
    exact ⟨_, rfl, hback.trans (Int.toNat_of_nonneg hlow)⟩
  | uint16 =>
    refine iff_true_intro (checked_exact .uint16 (by rintro unit tz ⟨⟩) (fun _ => rfl) ?_)
    intro hlow hhigh
    have hlt : n.toInt.toNat < 2 ^ 16 := by omega
    have hback := congrArg Int.ofNat (UInt16.toNat_ofNat_of_lt' hlt)
    exact ⟨_, rfl, hback.trans (Int.toNat_of_nonneg hlow)⟩
  | uint32 =>
    refine iff_true_intro (checked_exact .uint32 (by rintro unit tz ⟨⟩) (fun _ => rfl) ?_)
    intro hlow hhigh
    have hlt : n.toInt.toNat < 2 ^ 32 := by omega
    have hback := congrArg Int.ofNat (UInt32.toNat_ofNat_of_lt' hlt)
    exact ⟨_, rfl, hback.trans (Int.toNat_of_nonneg hlow)⟩
  | uint64 =>
    refine iff_true_intro (checked_exact .uint64 (by rintro unit tz ⟨⟩) (fun _ => rfl) ?_)
    intro hlow hhigh
    have hlt : n.toInt.toNat < 2 ^ 64 := by omega
    have hback := congrArg Int.ofNat (UInt64.toNat_ofNat_of_lt' hlt)
    exact ⟨_, rfl, hback.trans (Int.toNat_of_nonneg hlow)⟩
  | float32 => exact float32_exact_iff
  | float64 => exact float64_exact_iff
  | timestamp unit tz => exact timestamp_exact_iff unit tz
  | _ => exact iff_true_intro (exact_rejected _ _)

/-- Ten thousand million seconds after the epoch, in the year 2286, wrap as nanoseconds. -/
theorem coerceIntValue_nanoseconds_wrap :
    ¬ ExactOrRejected 10000000000 (.timestamp .nanosecond none)
      (coerceIntValue (some 10000000000) (.timestamp .nanosecond none)) := by
  intro h
  have hfits := h.inRange _ rfl .nanosecond none rfl
  exact absurd hfits.2 (by decide)

end DatafusionPostgres.ArrowPg
