import DatafusionPostgres.ArrowPg.ReferenceLibraries
import Mathlib.Algebra.Order.Field.Power
import Mathlib.Algebra.Order.Field.Rat
import Mathlib.Data.List.Forall2
import Mathlib.Tactic.Positivity
import Mathlib.Tactic.NormNum

/-! Which scalars denote a bound value, and which values fit the type that the query
expects. A number is kept by its conversion exactly if it fits. -/
namespace DatafusionPostgres.ArrowPg
open Library

/-- The number that a decimal stands for. -/
def Decimal.number (d : Decimal) : ℚ := d.mantissa / 10 ^ d.scale

/-- A value of a type whose conversions may not have room for it. -/
inductive BoundValue where
  | numeric (value : Decimal)
  | timestamp (value : NaiveDateTime)
  | timestamptz (value : DateTime)
  | numericArray (values : List (Option Decimal))

def BoundValue.pgType : BoundValue → PgType
  | .numeric _ => .numeric
  | .timestamp _ => .timestamp
  | .timestamptz _ => .timestamptz
  | .numericArray _ => .numericArray

/-- The value that the parameter is read as. -/
def BoundParameter.Holds (param : BoundParameter) : BoundValue → Prop
  | .numeric value => param.read .decimal .numeric = .ok (some value)
  | .timestamp value => param.read .naiveDateTime .timestamp = .ok (some value)
  | .timestamptz value => param.read .dateTime .timestamptz = .ok (some value)
  | .numericArray values => param.read (.vec .decimal) .numericArray = .ok (some values)

/-- The number is an integer. -/
def Decimal.Whole (d : Decimal) : Prop := ∃ n : Int, (n : ℚ) = d.number

/-- A scalar that is the number, or the numeral of it; as a float, the one that the library takes
for it. -/
def ScalarValue.DenotesNumber (libs : ParamLibraries) (d : Decimal) : ScalarValue → Prop
  | .decimal128 value _ scale => ∃ m, value = some m ∧ (m : ℚ) / 10 ^ scale.toInt = d.number
  | .uint8 value => ∃ n, value = some n ∧ ((n.toNat : ℤ) : ℚ) = d.number
  | .uint16 value => ∃ n, value = some n ∧ ((n.toNat : ℤ) : ℚ) = d.number
  | .int8 value => ∃ n, value = some n ∧ (n.toInt : ℚ) = d.number
  | .int16 value => ∃ n, value = some n ∧ (n.toInt : ℚ) = d.number
  | .utf8 value => ∃ n : Int, value = some (toString n) ∧ (n : ℚ) = d.number
  | .largeUtf8 value => ∃ n : Int, value = some (toString n) ∧ (n : ℚ) = d.number
  | .other _ value => ∃ n, value = some n ∧ n = some d.number
  | .uint64 value => ∃ n, value = some n ∧ ((n.toNat : ℤ) : ℚ) = d.number
  | .uint32 value => ∃ n, value = some n ∧ ((n.toNat : ℤ) : ℚ) = d.number
  | .int64 value => ∃ n, value = some n ∧ (n.toInt : ℚ) = d.number
  | .int32 value => ∃ n, value = some n ∧ (n.toInt : ℚ) = d.number
  | .float64 value => ∃ f, value = some f ∧ libs.toF64 d = some f
  | .float32 value => ∃ f, value = some f ∧ libs.toF32 d = some f
  | _ => False

/-- A scalar that is the instant, in whole units of its type. -/
def ScalarValue.DenotesInstant (t : NaiveDateTime) : ScalarValue → Prop
  | .timestampSecond value _ => ∃ n, value = some n ∧ n.toInt = t.nanoseconds.fdiv 1000000000
  | .timestampMillisecond value _ => ∃ n, value = some n ∧ n.toInt = t.nanoseconds.fdiv 1000000
  | .timestampMicrosecond value _ => ∃ n, value = some n ∧ n.toInt = t.nanoseconds.fdiv 1000
  | .timestampNanosecond value _ => ∃ n, value = some n ∧ n.toInt = t.nanoseconds
  | _ => False

def BoundValue.DenotedBy (libs : ParamLibraries) : BoundValue → ScalarValue → Prop
  | .numeric d, v => v.DenotesNumber libs d
  | .timestamp t, v => v.DenotesInstant t
  | .timestamptz t, v => v.DenotesInstant t.utc
  | .numericArray ds, .list _ values =>
    List.Forall₂ (fun d v => ∀ n, d = some n → v.DenotesNumber libs n) ds values
  | .numericArray _, _ => False

/-- The turn returns an error, or pushes one scalar, which denotes the value. -/
def BoundValue.KeptOrRejected (libs : ParamLibraries) (value : BoundValue) :
    Except Failure (List ScalarValue) → Prop
  | .ok pushed => ∃ v, pushed = [v] ∧ value.DenotedBy libs v
  | .error failure => ∃ error, failure = .err error

/-- The turn returns an error, or pushes one scalar, which is as it should be. -/
def PushedOrRejected (P : ScalarValue → Prop) : Except Failure (List ScalarValue) → Prop
  | .ok pushed => ∃ v, pushed = [v] ∧ P v
  | .error failure => ∃ error, failure = .err error

theorem pushedOrRejected_ok {P : ScalarValue → Prop} {v : ScalarValue} :
    PushedOrRejected P (.ok [v]) ↔ P v := by
  constructor
  · rintro ⟨v', hv, h⟩
    cases hv
    exact h
  · intro h
    exact ⟨v, rfl, h⟩

theorem ScalarValue.DenotesNumber.not_null {libs : ParamLibraries} {d : Decimal} {v : ScalarValue}
    (h : v.DenotesNumber libs d) : v.isNull = false := by
  cases v with
  | decimal128 | uint8 | uint16 | uint32 | uint64 | int8 | int16 | int32 | int64 | float64
  | float32 | utf8 | largeUtf8 | other =>
    obtain ⟨n, rfl, _⟩ := h
    rfl
  | _ => exact h.elim

/-- What denotes a value is not NULL. -/
theorem BoundValue.DenotedBy.not_null {libs : ParamLibraries} {value : BoundValue} {v : ScalarValue}
    (h : value.DenotedBy libs v) : v.isNull = false := by
  have hinstant : ∀ {t : NaiveDateTime}, v.DenotesInstant t → v.isNull = false := by
    intro t h
    cases v with
    | timestampSecond | timestampMillisecond | timestampMicrosecond | timestampNanosecond =>
      obtain ⟨n, rfl, _⟩ := h
      rfl
    | _ => exact h.elim
  cases value with
  | numeric d => exact ScalarValue.DenotesNumber.not_null h
  | timestamp t => exact hinstant h
  | timestamptz t => exact hinstant h
  | numericArray ds =>
    cases v with
    | list => rfl
    | _ => exact h.elim

/-- What is documented of the clock readings of `chrono`: whole units, rounded down. -/
structure ParamLibraries.ReadsClock (libs : ParamLibraries) : Prop where
  numSecondsFromMidnight : ∀ t, libs.numSecondsFromMidnight t = .ofNat (t.nanoseconds / 1000000000)
  nanosecond : ∀ t, libs.nanosecond t = .ofNat (t.nanoseconds % 1000000000)
  timestamp : ∀ t, libs.timestamp t = .ofInt (t.nanoseconds.fdiv 1000000000)
  timestampMillis : ∀ t, libs.timestampMillis t = .ofInt (t.nanoseconds.fdiv 1000000)
  timestampMicros : ∀ t, libs.timestampMicros t = .ofInt (t.nanoseconds.fdiv 1000)
  /-- No value out of range. -/
  timestampNanosOpt : ∀ t, libs.timestampNanosOpt t =
    fitInteger (-2 ^ 63) (2 ^ 63 - 1) Int64.ofInt t.nanoseconds

/-- What is documented of the conversions of `rust_decimal`. -/
structure ParamLibraries.ReadsDecimals (libs : ParamLibraries) : Prop where
  /-- Truncation toward zero, and no value out of range. -/
  toU64 : ∀ d, libs.toU64 d = fitUnsigned (2 ^ 64 - 1) UInt64.ofNat d
  toU32 : ∀ d, libs.toU32 d = fitUnsigned (2 ^ 32 - 1) UInt32.ofNat d
  toI64 : ∀ d, libs.toI64 d = fitInteger (-2 ^ 63) (2 ^ 63 - 1) Int64.ofInt d.toInteger
  toI32 : ∀ d, libs.toI32 d = fitInteger (-2 ^ 31) (2 ^ 31 - 1) Int32.ofInt d.toInteger
  toF64 : ∀ d, ∃ f, libs.toF64 d = some f
  toF32 : ∀ d, ∃ f, libs.toF32 d = some f
  /-- More digits leave the number as it is, however many there is room for. -/
  rescale_number : ∀ d s, d.scale ≤ s.toNat → (libs.rescale d s).number = d.number
  /-- A scale that the number has room at is reached without rounding. -/
  rescale_mantissa : ∀ d s (m : Int), s.toNat ≤ 28 → m.natAbs < 2 ^ 96 →
    (m : ℚ) / 10 ^ s.toNat = d.number → (libs.rescale d s).mantissa = m

/-- What is documented of the functions that the conversions call. A decimal without fractional
digits is cast to whole numbers, where it is not to floats. -/
structure ParamLibraries.Documented (libs : ParamLibraries) : Prop
    extends libs.ReadsClock, libs.ReadsDecimals, libs.CastsLists where
  cast_number : ∀ m elementType e d, elementType ≠ .float64 → elementType ≠ .float32 →
    libs.castElement (.decimal128 (some m) 38 0) elementType = some e →
      e.DenotesNumber libs d → d.Whole

/-- The number is an integer of the range. -/
def Decimal.FitsInteger (d : Decimal) (low high : Int) : Prop :=
  ∃ n : Int, low ≤ n ∧ n ≤ high ∧ (n : ℚ) = d.number

/-- The number needs no more digits than the scale has, and has room at it. -/
def Decimal.FitsScale (d : Decimal) (scale : Int8) : Prop :=
  d.mantissa = 0 ∨ ∃ (m : Int) (n : Nat), m.natAbs < 2 ^ 96 ∧ n ≤ 28 ∧ scale.toInt = n ∧
    (m : ℚ) / 10 ^ n = d.number

def Decimal.Fits (d : Decimal) : Option DataType → Prop
  | some (.decimal128 _ s) => d.FitsScale s
  | some .uint64 => d.FitsInteger 0 (2 ^ 64 - 1)
  | some .uint32 => d.FitsInteger 0 (2 ^ 32 - 1)
  | some .int64 => d.FitsInteger (-2 ^ 63) (2 ^ 63 - 1)
  | some .int32 => d.FitsInteger (-2 ^ 31) (2 ^ 31 - 1)
  | _ => True

/-- Elements of most types are cast from decimals without fractional digits: the number is an
integer, of the range of an integer type, and of any other type there is a cast that keeps it. -/
def Decimal.FitsElement (libs : ParamLibraries) (d : Decimal) (elementType : DataType) : Prop :=
  match elementType, elementType.integer with
  | .decimal128 _ s, _ => d.FitsScale s
  | .float64, _ | .float32, _ => True
  | _, some type => d.FitsInteger type.low type.high
  | _, none => ∃ (m : Int) (e : ScalarValue), (m : ℚ) = d.number ∧
      libs.castElement (.decimal128 (some m) 38 0) elementType = some e ∧ e.DenotesNumber libs d

/-- NULL has such a cast, too. -/
def DataType.TakesNull (libs : ParamLibraries) : DataType → Prop
  | .decimal128 _ _ | .float64 | .float32 => True
  | elementType => ∃ e, libs.castElement (.decimal128 none 38 0) elementType = some e

def fitsI64 (n : Int) : Prop := -2 ^ 63 ≤ n ∧ n ≤ 2 ^ 63 - 1

def NaiveDateTime.Fits (t : NaiveDateTime) : Option DataType → Prop
  | some (.timestamp .second _) => fitsI64 (t.nanoseconds.fdiv 1000000000)
  | some (.timestamp .millisecond _) => fitsI64 (t.nanoseconds.fdiv 1000000)
  | some (.timestamp .nanosecond _) => fitsI64 t.nanoseconds
  | some (.timestamp .microsecond _) | none => fitsI64 (t.nanoseconds.fdiv 1000)
  | some _ => True

/-- The scalar is of a type that elements can be of. -/
def ScalarValue.TypeValid (v : ScalarValue) : Prop := v.dataType.ValidElement

/-- An array whose element type is expected: that type exists, and each number fits it. -/
structure ExpectedFits (libs : ParamLibraries) (ds : List (Option Decimal))
    (elementType : DataType) : Prop where
  type : ds ≠ [] → elementType.ValidElement
  elements : ∀ n, some n ∈ ds → n.FitsElement libs elementType
  nulls : none ∈ ds → elementType.TakesNull libs

/-- The elements are whole numbers at a scale, or zero. -/
def WholeAtScale (scale : Nat) (ds : List (Option Decimal)) : Prop :=
  ∀ n, some n ∈ ds → n.mantissa = 0 ∨ n.scale = scale ∧ n.Whole

/-- Any other array that is not empty: the first element has a type, and each is a whole number
at its scale, or zero. -/
def FirstFits (libs : ParamLibraries) : List (Option Decimal) → Prop
  | [] => True
  | none :: _ => False
  | some d :: rest => (untypedNumeric libs (some d)).TypeValid ∧
    WholeAtScale d.scale (some d :: rest)

def ElementsFit (libs : ParamLibraries) (inferencedType : Option DataType)
    (ds : List (Option Decimal)) : Prop :=
  (∀ field, inferencedType = some (.list field) → ExpectedFits libs ds field.dataType) ∧
    ((∀ field, inferencedType ≠ some (.list field)) → FirstFits libs ds)

def BoundValue.Fits (libs : ParamLibraries) (inferencedType : Option DataType) :
    BoundValue → Prop
  | .numeric d => d.Fits inferencedType
  | .timestamp t => t.Fits inferencedType
  | .timestamptz t => t.utc.Fits inferencedType
  | .numericArray ds => ElementsFit libs inferencedType ds

section Numbers
variable {libs : ParamLibraries} {d : Decimal}

theorem Decimal.number_eq_iff {n : Int} {k : Nat} :
    (n : ℚ) / 10 ^ k = d.number ↔ n * 10 ^ d.scale = d.mantissa * 10 ^ k := by
  rw [Decimal.number, div_eq_div_iff (by positivity) (by positivity)]
  norm_cast

theorem Decimal.mantissa_of_whole {n : Int} (h : (n : ℚ) = d.number) :
    n * 10 ^ d.scale = d.mantissa := by
  have hunit : (n : ℚ) / 10 ^ 0 = d.number := by rw [pow_zero, div_one, h]
  have hmul := Decimal.number_eq_iff.mp hunit
  rwa [pow_zero, mul_one] at hmul

/-- Truncation is exact on integers. -/
theorem toInteger_eq {n : Int} (h : (n : ℚ) = d.number) : d.toInteger = n := by
  rw [Decimal.toInteger, ← Decimal.mantissa_of_whole h]
  exact Int.mul_tdiv_cancel _ (by positivity)

private theorem fitInteger_iff {τ : Type} {low high : Int} {ofInt : Int → τ} {toInt : τ → Int}
    (hround : ∀ n, low ≤ n → n ≤ high → toInt (ofInt n) = n)
    (hrange : ∀ t, low ≤ toInt t ∧ toInt t ≤ high) :
    (∃ t, fitInteger low high ofInt d.toInteger = some t ∧ (toInt t : ℚ) = d.number) ↔
      d.FitsInteger low high := by
  constructor
  · rintro ⟨t, _, hnumber⟩
    exact ⟨toInt t, (hrange t).1, (hrange t).2, hnumber⟩
  · rintro ⟨n, hlow, hhigh, hnumber⟩
    refine ⟨ofInt n, ?_, by rw [hround n hlow hhigh, hnumber]⟩
    rw [fitInteger, toInteger_eq hnumber, if_pos ⟨hlow, hhigh⟩]

private theorem fitUnsigned_iff {τ : Type} {high : Int} {ofNat : Nat → τ} {toNat : τ → Nat}
    (hround : ∀ n : Nat, (n : Int) ≤ high → toNat (ofNat n) = n)
    (hrange : ∀ t, (toNat t : Int) ≤ high) :
    (∃ t, fitUnsigned high ofNat d = some t ∧ ((toNat t : Int) : ℚ) = d.number) ↔
      d.FitsInteger 0 high := by
  unfold fitUnsigned
  split
  · rename_i hneg
    refine iff_of_false ?_ ?_
    · rintro ⟨t, ⟨⟩, -⟩
    · rintro ⟨n, hlow, -, hnumber⟩
      have hmul := Decimal.mantissa_of_whole hnumber
      have hpos : 0 ≤ n * 10 ^ d.scale := mul_nonneg hlow (by positivity)
      omega
  · refine fitInteger_iff (fun n hlow hhigh => ?_) fun t => ⟨Int.natCast_nonneg _, hrange t⟩
    rw [hround n.toNat (by omega)]
    exact Int.toNat_of_nonneg hlow

section Read
variable (hlibs : libs.ReadsDecimals)
include hlibs

theorem toU64_denotes_iff :
    (ScalarValue.uint64 (libs.toU64 d)).DenotesNumber libs d ↔ d.FitsInteger 0 (2 ^ 64 - 1) := by
  rw [hlibs.toU64]
  apply fitUnsigned_iff
  · intro n hn
    refine UInt64.toNat_ofNat_of_lt' ?_
    change n < 2 ^ 64
    omega
  · intro n
    have := n.toNat_lt
    omega

private theorem uint32_iff :
    (ScalarValue.uint32 (libs.toU32 d)).DenotesNumber libs d ↔ d.FitsInteger 0 (2 ^ 32 - 1) := by
  rw [hlibs.toU32]
  apply fitUnsigned_iff
  · intro n hn
    refine UInt32.toNat_ofNat_of_lt' ?_
    change n < 2 ^ 32
    omega
  · intro n
    have := n.toNat_lt
    omega

private theorem int64_iff : (ScalarValue.int64 (libs.toI64 d)).DenotesNumber libs d ↔
    d.FitsInteger (-2 ^ 63) (2 ^ 63 - 1) := by
  rw [hlibs.toI64]
  apply fitInteger_iff
  · intro n hlow hhigh
    exact Int64.toInt_ofInt_of_le hlow (by omega)
  · intro n
    exact ⟨n.le_toInt, by have := n.toInt_lt; omega⟩

private theorem int32_iff : (ScalarValue.int32 (libs.toI32 d)).DenotesNumber libs d ↔
    d.FitsInteger (-2 ^ 31) (2 ^ 31 - 1) := by
  rw [hlibs.toI32]
  apply fitInteger_iff
  · intro n hlow hhigh
    exact Int32.toInt_ofInt_of_le hlow (by omega)
  · intro n
    exact ⟨n.le_toInt, by have := n.toInt_lt; omega⟩

omit hlibs in
theorem Decimal.number_eq_zero : d.number = 0 ↔ d.mantissa = 0 := by
  rw [Decimal.number, div_eq_zero_iff]
  simp

omit hlibs in
/-- The scale as the library takes it, a negative one being a large one there. -/
theorem scale_toNat (s : Int8) :
    (0 ≤ s.toInt → (s.toInt32.toUInt32.toNat : Int) = s.toInt) ∧
      (s.toInt < 0 → 28 < s.toInt32.toUInt32.toNat) := by
  have hlow := s.le_toInt
  have hint : s.toInt = s.toInt32.toBitVec.toInt := s.toInt_toInt32.symm
  have hnat : s.toInt32.toUInt32.toNat = s.toInt32.toBitVec.toNat := rfl
  have hcases := BitVec.toInt_eq_toNat_cond s.toInt32.toBitVec
  split at hcases <;> constructor <;> omega

private theorem rescale_zero (hd : d.mantissa = 0) (s : UInt32) :
    (libs.rescale d s).mantissa = 0 := by
  rcases Nat.le_total d.scale s.toNat with hle | hle
  · have hnumber := hlibs.rescale_number d s hle
    rwa [Decimal.number_eq_zero.mpr hd, Decimal.number_eq_zero] at hnumber
  · apply hlibs.rescale_mantissa d s 0 (hle.trans d.scale_le) (by decide)
    rw [Decimal.number_eq_zero.mpr hd]
    simp

theorem rescaledNumeric_denotes_iff (p : UInt8) (s : Int8) :
    (rescaledNumeric libs (some d) p s).DenotesNumber libs d ↔ d.FitsScale s := by
  have hdenotes : (rescaledNumeric libs (some d) p s).DenotesNumber libs d ↔
      ((libs.rescale d s.toInt32.toUInt32).mantissa : ℚ) / 10 ^ s.toInt = d.number := by
    constructor
    · rintro ⟨m, hm, hnumber⟩
      cases hm
      exact hnumber
    · intro hnumber
      exact ⟨_, rfl, hnumber⟩
  rw [hdenotes]
  generalize hr : libs.rescale d s.toInt32.toUInt32 = r
  constructor
  · intro hnumber
    by_cases hzero : d.mantissa = 0
    · exact .inl hzero
    · right
      obtain ⟨hnonneg, hneg⟩ := scale_toNat s
      by_cases hs : 0 ≤ s.toInt ∧ s.toInt ≤ 28
      · obtain ⟨n, hn⟩ := Int.eq_ofNat_of_zero_le hs.1
        rw [hn, zpow_natCast] at hnumber
        exact ⟨r.mantissa, n, r.mantissa_lt, by omega, hn, hnumber⟩
      · exfalso
        have hle : d.scale ≤ s.toInt32.toUInt32.toNat := by
          have := d.scale_le
          omega
        have hkept : r.number = d.number := by rw [← hr, hlibs.rescale_number d _ hle]
        have hm : (r.mantissa : ℚ) ≠ 0 := by
          intro hm
          rw [hm, zero_div] at hnumber
          exact hzero (Decimal.number_eq_zero.mp hnumber.symm)
        rw [← hkept, Decimal.number, ← zpow_natCast,
          div_eq_div_iff (by positivity) (by positivity)] at hnumber
        have hpow : (10 : ℚ) ^ (r.scale : ℤ) = 10 ^ s.toInt := mul_left_cancel₀ hm hnumber
        have hscale := zpow_right_injective₀ (by norm_num) (by norm_num) hpow
        have := r.scale_le
        omega
  · rintro (hzero | ⟨m, n, hm, hn, hs, hnumber⟩)
    · rw [← hr, rescale_zero hlibs hzero, Int.cast_zero, zero_div, Decimal.number_eq_zero.mpr hzero]
    · have hnat : s.toInt32.toUInt32.toNat = n := by
        have := (scale_toNat s).1 (by omega)
        omega
      have hmantissa := hlibs.rescale_mantissa d s.toInt32.toUInt32 m (by omega) hm
        (by rw [hnat, hnumber])
      rw [← hr, hmantissa, hs, zpow_natCast, hnumber]

omit hlibs in
private theorem untyped_denotes : (untypedNumeric libs (some d)).DenotesNumber libs d := by
  refine ⟨d.mantissa, rfl, ?_⟩
  have hscale : (Int8.ofNat d.scale).toInt = d.scale := by
    apply Int8.toInt_ofNat_of_lt
    have := d.scale_le
    omega
  rw [hscale, zpow_natCast, Decimal.number]

theorem toF64_denotes : (ScalarValue.float64 (libs.toF64 d)).DenotesNumber libs d := by
  obtain ⟨f, hf⟩ := hlibs.toF64 d
  exact ⟨f, hf, hf⟩

theorem toF32_denotes : (ScalarValue.float32 (libs.toF32 d)).DenotesNumber libs d := by
  obtain ⟨f, hf⟩ := hlibs.toF32 d
  exact ⟨f, hf, hf⟩

omit hlibs in
theorem keptOrRejected_ok {value : BoundValue} {v : ScalarValue} :
    value.KeptOrRejected libs (.ok [v]) ↔ value.DenotedBy libs v := pushedOrRejected_ok

theorem numericParameter_kept_iff (d : Decimal) (inferencedType : Option DataType) :
    (BoundValue.numeric d).KeptOrRejected libs (numericParameter libs (some d) inferencedType) ↔
      d.Fits inferencedType := by
  have hrejected : ∀ target, (BoundValue.numeric d).KeptOrRejected libs
      (.error (.err (invalidParameterError [.text "Cannot coerce NUMERIC to ",
        .debugType target]))) ↔ True :=
    fun target => iff_true_intro ⟨_, rfl⟩
  have huntyped : (untypedNumeric libs (some d)).DenotesNumber libs d := untyped_denotes
  cases inferencedType with
  | none => exact keptOrRejected_ok.trans (iff_true_intro huntyped)
  | some target =>
    cases target with
    | decimal128 p s => exact keptOrRejected_ok.trans (rescaledNumeric_denotes_iff hlibs p s)
    | uint64 => exact keptOrRejected_ok.trans (toU64_denotes_iff hlibs)
    | uint32 => exact keptOrRejected_ok.trans (uint32_iff hlibs)
    | int64 => exact keptOrRejected_ok.trans (int64_iff hlibs)
    | int32 => exact keptOrRejected_ok.trans (int32_iff hlibs)
    | float64 => exact keptOrRejected_ok.trans (iff_true_intro (toF64_denotes hlibs))
    | float32 => exact keptOrRejected_ok.trans (iff_true_intro (toF32_denotes hlibs))
    | _ => exact hrejected _

end Read

end Numbers
end DatafusionPostgres.ArrowPg
