import DatafusionPostgres.ArrowPg.BoundArrays

/-! A bound number or instant is kept by its conversion, or the conversion fails: when
it fits the type that the query expects. -/
namespace DatafusionPostgres.ArrowPg
open Library

section Instants
variable {libs : ParamLibraries} (hlibs : libs.ReadsClock) {t : NaiveDateTime}

private theorem ofInt_iff {z : Int} :
    (∃ n, some (Int64.ofInt z) = some n ∧ n.toInt = z) ↔ fitsI64 z := by
  constructor
  · rintro ⟨n, _, rfl⟩
    have := n.toInt_lt
    exact ⟨n.le_toInt, by omega⟩
  · rintro ⟨hlow, hhigh⟩
    exact ⟨_, rfl, Int64.toInt_ofInt_of_le hlow (by omega)⟩

include hlibs

private theorem second_iff (tz : Option String) :
    (ScalarValue.timestampSecond (some (libs.timestamp t)) tz).DenotesInstant t ↔
      fitsI64 (t.nanoseconds.fdiv 1000000000) := by
  rw [hlibs.timestamp]
  exact ofInt_iff

private theorem millisecond_iff (tz : Option String) :
    (ScalarValue.timestampMillisecond (some (libs.timestampMillis t)) tz).DenotesInstant t ↔
      fitsI64 (t.nanoseconds.fdiv 1000000) := by
  rw [hlibs.timestampMillis]
  exact ofInt_iff

private theorem microsecond_iff (tz : Option String) :
    (ScalarValue.timestampMicrosecond (some (libs.timestampMicros t)) tz).DenotesInstant t ↔
      fitsI64 (t.nanoseconds.fdiv 1000) := by
  rw [hlibs.timestampMicros]
  exact ofInt_iff

private theorem nanosecond_iff (tz : Option String) :
    (ScalarValue.timestampNanosecond (libs.timestampNanosOpt t) tz).DenotesInstant t ↔
      fitsI64 t.nanoseconds := by
  rw [hlibs.timestampNanosOpt, ← ofInt_iff]
  constructor
  · rintro ⟨n, hn, hint⟩
    unfold fitInteger at hn
    split at hn
    · exact ⟨n, hn, hint⟩
    · cases hn
  · rintro ⟨n, hn, hint⟩
    obtain ⟨hlow, hhigh⟩ := ofInt_iff.mp ⟨n, hn, hint⟩
    refine ⟨n, ?_, hint⟩
    rw [fitInteger, if_pos ⟨hlow, hhigh⟩]
    exact hn

theorem timestampParameter_kept_iff (t : NaiveDateTime) (inferencedType : Option DataType) :
    (BoundValue.timestamp t).KeptOrRejected libs
        (coerceOr inferencedType (coerceTimestampValue libs (some t))
          (.timestampMicrosecond (some (libs.timestampMicros t)) none)) ↔
      t.Fits inferencedType := by
  cases inferencedType with
  | none => exact keptOrRejected_ok.trans (microsecond_iff hlibs none)
  | some target =>
    cases target with
    | timestamp unit tz =>
      cases unit with
      | second => exact keptOrRejected_ok.trans (second_iff hlibs none)
      | millisecond => exact keptOrRejected_ok.trans (millisecond_iff hlibs none)
      | microsecond => exact keptOrRejected_ok.trans (microsecond_iff hlibs none)
      | nanosecond => exact keptOrRejected_ok.trans (nanosecond_iff hlibs none)
    | _ => exact iff_true_intro ⟨_, rfl⟩

theorem timestamptzParameter_kept_iff (t : DateTime) (inferencedType : Option DataType) :
    (BoundValue.timestamptz t).KeptOrRejected libs
        (coerceOr inferencedType (coerceTimestamptzValue libs (some t))
          (.timestampMicrosecond (some (libs.timestampMicros t.utc)) none)) ↔
      t.utc.Fits inferencedType := by
  cases inferencedType with
  | none => exact keptOrRejected_ok.trans (microsecond_iff hlibs none)
  | some target =>
    cases target with
    | timestamp unit tz =>
      cases unit with
      | second => exact keptOrRejected_ok.trans (second_iff hlibs tz)
      | millisecond => exact keptOrRejected_ok.trans (millisecond_iff hlibs tz)
      | microsecond => exact keptOrRejected_ok.trans (microsecond_iff hlibs tz)
      | nanosecond => exact keptOrRejected_ok.trans (nanosecond_iff hlibs tz)
    | _ => exact iff_true_intro ⟨_, rfl⟩

end Instants

theorem read_ok {param : BoundParameter} {t : ParamType} {pgType : PgType}
    {value : Option t.Value} {α : Type} (h : param.read t pgType = .ok value)
    (next : Option t.Value → Except Failure α) :
    (do let value ← orErr (param.read t pgType); next value) = next value := by
  rw [h]
  rfl

/-- A value is kept by its turn of the loop, or rejected, exactly if it fits the expected type. -/
theorem boundValue_kept_iff (libs : ParamLibraries) (hlibs : libs.Documented) (portal : Portal)
    (inferencedTypes : List (Option DataType)) (i : Nat) (param : BoundParameter)
    (value : BoundValue) (hvalue : param.Holds value)
    (htype : parameterPgType portal inferencedTypes i = .ok value.pgType) :
    value.KeptOrRejected libs (parameterTurn libs portal inferencedTypes (param, i)) ↔
      value.Fits libs inferencedTypes[i]?.join := by
  have hturn : parameterTurn libs portal inferencedTypes (param, i) =
      deserializeParameter libs param value.pgType inferencedTypes[i]?.join := by
    simp only [parameterTurn, htype]
    rfl
  rw [hturn]
  generalize inferencedTypes[i]?.join = inferencedType
  cases value with
  | numeric d =>
    have harm : deserializeParameter libs param .numeric inferencedType =
        numericParameter libs (some d) inferencedType := read_ok hvalue _
    have hiff := numericParameter_kept_iff hlibs.toReadsDecimals d inferencedType
    rwa [← harm] at hiff
  | timestamp t =>
    have harm : deserializeParameter libs param .timestamp inferencedType =
        coerceOr inferencedType (coerceTimestampValue libs (some t))
          (.timestampMicrosecond (some (libs.timestampMicros t)) none) := read_ok hvalue _
    have hiff := timestampParameter_kept_iff hlibs.toReadsClock t inferencedType
    rwa [← harm] at hiff
  | timestamptz t =>
    have harm : deserializeParameter libs param .timestamptz inferencedType =
        coerceOr inferencedType (coerceTimestamptzValue libs (some t))
          (.timestampMicrosecond (some (libs.timestampMicros t.utc)) none) := read_ok hvalue _
    have hiff := timestamptzParameter_kept_iff hlibs.toReadsClock t inferencedType
    rwa [← harm] at hiff
  | numericArray ds =>
    have harm : deserializeParameter libs param (BoundValue.numericArray ds).pgType
        inferencedType = numericArrayParameter libs (some ds) inferencedType := read_ok hvalue _
    rw [harm]
    exact numericArray_kept_iff hlibs ds inferencedType

section Examples

theorem tryNew_eq_some {mantissa : Int} {scale : Nat} {d : Decimal}
    (h : Decimal.tryNew mantissa scale = some d) : d.mantissa = mantissa ∧ d.scale = scale := by
  unfold Decimal.tryNew at h
  split at h
  · cases h
    exact ⟨rfl, rfl⟩
  · cases h

theorem tryNew_of_lt {mantissa : Int} {scale : Nat} (hm : mantissa.natAbs < 2 ^ 96)
    (hs : scale ≤ 28) :
    ∃ d, Decimal.tryNew mantissa scale = some d ∧ d.mantissa = mantissa ∧ d.scale = scale := by
  refine ⟨⟨mantissa, scale, hm, hs⟩, ?_, rfl, rfl⟩
  rw [Decimal.tryNew, dif_pos ⟨hm, hs⟩]

private theorem raise_number (n : Nat) (d : Decimal) : (Decimal.raise n d).number = d.number := by
  induction n generalizing d with
  | zero => rfl
  | succ n ih =>
    unfold Decimal.raise
    split
    · rename_i d' hd'
      obtain ⟨hm, hs⟩ := tryNew_eq_some hd'
      rw [ih, Decimal.number, Decimal.number, hm, hs]
      push_cast
      rw [pow_succ, mul_div_mul_right _ _ (by norm_num)]
    · rfl

private theorem raise_mantissa {n : Nat} {d : Decimal} (hs : d.scale + n ≤ 28)
    (hm : (d.mantissa * 10 ^ n).natAbs < 2 ^ 96) :
    (Decimal.raise n d).mantissa = d.mantissa * 10 ^ n := by
  induction n generalizing d with
  | zero => simp [Decimal.raise]
  | succ n ih =>
    have hsplit : d.mantissa * 10 ^ (n + 1) = d.mantissa * 10 * 10 ^ n := by
      rw [pow_succ']
      exact (Int.mul_assoc _ _ _).symm
    rw [hsplit] at hm ⊢
    have hfirst : (d.mantissa * 10).natAbs < 2 ^ 96 := by
      refine lt_of_le_of_lt ?_ hm
      rw [Int.natAbs_mul (d.mantissa * 10)]
      exact Nat.le_mul_of_pos_right _ (Int.natAbs_pos.mpr (by positivity))
    obtain ⟨d', hd', hm', hs'⟩ := tryNew_of_lt hfirst (show d.scale + 1 ≤ 28 by omega)
    unfold Decimal.raise
    rw [hd', ← hm']
    exact ih (by omega) (by rw [hm']; exact hm)

private theorem lower_mantissa {d : Decimal} {s : UInt32} {m : Int} (hle : s.toNat ≤ d.scale)
    (hm : m.natAbs < 2 ^ 96) (hnumber : (m : ℚ) / 10 ^ s.toNat = d.number) :
    (Decimal.rescale d s).mantissa = m ∧ (Decimal.rescale d s).scale = s.toNat := by
  obtain ⟨k, hk⟩ := Nat.exists_eq_add_of_le hle
  have hmul := Decimal.number_eq_iff.mp hnumber
  rw [hk, pow_add, mul_comm (10 ^ s.toNat), ← mul_assoc] at hmul
  have hmantissa : d.mantissa = m * 10 ^ k :=
    (mul_right_cancel₀ (by positivity) hmul).symm
  have hpos : 0 < 10 ^ k := by positivity
  have hunit : (10 ^ k : Int).natAbs = 10 ^ k := by
    rw [Int.natAbs_pow]
    rfl
  have hrounded : (d.mantissa.natAbs + 10 ^ k / 2) / 10 ^ k = m.natAbs := by
    rw [hmantissa, Int.natAbs_mul, hunit, mul_comm, Nat.mul_add_div hpos,
      Nat.div_eq_of_lt (Nat.div_lt_self hpos (by decide)), Nat.add_zero]
  have hpositive : (10 ^ k : Int).sign = 1 := Int.sign_eq_one_of_pos (by positivity)
  have hsign : d.mantissa.sign * (m.natAbs : Int) = m := by
    rw [hmantissa, Int.sign_mul, hpositive, Int.mul_one, Int.sign_mul_natAbs]
  obtain ⟨d', hd', hm', hs'⟩ := tryNew_of_lt hm (hle.trans d.scale_le)
  have hdigits : d.scale - s.toNat = k := by omega
  have heq : Decimal.rescale d s = d' := by
    rw [Decimal.rescale, if_pos hle]
    simp only [hdigits, hrounded, hsign, hd', Option.getD_some]
  rw [heq]
  exact ⟨hm', hs'⟩

theorem referenceLibraries_readsClock : referenceLibraries.ReadsClock where
  numSecondsFromMidnight _ := rfl
  nanosecond _ := rfl
  timestamp _ := rfl
  timestampMillis _ := rfl
  timestampMicros _ := rfl
  timestampNanosOpt _ := rfl

theorem referenceLibraries_readsDecimals : referenceLibraries.ReadsDecimals where
  toU64 _ := rfl
  toU32 _ := rfl
  toI64 _ := rfl
  toI32 _ := rfl
  toF64 _ := ⟨_, rfl⟩
  toF32 _ := ⟨_, rfl⟩
  rescale_number := by
    intro d s hle
    change (Decimal.rescale d s).number = d.number
    by_cases heq : s.toNat ≤ d.scale
    · have hsame : s.toNat = d.scale := Nat.le_antisymm heq hle
      obtain ⟨hm, hs⟩ := lower_mantissa heq d.mantissa_lt (by rw [hsame, Decimal.number])
      rw [Decimal.number, hm, hs, hsame, Decimal.number]
    · rw [Decimal.rescale, if_neg heq]
      exact raise_number _ d
  rescale_mantissa := by
    intro d s m hs hm hnumber
    change (Decimal.rescale d s).mantissa = m
    by_cases hle : s.toNat ≤ d.scale
    · exact (lower_mantissa hle hm hnumber).1
    · obtain ⟨k, hk⟩ := Nat.exists_eq_add_of_le (Nat.le_of_not_le hle)
      have hmul := Decimal.number_eq_iff.mp hnumber
      rw [hk, pow_add, mul_comm (10 ^ d.scale), ← mul_assoc] at hmul
      have hmantissa : m = d.mantissa * 10 ^ k := mul_right_cancel₀ (by positivity) hmul
      have hdigits : min (s.toNat - d.scale) 28 = k := by omega
      rw [Decimal.rescale, if_neg hle, hdigits, raise_mantissa (by omega) (hmantissa ▸ hm),
        hmantissa]

private theorem rescaledDigits_zero (m : Int) (s : Int8) :
    ∃ k : Int, (rescaledDigits m 0 s : ℚ) / 10 ^ s.toInt = k := by
  rw [rescaledDigits, show (0 : Int8).toInt = 0 from rfl, zpow_zero, div_one]
  rcases Int.eq_nat_or_neg s.toInt with ⟨n, hn | hn⟩
  · refine ⟨m, ?_⟩
    have hwhole : (m : ℚ) * 10 ^ s.toInt = ((m * 10 ^ n : Int) : ℚ) := by
      rw [hn, zpow_natCast]
      push_cast
      rfl
    rw [hwhole, roundHalfAway_intCast, ← hwhole]
    exact mul_div_cancel_right₀ _ (by positivity)
  · refine ⟨roundHalfAway ((m : ℚ) * 10 ^ s.toInt) * 10 ^ n, ?_⟩
    rw [hn, zpow_neg, zpow_natCast, div_inv_eq_mul]
    push_cast
    rfl

theorem referenceLibraries_documented : referenceLibraries.Documented where
  toReadsClock := referenceLibraries_readsClock
  toReadsDecimals := referenceLibraries_readsDecimals
  toCastsLists := referenceLibraries_castsLists
  cast_number := by
    intro m elementType e d _ _ he hdenotes
    change castDecimal _ elementType = some e at he
    cases elementType with
    | decimal128 p s =>
      have hcast : castDecimal (.decimal128 (some m) 38 0) (.decimal128 p s) =
          if 38 = p ∧ 0 = s then some (.decimal128 (some m) 38 0)
          else some (.decimal128
            ((some (rescaledDigits m 0 s)).filter (·.natAbs < 10 ^ p.toNat)) p s) := rfl
      rw [hcast] at he
      split at he
      · cases he
        obtain ⟨_, ⟨⟩, hnumber⟩ := hdenotes
        refine ⟨m, ?_⟩
        rw [← hnumber, show (0 : Int8).toInt = 0 from rfl, zpow_zero, div_one]
      · cases he
        obtain ⟨n, hn, hnumber⟩ := hdenotes
        cases Option.eq_some_of_filter_eq_some hn
        obtain ⟨k, hk⟩ := rescaledDigits_zero m s
        exact ⟨k, hk.symm.trans hnumber⟩
    | int8 | int16 | int32 | int64 | uint8 | uint16 | uint32 | uint64 =>
      cases he
      obtain ⟨n, -, hnumber⟩ := hdenotes
      exact ⟨_, hnumber⟩
    | _ => cases he

/-- A NUMERIC on the wire. -/
def BoundParameter.numeric (value : Decimal) : BoundParameter where
  isNull := false
  read
    | .decimal, _ => .ok (some value)
    | _, _ => .error (.apiError [.text "NUMERIC expected"])
  read_null t pgType := by cases t <;> simp

/-- `12.00`, bound where an `Int32` is expected. -/
def twelve : Decimal := ⟨1200, 2, by decide, Decimal.hundredths_scale_le⟩

theorem twelve_kept : (BoundValue.numeric twelve).KeptOrRejected referenceLibraries
    (parameterTurn referenceLibraries ⟨[.numeric twelve], [some .numeric]⟩ [some .int32]
      (.numeric twelve, 0)) := by
  apply (boundValue_kept_iff referenceLibraries referenceLibraries_documented
    ⟨[.numeric twelve], [some .numeric]⟩ [some .int32] 0 (.numeric twelve) (.numeric twelve)
    rfl rfl).mpr
  refine ⟨12, by decide, by decide, ?_⟩
  norm_num [Decimal.number, twelve]

/-- `5000000000`, which is out of the range of an `Int32`. -/
def fiveBillion : Decimal := ⟨5000000000, 0, by decide, Decimal.whole_scale_le⟩

theorem fiveBillion_not_kept :
    ¬ ∀ (libs : ParamLibraries), libs.Documented → ∀ (portal : Portal)
      (inferencedTypes : List (Option DataType)) (i : Nat) (param : BoundParameter)
      (value : BoundValue), param.Holds value →
        parameterPgType portal inferencedTypes i = .ok value.pgType →
          value.KeptOrRejected libs (parameterTurn libs portal inferencedTypes (param, i)) := by
  intro h
  have hkept := h referenceLibraries referenceLibraries_documented
    ⟨[.numeric fiveBillion], [some .numeric]⟩ [some .int32] 0 (.numeric fiveBillion)
    (.numeric fiveBillion) rfl rfl
  obtain ⟨v, hv, hdenotes⟩ := hkept
  have hnull : v = .int32 none := by
    have hpushed : [ScalarValue.int32 (referenceLibraries.toI32 fiveBillion)] = [v] := hv
    cases hpushed
    rfl
  rw [hnull] at hdenotes
  obtain ⟨n, hn, _⟩ := hdenotes
  cases hn

end Examples
end DatafusionPostgres.ArrowPg
