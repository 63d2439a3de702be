import DatafusionPostgres.ArrowPg.BoundValues
import DatafusionPostgres.Library.Rounding

/-! A NUMERIC as a `Decimal128`: rounded where its type is known, and the type of its own
digits where it is not. -/
namespace DatafusionPostgres.ArrowPg
open Library

/-- What is documented of rescaling: digits that are dropped are rounded away, and digits are
added as long as there is room for them. -/
structure ParamLibraries.Rescales (libs : ParamLibraries) : Prop where
  lower : ∀ d k, k.toNat ≤ d.scale →
    (libs.rescale d k).mantissa = roundHalfAway (d.number * 10 ^ k.toNat)
  raise : ∀ d k, d.scale < k.toNat → ∃ n, d.scale + n ≤ min k.toNat 28 ∧
    (libs.rescale d k).mantissa = d.mantissa * 10 ^ n ∧
    (d.scale + n = min k.toNat 28 ∨ 2 ^ 96 ≤ (d.mantissa * 10 ^ (n + 1)).natAbs)

/-- The decimal of the type that is the number, rounded to its fractional digits. -/
def Decimal.RoundedBy (d : Decimal) (p : UInt8) (s : Int8) : ScalarValue → Prop
  | .decimal128 value p' s' => p' = p ∧ s' = s ∧ ∃ m, value = some m ∧ m.natAbs < 10 ^ p.toNat ∧
    m = roundHalfAway (d.number * 10 ^ s.toInt)
  | _ => False

/-- A list of the decimals that are the numbers, rounded. -/
def RoundedElements (ds : List (Option Decimal)) (p : UInt8) (s : Int8) : ScalarValue → Prop
  | .list _ values => List.Forall₂ (fun d v => ∀ n, d = some n → n.RoundedBy p s v) ds values
  | _ => False

/-- The number is zero, or the scale is one of `rust_decimal`'s, at which the rounded number has
room and no more digits than the precision. -/
def Decimal.RoomFor (d : Decimal) (p : UInt8) (s : Int8) : Prop :=
  d.mantissa = 0 ∨ ∃ n : Nat, s.toInt = n ∧ n ≤ 28 ∧
    (roundHalfAway (d.number * 10 ^ n)).natAbs < 2 ^ 96 ∧
    (roundHalfAway (d.number * 10 ^ n)).natAbs < 10 ^ p.toNat

section Rescaled
variable {libs : ParamLibraries} (hlibs : libs.Rescales) {d : Decimal}
include hlibs

private theorem raised_eq_iff (hd : d.mantissa ≠ 0) {k : UInt32} (hk : d.scale < k.toNat) :
    (libs.rescale d k).mantissa = roundHalfAway (d.number * 10 ^ k.toNat) ↔
      k.toNat ≤ 28 ∧ (roundHalfAway (d.number * 10 ^ k.toNat)).natAbs < 2 ^ 96 := by
  obtain ⟨e, he⟩ := Nat.exists_eq_add_of_lt hk
  have hexact : d.number * 10 ^ k.toNat = ((d.mantissa * 10 ^ (e + 1) : Int) : ℚ) := by
    rw [Decimal.number, he]
    push_cast
    rw [Nat.add_assoc, pow_add]
    field_simp
  rw [hexact, roundHalfAway_intCast]
  obtain ⟨n, hn, hmantissa, hstop⟩ := hlibs.raise d k hk
  have hcancel : d.mantissa * 10 ^ n = d.mantissa * 10 ^ (e + 1) ↔ n = e + 1 := by
    rw [Int.mul_eq_mul_left_iff hd]
    exact (pow_right_injective₀ (by decide) (by decide)).eq_iff
  have hroom := (libs.rescale d k).mantissa_lt
  rw [hmantissa] at hroom ⊢
  constructor
  · intro heq
    rw [heq] at hroom
    have hdigits := hcancel.mp heq
    exact ⟨by omega, hroom⟩
  · rintro ⟨hscale, hfits⟩
    rw [hcancel]
    rcases hstop with hfull | hbig
    · omega
    · by_contra hne
      have hpow : 10 ^ (n + 1) ≤ 10 ^ (e + 1) := Nat.pow_le_pow_right (by decide) (by omega)
      have hmul := Nat.mul_le_mul_left d.mantissa.natAbs hpow
      rw [Int.natAbs_mul, Int.natAbs_pow] at hbig hfits
      exact absurd (hbig.trans hmul) (not_le.mpr hfits)

private theorem raised_ne (hd : d.mantissa ≠ 0) {s : Int8} (hs : s.toInt < 0) {k : UInt32}
    (hk : d.scale < k.toNat) :
    (libs.rescale d k).mantissa ≠ roundHalfAway (d.number * 10 ^ s.toInt) := by
  obtain ⟨n, -, hmantissa, -⟩ := hlibs.raise d k hk
  obtain ⟨e, he⟩ := Int.eq_ofNat_of_zero_le (show 0 ≤ -s.toInt by omega)
  have hnumber : d.number * 10 ^ s.toInt = (d.mantissa : ℚ) / (10 ^ (d.scale + e) : Nat) := by
    have hs' : s.toInt = -(e : Int) := by omega
    rw [Decimal.number, hs', zpow_neg, zpow_natCast]
    push_cast
    rw [pow_add]
    field_simp
  have hunit : 10 ≤ 10 ^ (d.scale + e) := Nat.le_self_pow (by omega) 10
  have hsmaller := natAbs_roundHalfAway_div_lt hd hunit
  have hlarger : d.mantissa.natAbs ≤ (d.mantissa * 10 ^ n).natAbs := by
    rw [Int.natAbs_mul]
    exact Nat.le_mul_of_pos_right _ (Int.natAbs_pos.mpr (by positivity))
  rw [hmantissa, hnumber]
  intro heq
  rw [heq] at hlarger
  exact absurd hsmaller (not_lt.mpr hlarger)

private theorem rescaled_zero (hd : d.mantissa = 0) (k : UInt32) :
    (libs.rescale d k).mantissa = 0 := by
  rcases Nat.lt_or_ge d.scale k.toNat with hk | hk
  · obtain ⟨n, -, hmantissa, -⟩ := hlibs.raise d k hk
    rw [hmantissa, hd, Int.zero_mul]
  · rw [hlibs.lower d k hk, Decimal.number, hd]
    simp only [Int.cast_zero, zero_div, zero_mul]
    exact roundHalfAway_intCast 0

private theorem rescaled_eq_iff (hd : d.mantissa ≠ 0) (s : Int8) :
    (libs.rescale d s.toInt32.toUInt32).mantissa = roundHalfAway (d.number * 10 ^ s.toInt) ↔
      ∃ n : Nat, s.toInt = n ∧ n ≤ 28 ∧ (roundHalfAway (d.number * 10 ^ n)).natAbs < 2 ^ 96 := by
  obtain ⟨hnonneg, hneg⟩ := scale_toNat s
  by_cases hs : s.toInt < 0
  · have hk : d.scale < s.toInt32.toUInt32.toNat := d.scale_le.trans_lt (hneg hs)
    refine iff_of_false (raised_ne hlibs hd hs hk) ?_
    rintro ⟨n, hn, -⟩
    omega
  · obtain ⟨n, hn⟩ := Int.eq_ofNat_of_zero_le (not_lt.mp hs)
    have hk : s.toInt32.toUInt32.toNat = n := by
      have := hnonneg (not_lt.mp hs)
      omega
    have hsame : (∃ n' : Nat, s.toInt = n' ∧ n' ≤ 28 ∧
        (roundHalfAway (d.number * 10 ^ n')).natAbs < 2 ^ 96) ↔
          n ≤ 28 ∧ (roundHalfAway (d.number * 10 ^ n)).natAbs < 2 ^ 96 := by
      constructor
      · rintro ⟨n', hn', h⟩
        have heq : n' = n := by omega
        rwa [heq] at h
      · intro h
        exact ⟨n, hn, h⟩
    rw [hsame, hn, zpow_natCast]
    rcases Nat.lt_or_ge d.scale n with hlt | hle
    · have hraised := raised_eq_iff hlibs hd (k := s.toInt32.toUInt32) (by rw [hk]; exact hlt)
      rwa [hk] at hraised
    · have hlowered := hlibs.lower d s.toInt32.toUInt32 (by rw [hk]; exact hle)
      rw [hk] at hlowered
      refine iff_of_true hlowered ⟨hle.trans d.scale_le, ?_⟩
      rw [← hlowered]
      exact (libs.rescale d _).mantissa_lt

/-- The rescaled number is the rounded one exactly if there is room for it. -/
theorem rescaledNumeric_rounds_iff (p : UInt8) (s : Int8) :
    d.RoundedBy p s (rescaledNumeric libs (some d) p s) ↔ d.RoomFor p s := by
  have hrounds : d.RoundedBy p s (rescaledNumeric libs (some d) p s) ↔
      (libs.rescale d s.toInt32.toUInt32).mantissa.natAbs < 10 ^ p.toNat ∧
        (libs.rescale d s.toInt32.toUInt32).mantissa =
          roundHalfAway (d.number * 10 ^ s.toInt) := by
    constructor
    · rintro ⟨-, -, m, hm, hlt, heq⟩
      cases hm
      exact ⟨hlt, heq⟩
    · rintro ⟨hlt, heq⟩
      exact ⟨rfl, rfl, _, rfl, hlt, heq⟩
  rw [hrounds]
  by_cases hd : d.mantissa = 0
  · refine iff_of_true ?_ (.inl hd)
    rw [rescaled_zero hlibs hd, Decimal.number, hd]
    refine ⟨Nat.pow_pos (by decide), ?_⟩
    simp only [Int.cast_zero, zero_div, zero_mul]
    exact (roundHalfAway_intCast 0).symm
  · have heq := rescaled_eq_iff hlibs hd s
    constructor
    · rintro ⟨hlt, hrounded⟩
      obtain ⟨n, hn, hscale, hfits⟩ := heq.mp hrounded
      rw [hrounded, hn, zpow_natCast] at hlt
      exact .inr ⟨n, hn, hscale, hfits, hlt⟩
    · rintro (hzero | ⟨n, hn, hscale, hfits, hlt⟩)
      · exact absurd hzero hd
      · have hrounded := heq.mpr ⟨n, hn, hscale, hfits⟩
        refine ⟨?_, hrounded⟩
        rw [hrounded, hn, zpow_natCast]
        exact hlt

theorem rescaledElements_round_iff (hlists : libs.BuildsLists) (ds : List (Option Decimal))
    (p : UInt8) (s : Int8) :
    PushedOrRejected (RoundedElements ds p s) (do
        return [← libs.newListNullable (ds.map fun n => rescaledNumeric libs n p s)
          (.decimal128 p s)]) ↔
      (ds ≠ [] → ValidDecimalType p s) ∧ ∀ n, some n ∈ ds → n.RoomFor p s := by
  have htype : ∀ v ∈ ds.map (fun n => rescaledNumeric libs n p s),
      v.dataType = .decimal128 p s := by
    intro v hv
    obtain ⟨d, -, rfl⟩ := List.mem_map.mp hv
    rfl
  by_cases hvalid : ds ≠ [] → ValidDecimalType p s
  · rw [and_iff_right hvalid]
    rw [hlists.list _ _ htype fun hne => hvalid (mt (congrArg (List.map _)) hne)]
    refine pushedOrRejected_ok.trans ?_
    change List.Forall₂ _ ds (ds.map fun n => rescaledNumeric libs n p s) ↔ _
    rw [List.forall₂_map_right_iff, List.forall₂_same]
    constructor
    · intro h n hn
      exact (rescaledNumeric_rounds_iff hlibs p s).mp (h (some n) hn n rfl)
    · rintro h _ hd n rfl
      exact (rescaledNumeric_rounds_iff hlibs p s).mpr (h n hd)
  · refine iff_of_false ?_ fun h => hvalid h.1
    obtain ⟨hne, hinvalid⟩ := Classical.not_imp.mp hvalid
    rw [hlists.refused _ _ htype (mt List.map_eq_nil_iff.mp hne) hinvalid]
    rintro ⟨error, ⟨⟩⟩

end Rescaled

section Turns
variable {libs : ParamLibraries} {portal : Portal} {inferencedTypes : List (Option DataType)}
  {i : Nat} {param : BoundParameter}

private theorem numericTurn_eq {value : Option Decimal}
    (hread : param.read .decimal .numeric = .ok value)
    (htype : parameterPgType portal inferencedTypes i = .ok .numeric) :
    parameterTurn libs portal inferencedTypes (param, i) =
      numericParameter libs value inferencedTypes[i]?.join := by
  simp only [parameterTurn, htype]
  exact read_ok hread _

theorem numericArrayTurn_eq {value : Option (List (Option Decimal))}
    (hread : param.read (.vec .decimal) .numericArray = .ok value)
    (htype : parameterPgType portal inferencedTypes i = .ok .numericArray) :
    parameterTurn libs portal inferencedTypes (param, i) =
      numericArrayParameter libs value inferencedTypes[i]?.join := by
  simp only [parameterTurn, htype]
  exact read_ok hread _

theorem numericTurn_rounds_iff (hlibs : libs.Rescales) {d : Decimal} {p : UInt8} {s : Int8}
    (hread : param.read .decimal .numeric = .ok (some d))
    (htype : parameterPgType portal inferencedTypes i = .ok .numeric)
    (htarget : inferencedTypes[i]?.join = some (.decimal128 p s)) :
    PushedOrRejected (d.RoundedBy p s) (parameterTurn libs portal inferencedTypes (param, i)) ↔
      d.RoomFor p s := by
  rw [numericTurn_eq hread htype, htarget]
  exact pushedOrRejected_ok.trans (rescaledNumeric_rounds_iff hlibs p s)

end Turns

/-- A NUMERIC, and an element of a NUMERIC array, is bound as the decimal of the expected type
that it rounds to, or rejected, exactly if there is room for it; elements need a type that Arrow
accepts. -/
theorem numeric_rounded_iff (libs : ParamLibraries) (hlibs : libs.Rescales)
    (hlists : libs.BuildsLists) (portal : Portal) (inferencedTypes : List (Option DataType))
    (i : Nat) (param : BoundParameter) (p : UInt8) (s : Int8) :
    (∀ d, param.read .decimal .numeric = .ok (some d) →
      parameterPgType portal inferencedTypes i = .ok .numeric →
      inferencedTypes[i]?.join = some (.decimal128 p s) →
      (PushedOrRejected (d.RoundedBy p s)
        (parameterTurn libs portal inferencedTypes (param, i)) ↔ d.RoomFor p s)) ∧
    ∀ (ds : List (Option Decimal)) (field : Field),
      param.read (.vec .decimal) .numericArray = .ok (some ds) →
      parameterPgType portal inferencedTypes i = .ok .numericArray →
      inferencedTypes[i]?.join = some (.list field) → field.dataType = .decimal128 p s →
      (PushedOrRejected (RoundedElements ds p s)
        (parameterTurn libs portal inferencedTypes (param, i)) ↔
          (ds ≠ [] → ValidDecimalType p s) ∧ ∀ n, some n ∈ ds → n.RoomFor p s) := by
  constructor
  · intro d hread htype htarget
    exact numericTurn_rounds_iff hlibs hread htype htarget
  · rintro ds ⟨name, dataType, nullable, metadata⟩ hread htype htarget helement
    cases helement
    rw [numericArrayTurn_eq hread htype, htarget]
    exact rescaledElements_round_iff hlibs hlists ds p s

section Untyped
variable {libs : ParamLibraries}

/-- What is assumed of `log10` and `floor`. -/
def ParamLibraries.ExactLog10 (libs : ParamLibraries) : Prop :=
  ∀ n, 0 < n → n < 2 ^ 96 → libs.log10Floor n = .ofNat (Nat.log 10 n)

/-- A decimal of a valid type, with no more digits than its precision, that is the value. -/
def ValidDecimal (value : Option Decimal) : ScalarValue → Prop
  | .decimal128 mantissa p s => 1 ≤ p.toNat ∧ p.toNat ≤ 38 ∧ 0 ≤ s.toInt ∧ s.toInt ≤ p.toNat ∧
    (value = none → mantissa = none) ∧
    ∀ d, value = some d → ∃ m, mantissa = some m ∧ m.natAbs < 10 ^ p.toNat ∧
      (m : ℚ) / 10 ^ s.toInt = d.number
  | _ => False

/-- The number of digits of the mantissa: one, for zero. -/
def Decimal.digits (d : Decimal) : Nat := Nat.log 10 d.mantissa.natAbs + 1

theorem Decimal.digits_le (d : Decimal) : d.digits ≤ 29 := by
  by_cases hd : d.mantissa.natAbs = 0
  · rw [Decimal.digits, hd]
    decide
  · have hlt : d.mantissa.natAbs < 10 ^ 29 := d.mantissa_lt.trans (by decide)
    have hlog := Nat.log_lt_of_lt_pow hd hlt
    rw [Decimal.digits]
    omega

/-- The precision that is computed is the number of digits. -/
theorem untypedNumeric_eq (hlog : libs.ExactLog10) (d : Decimal) :
    untypedNumeric libs (some d) =
      .decimal128 (some d.mantissa) (.ofNat d.digits) (.ofNat d.scale) := by
  by_cases hd : d.mantissa = 0
  · rw [untypedNumeric, if_pos hd, Decimal.digits, hd]
    rfl
  · rw [untypedNumeric, if_neg hd, hlog _ (Int.natAbs_pos.mpr hd) d.mantissa_lt]
    rw [Decimal.digits, UInt8.ofNat_add]
    rfl

private theorem untypedNumeric_valid (hlog : libs.ExactLog10) (value : Option Decimal) :
    ValidDecimal value (untypedNumeric libs value) ↔ ∃ d, value = some d ∧ d.scale ≤ d.digits := by
  cases value with
  | none =>
    refine iff_of_false ?_ ?_
    · rintro ⟨hprecision, -⟩
      exact absurd hprecision (by decide)
    · rintro ⟨d, hd, -⟩
      cases hd
  | some d =>
    have hdigits := d.digits_le
    have hscale := d.scale_le
    have hp : (UInt8.ofNat d.digits).toNat = d.digits :=
      UInt8.toNat_ofNat_of_lt' (hdigits.trans_lt (by decide))
    have hs : (Int8.ofNat d.scale).toInt = d.scale := Int8.toInt_ofNat_of_lt (by omega)
    rw [untypedNumeric_eq hlog]
    constructor
    · rintro ⟨-, -, -, hle, -⟩
      rw [hp, hs] at hle
      exact ⟨d, rfl, by exact_mod_cast hle⟩
    · rintro ⟨_, heq, hle⟩
      cases heq
      refine ⟨?_, ?_, ?_, ?_, by rintro ⟨⟩, ?_⟩
      · rw [hp, Decimal.digits]
        omega
      · rw [hp]
        omega
      · rw [hs]
        exact Int.natCast_nonneg _
      · rw [hp, hs]
        exact_mod_cast hle
      · rintro _ ⟨⟩
        refine ⟨d.mantissa, rfl, ?_, ?_⟩
        · rw [hp]
          exact Nat.lt_pow_succ_log_self (by decide) _
        · rw [hs, zpow_natCast, Decimal.number]

end Untyped

/-- A NUMERIC without an inferred type is bound as a valid decimal exactly if it is not NULL and
has no more fractional digits than its mantissa has digits. -/
theorem untypedNumeric_valid_iff (libs : ParamLibraries) (hlog : libs.ExactLog10)
    (portal : Portal) (inferencedTypes : List (Option DataType)) (i : Nat)
    (param : BoundParameter) (value : Option Decimal)
    (hread : param.read .decimal .numeric = .ok value)
    (htype : parameterPgType portal inferencedTypes i = .ok .numeric)
    (huntyped : inferencedTypes[i]?.join = none) :
    (∃ v, parameterTurn libs portal inferencedTypes (param, i) = .ok [v] ∧ ValidDecimal value v) ↔
      ∃ d, value = some d ∧ d.scale ≤ d.digits := by
  have hturn : parameterTurn libs portal inferencedTypes (param, i) =
      .ok [untypedNumeric libs value] := by
    rw [numericTurn_eq hread htype, huntyped]
    rfl
  rw [hturn, ← untypedNumeric_valid hlog]
  constructor
  · rintro ⟨v, hv, hvalid⟩
    cases hv
    exact hvalid
  · intro hvalid
    exact ⟨_, rfl, hvalid⟩

section Examples

private theorem raise_spec (n : Nat) (d : Decimal) : ∃ k ≤ n,
    (Decimal.raise n d).mantissa = d.mantissa * 10 ^ k ∧ d.scale + k ≤ 28 ∧
    (k = n ∨ d.scale + k = 28 ∨ 2 ^ 96 ≤ (d.mantissa * 10 ^ (k + 1)).natAbs) := by
  induction n generalizing d with
  | zero => exact ⟨0, le_refl 0, (Int.mul_one _).symm, d.scale_le, .inl rfl⟩
  | succ n ih =>
    unfold Decimal.raise
    cases hnew : Decimal.tryNew (d.mantissa * 10) (d.scale + 1) with
    | none =>
      refine ⟨0, Nat.zero_le _, (Int.mul_one _).symm, d.scale_le, .inr ?_⟩
      by_contra hroom
      rw [not_or, not_le] at hroom
      have hscale := d.scale_le
      obtain ⟨d', hd', -⟩ := tryNew_of_lt hroom.2
        (show d.scale + 1 ≤ 28 by omega)
      rw [Nat.zero_add, Int.pow_one, hnew] at hd'
      cases hd'
    | some d' =>
      obtain ⟨hmantissa, hscale⟩ := tryNew_eq_some hnew
      obtain ⟨k, hk, hraised, hroom, hstop⟩ := ih d'
      have hdigits : ∀ j, d'.mantissa * 10 ^ j = d.mantissa * 10 ^ (j + 1) := by
        intro j
        rw [hmantissa, pow_succ']
        exact Int.mul_assoc _ _ _
      rw [hdigits] at hraised
      rw [hdigits, hscale] at hstop
      refine ⟨k + 1, Nat.succ_le_succ hk, hraised, by omega, ?_⟩
      rcases hstop with hall | hmax | hbig
      · exact .inl (congrArg Nat.succ hall)
      · exact .inr (.inl (by omega))
      · exact .inr (.inr hbig)

theorem referenceLibraries_rescales : referenceLibraries.Rescales where
  lower := by
    intro d k hk
    change (Decimal.rescale d k).mantissa = _
    obtain ⟨e, he⟩ := Nat.exists_eq_add_of_le hk
    have hunit : 0 < 10 ^ e := Nat.pow_pos (by decide)
    have hnumber : d.number * 10 ^ k.toNat = (d.mantissa : ℚ) / (10 ^ e : Nat) := by
      rw [Decimal.number, he, pow_add]
      push_cast
      field_simp
    have hdigits : d.scale - k.toNat = e := by omega
    have hlt := (natAbs_roundHalfAway_div_le d.mantissa hunit).trans_lt d.mantissa_lt
    rw [hnumber]
    rw [roundHalfAway_div _ hunit] at hlt ⊢
    obtain ⟨d', hd', hmantissa, -⟩ := tryNew_of_lt hlt (hk.trans d.scale_le)
    rw [Decimal.rescale, if_pos hk]
    simp only [hdigits, hd', Option.getD_some, hmantissa]
  raise := by
    intro d k hk
    change ∃ n, _ ∧ (Decimal.rescale d k).mantissa = _ ∧ _
    rw [Decimal.rescale, if_neg (by omega)]
    obtain ⟨n, hn, hraised, hroom, hstop⟩ := raise_spec (min (k.toNat - d.scale) 28) d
    exact ⟨n, by omega, hraised, by omega⟩

theorem referenceLibraries_exactLog10 : referenceLibraries.ExactLog10 := fun _ _ _ => rfl

/-- `12.00` with one fractional digit. -/
theorem twelve_rounded :
    PushedOrRejected (twelve.RoundedBy 5 1) (parameterTurn referenceLibraries
      ⟨[.numeric twelve], [some .numeric]⟩ [some (.decimal128 5 1)] (.numeric twelve, 0)) := by
  have hround : roundHalfAway (twelve.number * 10 ^ 1) = 120 := by
    have hnumber : twelve.number * 10 ^ 1 = ((120 : Int) : ℚ) := by
      norm_num [Decimal.number, twelve]
    rw [hnumber, roundHalfAway_intCast]
  apply ((numeric_rounded_iff referenceLibraries referenceLibraries_rescales
    referenceLibraries_buildsLists ⟨[.numeric twelve], [some .numeric]⟩
    [some (.decimal128 5 1)] 0 (.numeric twelve) 5 1).1 twelve rfl rfl rfl).mpr
  refine .inr ⟨1, rfl, by decide, ?_, ?_⟩ <;>
  · rw [hround]
    decide

/-- Ten digits where five are expected. -/
theorem fiveBillion_not_rounded :
    ¬ PushedOrRejected (fiveBillion.RoundedBy 5 0) (parameterTurn referenceLibraries
      ⟨[.numeric fiveBillion], [some .numeric]⟩ [some (.decimal128 5 0)]
      (.numeric fiveBillion, 0)) := by
  intro hkept
  have hread : (BoundParameter.numeric fiveBillion).read .decimal .numeric =
      .ok (some fiveBillion) := rfl
  have htype : parameterPgType ⟨[.numeric fiveBillion], [some .numeric]⟩
      [some (.decimal128 5 0)] 0 = .ok .numeric := rfl
  have hroom :=
    (numericTurn_rounds_iff referenceLibraries_rescales hread htype rfl).mp hkept
  rcases hroom with hzero | ⟨n, hn, -, -, hlt⟩
  · exact absurd hzero (by decide)
  · have hnumber : fiveBillion.number * 10 ^ 0 = ((5000000000 : Int) : ℚ) := by
      norm_num [Decimal.number, fiveBillion]
    have hzero : (n : Int) = 0 := hn.symm
    obtain rfl : n = 0 := by omega
    rw [hnumber, roundHalfAway_intCast] at hlt
    exact absurd hlt (by decide)

theorem twelve_valid :
    ∃ v, parameterTurn referenceLibraries ⟨[.numeric twelve], [some .numeric]⟩ [none]
      (.numeric twelve, 0) = .ok [v] ∧ ValidDecimal (some twelve) v := by
  have hlog : 3 ≤ Nat.log 10 twelve.mantissa.natAbs :=
    Nat.le_log_of_pow_le (by decide) (by decide)
  apply (untypedNumeric_valid_iff referenceLibraries referenceLibraries_exactLog10
    ⟨[.numeric twelve], [some .numeric]⟩ [none] 0 (.numeric twelve) (some twelve)
    rfl rfl rfl).mpr
  refine ⟨twelve, rfl, ?_⟩
  change 2 ≤ Nat.log 10 twelve.mantissa.natAbs + 1
  omega

/-- `0.007`, which has one digit. -/
def sevenThousandths : Decimal := ⟨7, 3, by decide, by decide⟩

theorem sevenThousandths_not_valid :
    ¬ ∃ v, parameterTurn referenceLibraries ⟨[.numeric sevenThousandths], [some .numeric]⟩ [none]
      (.numeric sevenThousandths, 0) = .ok [v] ∧ ValidDecimal (some sevenThousandths) v := by
  rintro ⟨v, hv, hvalid⟩
  cases hv
  obtain ⟨d, hd, hscale⟩ :=
    (untypedNumeric_valid referenceLibraries_exactLog10 (some sevenThousandths)).mp hvalid
  cases hd
  have hdigits : sevenThousandths.digits = 1 :=
    congrArg Nat.succ (Nat.log_of_lt (show 7 < 10 by decide))
  rw [hdigits] at hscale
  exact absurd hscale (by decide)

end Examples
end DatafusionPostgres.ArrowPg
