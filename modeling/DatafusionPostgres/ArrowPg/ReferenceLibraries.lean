import DatafusionPostgres.ArrowPg.Parameters
import DatafusionPostgres.Library.Rounding
import Mathlib.Data.Nat.Log

/-! The library functions that parameters are converted with, by their documentation,
so that conversions can be evaluated. -/
namespace DatafusionPostgres.ArrowPg
open Library

namespace Decimal

def tryNew (mantissa : Int) (scale : Nat) : Option Decimal :=
  if h : mantissa.natAbs < 2 ^ 96 ∧ scale ≤ 28 then some ⟨mantissa, scale, h.1, h.2⟩ else none

/-- Up to `n` more fractional digits, as many as the mantissa has room for. -/
def raise : Nat → Decimal → Decimal
  | 0, d => d
  | n + 1, d =>
    match tryNew (d.mantissa * 10) (d.scale + 1) with
    | some d => raise n d
    | none => d

/-- Rounds half away from zero when digits are dropped. -/
def rescale (d : Decimal) (scale : UInt32) : Decimal :=
  if scale.toNat ≤ d.scale then
    let unit := 10 ^ (d.scale - scale.toNat)
    let rounded := (d.mantissa.natAbs + unit / 2) / unit
    (tryNew (d.mantissa.sign * rounded) scale.toNat).getD d
  else raise (min (scale.toNat - d.scale) 28) d

def toInteger (d : Decimal) : Int := d.mantissa.tdiv (10 ^ d.scale)

def toFloat (d : Decimal) : Float := Float.ofInt d.mantissa / Float.ofNat (10 ^ d.scale)

end Decimal

/-- The precisions and scales that Arrow accepts. -/
def ValidDecimalType (precision : UInt8) (scale : Int8) : Prop :=
  1 ≤ precision.toNat ∧ precision.toNat ≤ 38 ∧ scale.toInt ≤ precision.toNat

instance (precision : UInt8) (scale : Int8) : Decidable (ValidDecimalType precision scale) :=
  inferInstanceAs (Decidable (_ ∧ _))

/-- A type that elements can be of. -/
def DataType.ValidElement : DataType → Prop
  | .decimal128 precision scale => ValidDecimalType precision scale
  | _ => True

/-- The digits of a decimal at another precision and scale. -/
def ScalarValue.withDecimalType (precision : UInt8) (scale : Int8) : ScalarValue → ScalarValue
  | .decimal128 value _ _ => .decimal128 value precision scale
  | v => v

/-- An integer type: its range, and its scalars. -/
structure IntegerElement where
  low : Int
  high : Int
  scalar : Option Int → ScalarValue

def DataType.integer : DataType → Option IntegerElement
  | .int8 => some ⟨-2 ^ 7, 2 ^ 7 - 1, fun n => .int8 (n.map Int8.ofInt)⟩
  | .int16 => some ⟨-2 ^ 15, 2 ^ 15 - 1, fun n => .int16 (n.map Int16.ofInt)⟩
  | .int32 => some ⟨-2 ^ 31, 2 ^ 31 - 1, fun n => .int32 (n.map Int32.ofInt)⟩
  | .int64 => some ⟨-2 ^ 63, 2 ^ 63 - 1, fun n => .int64 (n.map Int64.ofInt)⟩
  | .uint8 => some ⟨0, 2 ^ 8 - 1, fun n => .uint8 (n.map fun n => .ofNat n.toNat)⟩
  | .uint16 => some ⟨0, 2 ^ 16 - 1, fun n => .uint16 (n.map fun n => .ofNat n.toNat)⟩
  | .uint32 => some ⟨0, 2 ^ 32 - 1, fun n => .uint32 (n.map fun n => .ofNat n.toNat)⟩
  | .uint64 => some ⟨0, 2 ^ 64 - 1, fun n => .uint64 (n.map fun n => .ofNat n.toNat)⟩
  | _ => none

/-- The digits of a decimal at another scale. -/
def rescaledDigits (m : Int) (s s' : Int8) : Int :=
  roundHalfAway ((m : ℚ) / 10 ^ s.toInt * 10 ^ s'.toInt)

/-- Only decimals are cast here, and to integers and decimals; NULL is what has no room. -/
def castDecimal : ScalarValue → DataType → Option ScalarValue
  | .decimal128 value p s, .decimal128 p' s' =>
    if p = p' ∧ s = s' then some (.decimal128 value p s)
    else some (.decimal128
      ((value.map (rescaledDigits · s s')).filter (·.natAbs < 10 ^ p'.toNat)) p' s')
  | .decimal128 value _ s, elementType =>
    elementType.integer.map fun type =>
      type.scalar ((value.map (·.tdiv (10 ^ s.toInt.toNat))).filter
        fun m => type.low ≤ m ∧ m ≤ type.high)
  | _, _ => none

/-- A list of the elements as the cast gives them, which panics where it fails. -/
def castList (cast : ScalarValue → DataType → Option ScalarValue) (values : List ScalarValue)
    (elementType : DataType) : Except Failure ScalarValue :=
  match values.mapM (cast · elementType) with
  | some elements => .ok (.list elementType elements)
  | none => .error .panic

/-- An array has the type of its first scalar, and is cast to the type that is passed. -/
def listByCast (values : List ScalarValue) (elementType : DataType) :
    Except Failure ScalarValue :=
  match values with
  | .decimal128 value p s :: rest =>
    if ValidDecimalType p s then
      castList castDecimal
        ((.decimal128 value p s :: rest).map (ScalarValue.withDecimalType p s)) elementType
    else .error .panic
  | values => .ok (.list elementType values)

/-- What is documented of `new_list_nullable` for scalars of the type that is passed: they are
the list, or there is a panic where elements cannot be of that type. -/
structure ParamLibraries.BuildsLists (libs : ParamLibraries) : Prop where
  list : ∀ values elementType, (∀ v ∈ values, v.dataType = elementType) →
    (values ≠ [] → elementType.ValidElement) →
      libs.newListNullable values elementType = .ok (.list elementType values)
  refused : ∀ values elementType, (∀ v ∈ values, v.dataType = elementType) → values ≠ [] →
    ¬ elementType.ValidElement → libs.newListNullable values elementType = .error .panic

/-- What is documented of it for decimals: their digits are taken at the type of the first, and
cast to the type that is passed. A cast to whole numbers rounds, and integers have their range. -/
structure ParamLibraries.CastsLists (libs : ParamLibraries) : Prop
    extends libs.BuildsLists where
  decimals : ∀ value p s rest elementType,
    (∀ v ∈ rest, ∃ value' p' s', v = .decimal128 value' p' s') →
      libs.newListNullable (.decimal128 value p s :: rest) elementType =
        if ValidDecimalType p s then
          castList libs.castElement
            ((.decimal128 value p s :: rest).map (ScalarValue.withDecimalType p s)) elementType
        else .error .panic
  cast_type : ∀ value p s elementType e,
    libs.castElement (.decimal128 value p s) elementType = some e →
      e.dataType = elementType ∧ (value = none → e.isNull = true)
  cast_whole : ∀ value p s, 0 ≤ s.toInt → (∀ m, value = some m → m.natAbs < 2 ^ 96) →
    libs.castElement (.decimal128 value p s) (.decimal128 38 0) =
      some (.decimal128 (value.map (rescaledDigits · s 0)) 38 0)
  cast_integer : ∀ (elementType : DataType) type, elementType.integer = some type →
    ∀ value, (∀ m, value = some m → type.low ≤ m ∧ m ≤ type.high) →
      libs.castElement (.decimal128 value 38 0) elementType = some (type.scalar value)
  cast_outside : ∀ (elementType : DataType) type, elementType.integer = some type →
    ∀ m e, ¬ (type.low ≤ m ∧ m ≤ type.high) →
      libs.castElement (.decimal128 (some m) 38 0) elementType = some e → e.isNull = true

/-- An integer as a type of the given range. -/
def fitInteger {τ : Type} (low high : Int) (ofInt : Int → τ) (n : Int) : Option τ :=
  if low ≤ n ∧ n ≤ high then some (ofInt n) else none

/-- An unsigned type has none of the negative numbers, also where they truncate to zero. -/
def fitUnsigned {τ : Type} (high : Int) (ofNat : Nat → τ) (d : Decimal) : Option τ :=
  if d.mantissa < 0 then none else fitInteger 0 high (fun n => ofNat n.toNat) d.toInteger

def referenceLibraries : ParamLibraries where
  rescale := Decimal.rescale
  toU64 := fitUnsigned (2 ^ 64 - 1) UInt64.ofNat
  toU32 := fitUnsigned (2 ^ 32 - 1) UInt32.ofNat
  toI64 d := fitInteger (-2 ^ 63) (2 ^ 63 - 1) Int64.ofInt d.toInteger
  toI32 d := fitInteger (-2 ^ 31) (2 ^ 31 - 1) Int32.ofInt d.toInteger
  toF64 d := some d.toFloat
  toF32 d := some d.toFloat.toFloat32
  log10Floor n := .ofNat (Nat.log 10 n)
  timestamp t := .ofInt (t.nanoseconds.fdiv 1000000000)
  timestampMillis t := .ofInt (t.nanoseconds.fdiv 1000000)
  timestampMicros t := .ofInt (t.nanoseconds.fdiv 1000)
  timestampNanosOpt t := fitInteger (-2 ^ 63) (2 ^ 63 - 1) Int64.ofInt t.nanoseconds
  fromNaiveDate d := .ofInt d.days
  numSecondsFromMidnight t := .ofNat (t.nanoseconds / 1000000000)
  nanosecond t := .ofNat (t.nanoseconds % 1000000000)
  castElement := castDecimal
  newListNullable := listByCast

section Lists
variable {values : List ScalarValue} {elementType : DataType}

section Casts
variable {cast : ScalarValue → DataType → Option ScalarValue}

theorem castList_map {α : Type} {scalar f : α → ScalarValue} {as : List α}
    (h : ∀ a ∈ as, cast (scalar a) elementType = some (f a)) :
    castList cast (as.map scalar) elementType = .ok (.list elementType (as.map f)) := by
  have hall : (as.map scalar).mapM (cast · elementType) = some (as.map f) := by
    induction as with
    | nil => rfl
    | cons a as ih =>
      obtain ⟨ha, has⟩ := List.forall_mem_cons.mp h
      rw [List.map_cons, List.mapM_cons, ha, ih has]
      rfl
  rw [castList, hall]

theorem castList_of_none {v : ScalarValue} (hv : v ∈ values) (hcast : cast v elementType = none) :
    castList cast values elementType = .error .panic := by
  have hnone : values.mapM (cast · elementType) = none := by
    induction values with
    | nil => cases hv
    | cons v' values ih =>
      rw [List.mapM_cons]
      rcases List.mem_cons.mp hv with rfl | hv
      · rw [hcast]
        rfl
      · rw [ih hv]
        cases cast v' elementType <;> rfl
  rw [castList, hnone]

/-- Each element has a cast, or there is no list. -/
theorem castList_cases {α : Type} (cast : ScalarValue → DataType → Option ScalarValue)
    (scalar : α → ScalarValue) (elementType : DataType) (as : List α) :
    ((∃ a ∈ as, cast (scalar a) elementType = none) ∧
        castList cast (as.map scalar) elementType = .error .panic) ∨
      ∃ f : α → ScalarValue, (∀ a ∈ as, cast (scalar a) elementType = some (f a)) ∧
        castList cast (as.map scalar) elementType = .ok (.list elementType (as.map f)) := by
  by_cases hnone : ∃ a ∈ as, cast (scalar a) elementType = none
  · obtain ⟨a, ha, hcast⟩ := hnone
    exact .inl ⟨⟨a, ha, hcast⟩, castList_of_none (List.mem_map_of_mem ha) hcast⟩
  · push Not at hnone
    have hcast : ∀ a ∈ as, cast (scalar a) elementType =
        some ((cast (scalar a) elementType).getD (scalar a)) := by
      intro a ha
      obtain ⟨e, he⟩ := Option.ne_none_iff_exists'.mp (hnone a ha)
      rw [he, Option.getD_some]
    exact .inr ⟨_, hcast, castList_map hcast⟩

end Casts

private theorem eq_decimal128 {v : ScalarValue} {p : UInt8} {s : Int8}
    (h : v.dataType = .decimal128 p s) : ∃ value, v = .decimal128 value p s := by
  cases v with
  | decimal128 value p' s' =>
    cases h
    exact ⟨value, rfl⟩
  | other type =>
    have honly := type.property
    rw [show type.val = .decimal128 p s from h] at honly
    cases honly
  | _ => cases h

theorem withDecimalType_self {p : UInt8} {s : Int8}
    (htype : ∀ v ∈ values, v.dataType = .decimal128 p s) :
    values.map (ScalarValue.withDecimalType p s) = values := by
  refine (List.map_congr_left fun v hv => ?_).trans (List.map_id values)
  obtain ⟨value, rfl⟩ := eq_decimal128 (htype v hv)
  rfl

end Lists

section Reference

private theorem decimal_of_invalid {elementType : DataType} (h : ¬ elementType.ValidElement) :
    ∃ p s, elementType = .decimal128 p s := by
  cases elementType with
  | decimal128 p s => exact ⟨p, s, rfl⟩
  | _ => exact absurd trivial h

theorem referenceLibraries_buildsLists : referenceLibraries.BuildsLists where
  list := by
    intro values elementType htype hvalid
    change listByCast values elementType = _
    unfold listByCast
    split
    · rename_i value p s rest
      have hfirst : DataType.decimal128 p s = elementType := htype _ List.mem_cons_self
      subst hfirst
      have hcast : ∀ v ∈ ScalarValue.decimal128 value p s :: rest,
          castDecimal (id v) (.decimal128 p s) = some (id v) := by
        intro v hv
        obtain ⟨value', rfl⟩ := eq_decimal128 (htype v hv)
        exact if_pos ⟨rfl, rfl⟩
      have hlist := castList_map hcast
      have hdecimal : ValidDecimalType p s := hvalid (List.cons_ne_nil _ _)
      rw [List.map_id] at hlist
      rw [if_pos hdecimal, withDecimalType_self htype, hlist]
    · rfl
  refused := by
    intro values elementType htype hne hinvalid
    obtain ⟨p, s, rfl⟩ := decimal_of_invalid hinvalid
    obtain ⟨v, rest, rfl⟩ := List.exists_cons_of_ne_nil hne
    obtain ⟨value, rfl⟩ := eq_decimal128 (htype v List.mem_cons_self)
    exact if_neg hinvalid

/-- At a scale that is not negative, the digits at scale zero are those before the point. -/
theorem rescaledDigits_whole (m : Int) {s : Int8} {n : Nat} (hs : s.toInt = n) :
    rescaledDigits m s 0 = roundHalfAway ((m : ℚ) / (10 ^ n : Nat)) := by
  have hzero : (0 : Int8).toInt = 0 := rfl
  rw [rescaledDigits, hs, hzero, zpow_zero, mul_one, zpow_natCast]
  push_cast
  rfl

private theorem castDecimal_decimal (value : Option Int) (p p' : UInt8) (s s' : Int8) :
    castDecimal (.decimal128 value p s) (.decimal128 p' s') =
      if p = p' ∧ s = s' then some (.decimal128 value p s)
      else some (.decimal128
        ((value.map (rescaledDigits · s s')).filter (·.natAbs < 10 ^ p'.toNat)) p' s') := rfl

private theorem castDecimal_whole (value : Option Int) (p : UInt8) (s : Int8) (hs : 0 ≤ s.toInt)
    (hroom : ∀ m, value = some m → m.natAbs < 2 ^ 96) :
    castDecimal (.decimal128 value p s) (.decimal128 38 0) =
      some (.decimal128 (value.map (rescaledDigits · s 0)) 38 0) := by
  obtain ⟨n, hn⟩ := Int.eq_ofNat_of_zero_le hs
  rw [castDecimal_decimal]
  cases value with
  | none =>
    split
    · rename_i hsame
      obtain ⟨rfl, rfl⟩ := hsame
      rfl
    · rfl
  | some m =>
    have hdigits := rescaledDigits_whole m hn
    split
    · rename_i hsame
      obtain ⟨rfl, rfl⟩ := hsame
      obtain rfl : n = 0 := (Int.ofNat_inj.mp hn).symm
      rw [Nat.pow_zero, Nat.cast_one, div_one, roundHalfAway_intCast] at hdigits
      rw [Option.map_some, hdigits]
    · have hless : (rescaledDigits m s 0).natAbs ≤ m.natAbs := by
        rw [hdigits]
        exact natAbs_roundHalfAway_div_le m (Nat.pow_pos (by decide))
      have hfits : (rescaledDigits m s 0).natAbs < 10 ^ (38 : UInt8).toNat :=
        hless.trans_lt ((hroom m rfl).trans (by decide))
      rw [Option.map_some, Option.filter_some, if_pos (decide_eq_true hfits)]

private theorem castDecimal_integer {elementType : DataType} {type : IntegerElement}
    (h : elementType.integer = some type) (value : Option Int) :
    castDecimal (.decimal128 value 38 0) elementType =
      some (type.scalar (value.filter fun m => type.low ≤ m ∧ m ≤ type.high)) := by
  have hcast : castDecimal (.decimal128 value 38 0) elementType =
      elementType.integer.map fun type => type.scalar ((value.map (·.tdiv (10 ^ 0))).filter
        fun m => type.low ≤ m ∧ m ≤ type.high) := by
    cases elementType with
    | decimal128 p s => cases h
    | _ => rfl
  have hvalue : value.map (·.tdiv (10 ^ 0)) = value := by
    cases value with
    | none => rfl
    | some m => rw [Option.map_some, Int.pow_zero, Int.tdiv_one]
  rw [hcast, h, hvalue, Option.map_some]

theorem DataType.integer_null {elementType : DataType} {type : IntegerElement}
    (h : elementType.integer = some type) : (type.scalar none).isNull = true := by
  cases elementType with
  | int8 | int16 | int32 | int64 | uint8 | uint16 | uint32 | uint64 =>
    cases h
    rfl
  | _ => cases h

theorem referenceLibraries_castsLists : referenceLibraries.CastsLists where
  toBuildsLists := referenceLibraries_buildsLists
  decimals _ _ _ _ _ _ := rfl
  cast_type := by
    intro value p s elementType e h
    change castDecimal _ elementType = some e at h
    cases elementType with
    | decimal128 p' s' =>
      rw [castDecimal_decimal] at h
      split at h
      · rename_i hsame
        obtain ⟨rfl, rfl⟩ := hsame
        cases h
        exact ⟨rfl, by rintro rfl; rfl⟩
      · cases h
        exact ⟨rfl, by rintro rfl; rfl⟩
    | int8 | int16 | int32 | int64 | uint8 | uint16 | uint32 | uint64 =>
      cases h
      exact ⟨rfl, by rintro rfl; rfl⟩
    | _ => cases h
  cast_whole := castDecimal_whole
  cast_integer := by
    intro elementType type htype value hvalue
    refine (castDecimal_integer htype value).trans ?_
    cases value with
    | none => rfl
    | some m => rw [Option.filter_some, if_pos (decide_eq_true (hvalue m rfl))]
  cast_outside := by
    intro elementType type htype m e hout h
    have hcast := (castDecimal_integer htype (some m)).symm.trans h
    rw [Option.filter_some, if_neg (by simpa using hout)] at hcast
    cases hcast
    exact DataType.integer_null htype

end Reference

namespace BoundParameter

def null : BoundParameter where
  isNull := true
  read _ _ := .ok none
  read_null := by simp

/-- A text on the wire; only a read as text is of use here. -/
def text (value : String) : BoundParameter where
  isNull := false
  read
    | .string, _ => .ok (some value)
    | _, _ => .error (.apiError [.text "text expected"])
  read_null t pgType := by cases t <;> simp

end BoundParameter
end DatafusionPostgres.ArrowPg
