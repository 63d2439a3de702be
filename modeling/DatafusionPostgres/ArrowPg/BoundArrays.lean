import DatafusionPostgres.ArrowPg.DenotedValues

/-! Arrays of numbers: the elements are cast to one type, by way of whole decimals where
the type has no conversion of its own. -/
namespace DatafusionPostgres.ArrowPg
open Library

section Numbers
variable {libs : ParamLibraries} {d : Decimal}

private theorem list_kept_iff (hlists : libs.BuildsLists) {ds : List (Option Decimal)}
    {scalar : Option Decimal → ScalarValue} {elementType : DataType}
    (htype : ∀ d, (scalar d).dataType = elementType) :
    (BoundValue.numericArray ds).KeptOrRejected libs
        (do return [← libs.newListNullable (ds.map scalar) elementType]) ↔
      (ds ≠ [] → elementType.ValidElement) ∧
        ∀ n, some n ∈ ds → (scalar (some n)).DenotesNumber libs n := by
  have hscalars : ∀ v ∈ ds.map scalar, v.dataType = elementType := by
    intro v hv
    obtain ⟨d, -, rfl⟩ := List.mem_map.mp hv
    exact htype d
  have hempty : ds ≠ [] ↔ ds.map scalar ≠ [] := not_congr List.map_eq_nil_iff.symm
  rw [hempty]
  by_cases hvalid : ds.map scalar ≠ [] → elementType.ValidElement
  · rw [and_iff_right hvalid, hlists.list _ _ hscalars hvalid]
    refine keptOrRejected_ok.trans ?_
    change List.Forall₂ _ ds (ds.map scalar) ↔ _
    rw [List.forall₂_map_right_iff, List.forall₂_same]
    constructor
    · intro h n hn
      exact h (some n) hn n rfl
    · rintro h d hd n rfl
      exact h n hd
  · refine iff_of_false ?_ fun h => hvalid h.1
    obtain ⟨hne, hinvalid⟩ := Classical.not_imp.mp hvalid
    rw [hlists.refused _ _ hscalars hne hinvalid]
    rintro ⟨error, ⟨⟩⟩

private theorem castList_kept_iff {ds : List (Option Decimal)}
    {scalar : Option Decimal → ScalarValue} {elementType : DataType} :
    (BoundValue.numericArray ds).KeptOrRejected libs
        (do return [← castList libs.castElement (ds.map scalar) elementType]) ↔
      ∀ d ∈ ds, ∃ e, libs.castElement (scalar d) elementType = some e ∧
        ∀ n, d = some n → e.DenotesNumber libs n := by
  rcases castList_cases libs.castElement scalar elementType ds with
    ⟨⟨d, hd, hnone⟩, hpanic⟩ | ⟨f, hcast, hlist⟩
  · rw [hpanic]
    refine iff_of_false ?_ fun h => ?_
    · rintro ⟨error, ⟨⟩⟩
    · obtain ⟨e, he, -⟩ := h d hd
      rw [hnone] at he
      cases he
  · rw [hlist]
    refine keptOrRejected_ok.trans ?_
    change List.Forall₂ _ ds (ds.map f) ↔ _
    rw [List.forall₂_map_right_iff, List.forall₂_same]
    refine forall₂_congr fun d hd => ?_
    rw [hcast d hd]
    constructor
    · intro h
      exact ⟨f d, rfl, h⟩
    · rintro ⟨e, heq, h⟩
      cases heq
      exact h

section Cast
variable (hlibs : libs.Documented)
include hlibs

/-- The elements of a type without an arm of its own are cast from whole decimals. -/
theorem castElements_eq (ds : List (Option Decimal)) (elementType : DataType) :
    libs.newListNullable (ds.map fun n => rescaledNumeric libs n 38 0) elementType =
      castList libs.castElement (ds.map fun n => rescaledNumeric libs n 38 0) elementType := by
  cases ds with
  | nil =>
    refine hlibs.list [] elementType (fun v hv => absurd hv List.not_mem_nil) fun h => ?_
    exact absurd rfl h
  | cons first rest =>
    have hdecimals : ∀ v ∈ rest.map (fun n => rescaledNumeric libs n 38 0),
        ∃ value p s, v = .decimal128 value p s := by
      intro v hv
      obtain ⟨d, -, rfl⟩ := List.mem_map.mp hv
      exact ⟨_, _, _, rfl⟩
    have htype : ∀ v ∈ (first :: rest).map (fun n => rescaledNumeric libs n 38 0),
        v.dataType = .decimal128 38 0 := by
      intro v hv
      obtain ⟨d, -, rfl⟩ := List.mem_map.mp hv
      rfl
    have hlist := hlibs.decimals (first.map fun n => (libs.rescale n 0).mantissa) 38 0 _
      elementType hdecimals
    rw [if_pos (by decide)] at hlist
    refine hlist.trans ?_
    exact congrArg (castList _ · _) (withDecimalType_self htype)

private theorem rescaledNumeric_whole {m : Int} (hm : (m : ℚ) = d.number) :
    rescaledNumeric libs (some d) 38 0 = .decimal128 (some m) 38 0 := by
  have hunit : (m : ℚ) / 10 ^ 0 = d.number := by rw [pow_zero, div_one, hm]
  have hless : m.natAbs ≤ d.mantissa.natAbs := by
    rw [← Decimal.mantissa_of_whole hm, Int.natAbs_mul]
    exact Nat.le_mul_of_pos_right _ (Int.natAbs_pos.mpr (by positivity))
  have hrescale := hlibs.rescale_mantissa d 0 m (by decide) (hless.trans_lt d.mantissa_lt) hunit
  exact congrArg (fun m => ScalarValue.decimal128 (some m) 38 0) hrescale

omit hlibs in
private theorem some_denotes {τ : Type} (toInt : τ → Int) {t : τ} {m : Int} (h : toInt t = m) :
    (∃ n, some t = some n ∧ (toInt n : ℚ) = d.number) ↔ (m : ℚ) = d.number := by
  constructor
  · rintro ⟨n, hn, hnumber⟩
    cases hn
    rwa [h] at hnumber
  · intro hnumber
    exact ⟨t, rfl, by rw [h, hnumber]⟩

omit hlibs in
private theorem integer_denotes {elementType : DataType} {type : IntegerElement}
    (htype : elementType.integer = some type) {m : Int} (hlow : type.low ≤ m)
    (hhigh : m ≤ type.high) :
    (type.scalar (some m)).DenotesNumber libs d ↔ (m : ℚ) = d.number := by
  cases elementType with
  | int8 =>
    cases htype
    exact some_denotes Int8.toInt (Int8.toInt_ofInt_of_le hlow (Int.lt_of_le_sub_one hhigh))
  | int16 =>
    cases htype
    exact some_denotes Int16.toInt (Int16.toInt_ofInt_of_le hlow (Int.lt_of_le_sub_one hhigh))
  | int32 =>
    cases htype
    exact some_denotes Int32.toInt (Int32.toInt_ofInt_of_le hlow (Int.lt_of_le_sub_one hhigh))
  | int64 =>
    cases htype
    exact some_denotes Int64.toInt (Int64.toInt_ofInt_of_le hlow (Int.lt_of_le_sub_one hhigh))
  | uint8 =>
    cases htype
    obtain ⟨n, rfl⟩ := Int.eq_ofNat_of_zero_le hlow
    have hlt : n < UInt8.size := Int.ofNat_lt.mp (Int.lt_of_le_sub_one hhigh)
    exact some_denotes (fun n : UInt8 => (n.toNat : Int))
      (congrArg Nat.cast (UInt8.toNat_ofNat_of_lt' hlt))
  | uint16 =>
    cases htype
    obtain ⟨n, rfl⟩ := Int.eq_ofNat_of_zero_le hlow
    have hlt : n < UInt16.size := Int.ofNat_lt.mp (Int.lt_of_le_sub_one hhigh)
    exact some_denotes (fun n : UInt16 => (n.toNat : Int))
      (congrArg Nat.cast (UInt16.toNat_ofNat_of_lt' hlt))
  | uint32 =>
    cases htype
    obtain ⟨n, rfl⟩ := Int.eq_ofNat_of_zero_le hlow
    have hlt : n < UInt32.size := Int.ofNat_lt.mp (Int.lt_of_le_sub_one hhigh)
    exact some_denotes (fun n : UInt32 => (n.toNat : Int))
      (congrArg Nat.cast (UInt32.toNat_ofNat_of_lt' hlt))
  | uint64 =>
    cases htype
    obtain ⟨n, rfl⟩ := Int.eq_ofNat_of_zero_le hlow
    have hlt : n < UInt64.size := Int.ofNat_lt.mp (Int.lt_of_le_sub_one hhigh)
    exact some_denotes (fun n : UInt64 => (n.toNat : Int))
      (congrArg Nat.cast (UInt64.toNat_ofNat_of_lt' hlt))
  | _ => cases htype

private theorem castInteger_iff {elementType : DataType} {type : IntegerElement}
    (htype : elementType.integer = some type) :
    (∃ e, libs.castElement (rescaledNumeric libs (some d) 38 0) elementType = some e ∧
        e.DenotesNumber libs d) ↔ d.FitsInteger type.low type.high := by
  constructor
  · rintro ⟨e, he, hdenotes⟩
    obtain ⟨m, hm⟩ : ∃ m, rescaledNumeric libs (some d) 38 0 = .decimal128 (some m) 38 0 :=
      ⟨_, rfl⟩
    rw [hm] at he
    by_cases hrange : type.low ≤ m ∧ m ≤ type.high
    · rw [hlibs.cast_integer elementType type htype (some m) (by rintro _ ⟨⟩; exact hrange)] at he
      cases he
      exact ⟨m, hrange.1, hrange.2, (integer_denotes htype hrange.1 hrange.2).mp hdenotes⟩
    · have hnull := hlibs.cast_outside elementType type htype m e hrange he
      rw [hdenotes.not_null] at hnull
      cases hnull
  · rintro ⟨m, hlow, hhigh, hnumber⟩
    rw [rescaledNumeric_whole hlibs hnumber, hlibs.cast_integer elementType type htype (some m)
      (by rintro _ ⟨⟩; exact ⟨hlow, hhigh⟩)]
    exact ⟨_, rfl, (integer_denotes htype hlow hhigh).mpr hnumber⟩

private theorem castOther_iff {elementType : DataType} (h64 : elementType ≠ .float64)
    (h32 : elementType ≠ .float32) :
    (∃ e, libs.castElement (rescaledNumeric libs (some d) 38 0) elementType = some e ∧
        e.DenotesNumber libs d) ↔
      ∃ (m : Int) (e : ScalarValue), (m : ℚ) = d.number ∧
        libs.castElement (.decimal128 (some m) 38 0) elementType = some e ∧
          e.DenotesNumber libs d := by
  constructor
  · rintro ⟨e, he, hdenotes⟩
    obtain ⟨m, hm⟩ := hlibs.cast_number _ _ _ _ h64 h32 he hdenotes
    rw [rescaledNumeric_whole hlibs hm] at he
    exact ⟨m, e, hm, he, hdenotes⟩
  · rintro ⟨m, e, hm, he, hdenotes⟩
    rw [rescaledNumeric_whole hlibs hm]
    exact ⟨e, he, hdenotes⟩

private theorem casts_kept_iff (ds : List (Option Decimal)) {elementType : DataType}
    (hdecimal : ∀ p s, elementType ≠ .decimal128 p s)
    (hfits : ∀ n : Decimal, (∃ e,
      libs.castElement (rescaledNumeric libs (some n) 38 0) elementType = some e ∧
        e.DenotesNumber libs n) ↔ n.FitsElement libs elementType)
    (hnull : (∃ e, libs.castElement (.decimal128 none 38 0) elementType = some e) ↔
      elementType.TakesNull libs) :
    (BoundValue.numericArray ds).KeptOrRejected libs
        (do return [← libs.newListNullable (ds.map fun n => rescaledNumeric libs n 38 0)
          elementType]) ↔ ExpectedFits libs ds elementType := by
  rw [castElements_eq hlibs ds elementType, castList_kept_iff]
  constructor
  · intro h
    refine ⟨fun _ => ?_, fun n hn => ?_, fun hn => ?_⟩
    · cases elementType with
      | decimal128 p s => exact absurd rfl (hdecimal p s)
      | _ => trivial
    · obtain ⟨e, he, hdenotes⟩ := h (some n) hn
      exact (hfits n).mp ⟨e, he, hdenotes n rfl⟩
    · obtain ⟨e, he, -⟩ := h none hn
      exact hnull.mp ⟨e, he⟩
  · rintro ⟨-, helements, hnulls⟩ d hd
    cases d with
    | none =>
      obtain ⟨e, he⟩ := hnull.mpr (hnulls hd)
      exact ⟨e, he, by rintro n ⟨⟩⟩
    | some n =>
      obtain ⟨e, he, hdenotes⟩ := (hfits n).mpr (helements n hd)
      refine ⟨e, he, ?_⟩
      rintro _ ⟨⟩
      exact hdenotes

omit hlibs in
private theorem own_kept_iff (hlists : libs.BuildsLists) (ds : List (Option Decimal))
    (scalar : Option Decimal → ScalarValue) (elementType : DataType)
    (htype : ∀ d, (scalar d).dataType = elementType)
    (hfits : ∀ n, (scalar (some n)).DenotesNumber libs n ↔ n.FitsElement libs elementType)
    (hnull : elementType.TakesNull libs) :
    (BoundValue.numericArray ds).KeptOrRejected libs
        (do return [← libs.newListNullable (ds.map scalar) elementType]) ↔
      ExpectedFits libs ds elementType := by
  rw [list_kept_iff hlists htype]
  constructor
  · rintro ⟨hvalid, helements⟩
    exact ⟨hvalid, fun n hn => (hfits n).mp (helements n hn), fun _ => hnull⟩
  · rintro ⟨hvalid, helements, -⟩
    exact ⟨hvalid, fun n hn => (hfits n).mpr (helements n hn)⟩

private theorem elements_kept_iff (ds : List (Option Decimal)) (field : Field) :
    (BoundValue.numericArray ds).KeptOrRejected libs
        (numericArrayParameter libs (some ds) (some (.list field))) ↔
      ExpectedFits libs ds field.dataType := by
  obtain ⟨name, dataType, nullable, metadata⟩ := field
  have hlists := hlibs.toBuildsLists
  have hreads := hlibs.toReadsDecimals
  cases dataType with
  | decimal128 p s =>
    exact own_kept_iff hlists ds (rescaledNumeric libs · p s) (.decimal128 p s) (fun _ => rfl)
      (fun n => rescaledNumeric_denotes_iff hreads p s) trivial
  | uint64 =>
    exact own_kept_iff hlists ds (fun n => .uint64 (n.bind libs.toU64)) .uint64 (fun _ => rfl)
      (fun n => toU64_denotes_iff hreads)
      ⟨_, hlibs.cast_integer .uint64 _ rfl none (by rintro m ⟨⟩)⟩
  | float64 =>
    exact own_kept_iff hlists ds (fun n => .float64 (n.bind libs.toF64)) .float64 (fun _ => rfl)
      (fun n => iff_true_intro (toF64_denotes hreads)) trivial
  | float32 =>
    exact own_kept_iff hlists ds (fun n => .float32 (n.bind libs.toF32)) .float32 (fun _ => rfl)
      (fun n => iff_true_intro (toF32_denotes hreads)) trivial
  | int8 | int16 | int32 | int64 | uint8 | uint16 | uint32 =>
    exact casts_kept_iff hlibs ds (by rintro p s ⟨⟩) (fun n => castInteger_iff hlibs rfl) Iff.rfl
  | _ =>
    exact casts_kept_iff hlibs ds (by rintro p s ⟨⟩)
      (fun n => castOther_iff hlibs (by rintro ⟨⟩) (by rintro ⟨⟩)) Iff.rfl

/-- The scalar of an element, where the first has the scale. -/
def wholeAt (scale : Nat) (n : Option Decimal) : ScalarValue :=
  .decimal128 (n.map fun n => rescaledDigits n.mantissa (.ofNat scale) 0) 38 0

omit hlibs in
private theorem wholeAt_denotes_iff {n : Decimal} {scale : Nat} (hs : scale ≤ 28) :
    (wholeAt scale (some n)).DenotesNumber libs n ↔
      (roundHalfAway ((n.mantissa : ℚ) / (10 ^ scale : Nat)) : ℚ) = n.number := by
  have hscale : (Int8.ofNat scale).toInt = scale := Int8.toInt_ofNat_of_lt (by omega)
  have hunit : ∀ m : Int, (m : ℚ) / 10 ^ (0 : Int8).toInt = m := by
    intro m
    rw [show (0 : Int8).toInt = 0 from rfl, zpow_zero, div_one]
  rw [← rescaledDigits_whole n.mantissa hscale]
  constructor
  · rintro ⟨m, hm, hnumber⟩
    cases hm
    rwa [hunit] at hnumber
  · intro hnumber
    exact ⟨_, rfl, by rwa [hunit]⟩

omit hlibs in
private theorem scale_of_rounded {n : Decimal} {scale : Nat} {r : Int} (hne : n.mantissa ≠ 0)
    (hnumber : (r : ℚ) = n.number)
    (hr : roundHalfAway ((n.mantissa : ℚ) / (10 ^ scale : Nat)) = r) : n.scale = scale := by
  have hmul := Decimal.mantissa_of_whole hnumber
  have hr0 : r ≠ 0 := by
    rintro rfl
    rw [Int.zero_mul] at hmul
    exact hne hmul.symm
  rcases Nat.lt_trichotomy n.scale scale with hlt | heq | hgt
  · exfalso
    obtain ⟨k, hk⟩ := Nat.exists_eq_add_of_lt hlt
    have hless := natAbs_roundHalfAway_div_lt hr0
      (show 10 ≤ 10 ^ (k + 1) from Nat.le_self_pow (Nat.succ_ne_zero k) 10)
    have hquotient : (n.mantissa : ℚ) / (10 ^ scale : Nat) = (r : ℚ) / (10 ^ (k + 1) : Nat) := by
      rw [← hmul, hk, Nat.add_assoc]
      push_cast
      rw [pow_add]
      field_simp
    rw [← hquotient, hr] at hless
    exact Nat.lt_irrefl _ hless
  · exact heq
  · exfalso
    obtain ⟨k, hk⟩ := Nat.exists_eq_add_of_lt hgt
    have hquotient : (n.mantissa : ℚ) / (10 ^ scale : Nat) = ((r * 10 ^ (k + 1) : Int) : ℚ) := by
      rw [← hmul, hk, Nat.add_assoc]
      push_cast
      rw [pow_add]
      field_simp
    rw [hquotient, roundHalfAway_intCast] at hr
    have hpow : (10 : Int) ^ (k + 1) = 1 := by
      apply Int.eq_of_mul_eq_mul_left hr0
      rw [hr, Int.mul_one]
    have hten : (1 : Int) < 10 ^ (k + 1) := one_lt_pow₀ (by decide) (Nat.succ_ne_zero k)
    omega

omit hlibs in
private theorem whole_denotes_iff {n : Decimal} {scale : Nat} (hs : scale ≤ 28) :
    (wholeAt scale (some n)).DenotesNumber libs n ↔
      n.mantissa = 0 ∨ n.scale = scale ∧ n.Whole := by
  rw [wholeAt_denotes_iff hs]
  constructor
  · intro hnumber
    rw [or_iff_not_imp_left]
    intro hne
    exact ⟨scale_of_rounded hne hnumber rfl, _, hnumber⟩
  · rintro (hzero | ⟨rfl, m, hm⟩)
    · rw [hzero, Int.cast_zero, zero_div, Decimal.number_eq_zero.mpr hzero]
      exact_mod_cast roundHalfAway_intCast 0
    · have hquotient : (n.mantissa : ℚ) / (10 ^ n.scale : Nat) = m := by
        rw [hm, Decimal.number]
        push_cast
        rfl
      rw [hquotient, roundHalfAway_intCast, hm]

omit hlibs in
theorem untyped_decimals (libs : ParamLibraries) (ds : List (Option Decimal)) :
    ∀ v ∈ ds.map (untypedNumeric libs), ∃ value p s, v = .decimal128 value p s := by
  intro v hv
  obtain ⟨d, -, rfl⟩ := List.mem_map.mp hv
  cases d <;> exact ⟨_, _, _, rfl⟩

/-- Any other array has the type of its first element, and is cast to whole numbers. -/
theorem untypedElements_eq (d : Decimal) (rest : List (Option Decimal)) : ∃ p,
    untypedNumeric libs (some d) = .decimal128 (some d.mantissa) p (.ofNat d.scale) ∧
      libs.newListNullable ((some d :: rest).map (untypedNumeric libs)) (.decimal128 38 0) =
        if ValidDecimalType p (.ofNat d.scale) then
          .ok (.list (.decimal128 38 0) ((some d :: rest).map (wholeAt d.scale)))
        else .error .panic := by
  obtain ⟨p, hfirst⟩ : ∃ p, untypedNumeric libs (some d) =
    .decimal128 (some d.mantissa) p (.ofNat d.scale) := ⟨_, rfl⟩
  refine ⟨p, hfirst, ?_⟩
  rw [List.map_cons, hfirst, hlibs.decimals _ _ _ _ _ (untyped_decimals libs rest), ← hfirst,
    ← List.map_cons]
  split
  · have hscale : 0 ≤ (Int8.ofNat d.scale).toInt := by
      have := d.scale_le
      rw [Int8.toInt_ofNat_of_lt (by omega)]
      exact Int.natCast_nonneg _
    rw [List.map_map]
    apply castList_map
    intro n _
    have hdigits : (untypedNumeric libs n).withDecimalType p (.ofNat d.scale) =
        .decimal128 (n.map Decimal.mantissa) p (.ofNat d.scale) := by
      cases n <;> rfl
    rw [Function.comp_apply, hdigits, hlibs.cast_whole _ _ _ hscale, Option.map_map, wholeAt]
    · rfl
    · intro m hm
      cases n with
      | none => cases hm
      | some n =>
        cases hm
        exact n.mantissa_lt
  · rfl

private theorem untypedElements_kept_iff (ds : List (Option Decimal)) :
    (BoundValue.numericArray ds).KeptOrRejected libs (do
      return [← libs.newListNullable (ds.map (untypedNumeric libs)) (.decimal128 38 0)]) ↔
      FirstFits libs ds := by
  cases ds with
  | nil =>
    rw [List.map_nil, hlibs.list [] _ (fun v hv => absurd hv List.not_mem_nil) (absurd rfl)]
    exact iff_of_true (keptOrRejected_ok.mpr .nil) trivial
  | cons first rest =>
    cases first with
    | none =>
      have hlist := hlibs.decimals none 0 0 _ (.decimal128 38 0)
        (untyped_decimals libs rest)
      rw [List.map_cons, untypedNumeric, hlist, if_neg (by decide)]
      refine iff_of_false ?_ id
      rintro ⟨error, ⟨⟩⟩
    | some d =>
      obtain ⟨p, hfirst, hlist⟩ := untypedElements_eq hlibs d rest
      rw [hlist, FirstFits, hfirst]
      change _ ↔ ValidDecimalType p (.ofNat d.scale) ∧ _
      split
      · rename_i hvalid
        rw [and_iff_right hvalid]
        refine keptOrRejected_ok.trans ?_
        change List.Forall₂ _ (some d :: rest) (List.map _ _) ↔ _
        rw [List.forall₂_map_right_iff, List.forall₂_same]
        constructor
        · intro h n hn
          exact (whole_denotes_iff d.scale_le).mp (h (some n) hn n rfl)
        · rintro h _ hn n rfl
          exact (whole_denotes_iff d.scale_le).mpr (h n hn)
      · rename_i hinvalid
        refine iff_of_false ?_ fun h => hinvalid h.1
        rintro ⟨error, ⟨⟩⟩

theorem numericArray_kept_iff (ds : List (Option Decimal)) (inferencedType : Option DataType) :
    (BoundValue.numericArray ds).KeptOrRejected libs
        (numericArrayParameter libs (some ds) inferencedType) ↔
      ElementsFit libs inferencedType ds := by
  unfold ElementsFit
  by_cases hlist : ∃ field, inferencedType = some (.list field)
  · obtain ⟨field, rfl⟩ := hlist
    rw [elements_kept_iff hlibs]
    constructor
    · intro h
      exact ⟨fun field' heq => by cases heq; exact h, fun hother => absurd rfl (hother field)⟩
    · intro h
      exact h.1 field rfl
  · have hother : ∀ field, inferencedType ≠ some (.list field) :=
      fun field heq => hlist ⟨field, heq⟩
    have harm : numericArrayParameter libs (some ds) inferencedType = (do
        return [← libs.newListNullable (ds.map (untypedNumeric libs)) (.decimal128 38 0)]) := by
      unfold numericArrayParameter
      dsimp only
      split
      · rename_i field
        exact absurd rfl (hother field)
      · rfl
    rw [harm, untypedElements_kept_iff hlibs]
    constructor
    · intro h
      exact ⟨fun field heq => absurd heq (hother field), fun _ => h⟩
    · intro h
      exact h.2 hother

end Cast
end Numbers
end DatafusionPostgres.ArrowPg
