import DatafusionPostgres.ArrowPg.DecimalParameters

/-! A NUMERIC array as a list: one element type, and the numbers of the array in their order. -/
namespace DatafusionPostgres.ArrowPg
open Library

/-- A scalar that is the element: NULL, or the number. -/
def ElementOf (libs : ParamLibraries) : Option Decimal → ScalarValue → Prop
  | none, v => v.isNull = true
  | some n, v => v.DenotesNumber libs n

/-- A NULL list for a NULL array. Of any other a list whose elements are of the type that the list
has, and are those of the array. -/
def BoundAsList (libs : ParamLibraries) (value : Option (List (Option Decimal)))
    (v : ScalarValue) : Prop :=
  match value with
  | none => v.isNull = true
  | some ds => ∃ elementType values, v = .list elementType values ∧
    (∀ e ∈ values, e.dataType = elementType) ∧ List.Forall₂ (ElementOf libs) ds values

/-- An array whose elements take their type from the first one: it has as many digits as its
scale, at least, and all are whole numbers at its scale, or zero. -/
def WholeAtFirstScale : List (Option Decimal) → Prop
  | [] => True
  | none :: _ => False
  | some d :: rest => d.scale ≤ d.digits ∧ WholeAtScale d.scale (some d :: rest)

/-- The elements fit the element type that is expected, or are whole at the scale of the first. -/
structure ArrayFits (libs : ParamLibraries) (inferencedType : Option DataType)
    (ds : List (Option Decimal)) : Prop where
  expected : ∀ field, inferencedType = some (.list field) → ExpectedFits libs ds field.dataType
  untyped : (∀ field, inferencedType ≠ some (.list field)) → WholeAtFirstScale ds

/-- A list of one element type, with NULL for NULL, or a panic. -/
def BuiltList (ds : List (Option Decimal)) (built : Except Failure (List ScalarValue)) : Prop :=
  built = .error .panic ∨ ∃ elementType values, built = .ok [.list elementType values] ∧
    (∀ e ∈ values, e.dataType = elementType) ∧
    List.Forall₂ (fun d e => d = none → e.isNull = true) ds values

section Built
variable {libs : ParamLibraries} (hlibs : libs.Documented)

include hlibs

private theorem built_of_type (scalar : Option Decimal → ScalarValue) (elementType : DataType)
    (htype : ∀ d, (scalar d).dataType = elementType) (hnull : (scalar none).isNull = true)
    (ds : List (Option Decimal)) :
    BuiltList ds (do return [← libs.newListNullable (ds.map scalar) elementType]) := by
  have hscalars : ∀ v ∈ ds.map scalar, v.dataType = elementType := by
    intro v hv
    obtain ⟨d, -, rfl⟩ := List.mem_map.mp hv
    exact htype d
  by_cases hvalid : ds.map scalar ≠ [] → elementType.ValidElement
  · rw [hlibs.list _ _ hscalars hvalid]
    refine .inr ⟨elementType, _, rfl, hscalars, ?_⟩
    rw [List.forall₂_map_right_iff, List.forall₂_same]
    rintro d - rfl
    exact hnull
  · obtain ⟨hne, hinvalid⟩ := Classical.not_imp.mp hvalid
    rw [hlibs.refused _ _ hscalars hne hinvalid]
    exact .inl rfl

private theorem built_of_cast (ds : List (Option Decimal)) (elementType : DataType) :
    BuiltList ds (do
      return [← libs.newListNullable (ds.map fun n => rescaledNumeric libs n 38 0)
        elementType]) := by
  rw [castElements_eq hlibs ds elementType]
  rcases castList_cases libs.castElement (fun n => rescaledNumeric libs n 38 0) elementType ds with
    ⟨-, hpanic⟩ | ⟨f, hcast, hlist⟩
  · rw [hpanic]
    exact .inl rfl
  · rw [hlist]
    refine .inr ⟨elementType, _, rfl, ?_, ?_⟩
    · intro e he
      obtain ⟨d, hd, rfl⟩ := List.mem_map.mp he
      exact (hlibs.cast_type _ _ _ _ _ (hcast d hd)).1
    · rw [List.forall₂_map_right_iff, List.forall₂_same]
      rintro d hd rfl
      exact (hlibs.cast_type _ _ _ _ _ (hcast none hd)).2 rfl

private theorem built_untyped (ds : List (Option Decimal)) :
    BuiltList ds (do
      return [← libs.newListNullable (ds.map (untypedNumeric libs)) (.decimal128 38 0)]) := by
  cases ds with
  | nil =>
    rw [List.map_nil, hlibs.list [] _ (fun v hv => absurd hv List.not_mem_nil) (absurd rfl)]
    exact .inr ⟨_, [], rfl, by rintro e ⟨⟩, .nil⟩
  | cons first rest =>
    cases first with
    | none =>
      have hlist := hlibs.decimals none 0 0 _ (.decimal128 38 0) (untyped_decimals libs rest)
      rw [List.map_cons, untypedNumeric, hlist, if_neg (by decide)]
      exact .inl rfl
    | some d =>
      obtain ⟨p, -, hlist⟩ := untypedElements_eq hlibs d rest
      rw [hlist]
      split
      · refine .inr ⟨_, _, rfl, ?_, ?_⟩
        · intro e he
          obtain ⟨n, -, rfl⟩ := List.mem_map.mp he
          rfl
        · rw [List.forall₂_map_right_iff, List.forall₂_same]
          rintro n - rfl
          rfl
      · exact .inl rfl

/-- Whatever type is expected, the list that is built has one element type. -/
theorem numericArrayParameter_built (ds : List (Option Decimal))
    (inferencedType : Option DataType) :
    BuiltList ds (numericArrayParameter libs (some ds) inferencedType) := by
  by_cases hlist : ∃ field, inferencedType = some (.list field)
  · obtain ⟨⟨name, dataType, nullable, metadata⟩, rfl⟩ := hlist
    have hother := built_of_cast hlibs ds dataType
    cases dataType with
    | decimal128 p s =>
      exact built_of_type hlibs (rescaledNumeric libs · p s) (.decimal128 p s) (fun _ => rfl) rfl ds
    | uint64 =>
      exact built_of_type hlibs (fun n => .uint64 (n.bind libs.toU64)) .uint64 (fun _ => rfl) rfl ds
    | float64 =>
      exact built_of_type hlibs (fun n => .float64 (n.bind libs.toF64)) .float64 (fun _ => rfl) rfl
        ds
    | float32 =>
      exact built_of_type hlibs (fun n => .float32 (n.bind libs.toF32)) .float32 (fun _ => rfl) rfl
        ds
    | _ => exact hother
  · unfold numericArrayParameter
    dsimp only
    split
    · rename_i field
      exact absurd ⟨field, rfl⟩ hlist
    · exact built_untyped hlibs ds

end Built

section Bound
variable {libs : ParamLibraries}

private theorem elementOf_of_denotes {ds : List (Option Decimal)} {values : List ScalarValue}
    (hnull : List.Forall₂ (fun d e => d = none → e.isNull = true) ds values)
    (hdenotes : List.Forall₂ (fun d e => ∀ n, d = some n → e.DenotesNumber libs n) ds values) :
    List.Forall₂ (ElementOf libs) ds values := by
  induction hnull with
  | nil => exact .nil
  | @cons d e _ _ hnone _ ih =>
    obtain ⟨hsome, hrest⟩ := List.forall₂_cons.mp hdenotes
    refine .cons ?_ (ih hrest)
    cases d with
    | none => exact hnone rfl
    | some n => exact hsome n rfl

private theorem bound_iff_kept (hlibs : libs.Documented) (ds : List (Option Decimal))
    (inferencedType : Option DataType) :
    (∃ v, numericArrayParameter libs (some ds) inferencedType = .ok [v] ∧
        BoundAsList libs (some ds) v) ↔
      (BoundValue.numericArray ds).KeptOrRejected libs
        (numericArrayParameter libs (some ds) inferencedType) := by
  rcases numericArrayParameter_built hlibs ds inferencedType with
    hpanic | ⟨elementType, values, hbuilt, htype, hnull⟩
  · rw [hpanic]
    refine iff_of_false ?_ ?_
    · rintro ⟨v, ⟨⟩, -⟩
    · rintro ⟨error, ⟨⟩⟩
  · rw [hbuilt]
    refine Iff.trans ?_ pushedOrRejected_ok.symm
    constructor
    · rintro ⟨v, hv, elementType', values', rfl, -, hof⟩
      cases hv
      refine hof.imp ?_
      rintro _ e he n rfl
      exact he
    · intro hdenotes
      exact ⟨_, rfl, elementType, values, rfl, htype, elementOf_of_denotes hnull hdenotes⟩

private theorem typeValid_iff (hlog : libs.ExactLog10) (d : Decimal) :
    (untypedNumeric libs (some d)).TypeValid ↔ d.scale ≤ d.digits := by
  have hdigits := d.digits_le
  have hscale := d.scale_le
  have hone : 1 ≤ d.digits := by
    rw [Decimal.digits]
    omega
  have hp : (UInt8.ofNat d.digits).toNat = d.digits :=
    UInt8.toNat_ofNat_of_lt' (hdigits.trans_lt (by decide))
  have hs : (Int8.ofNat d.scale).toInt = d.scale := Int8.toInt_ofNat_of_lt (by omega)
  rw [untypedNumeric_eq hlog]
  change 1 ≤ (UInt8.ofNat d.digits).toNat ∧ (UInt8.ofNat d.digits).toNat ≤ 38 ∧
    (Int8.ofNat d.scale).toInt ≤ (UInt8.ofNat d.digits).toNat ↔ _
  rw [hp, hs]
  omega

private theorem elementsFit_iff (hlog : libs.ExactLog10) (inferencedType : Option DataType)
    (ds : List (Option Decimal)) :
    ElementsFit libs inferencedType ds ↔ ArrayFits libs inferencedType ds := by
  have hfirst : FirstFits libs ds ↔ WholeAtFirstScale ds := by
    rcases ds with _ | ⟨_ | d, rest⟩
    · rfl
    · rfl
    · exact and_congr (typeValid_iff hlog d) Iff.rfl
  unfold ElementsFit
  rw [hfirst]
  exact ⟨fun h => ⟨h.1, h.2⟩, fun h => ⟨h.expected, h.untyped⟩⟩

end Bound

/-- A NUMERIC array is bound as the list of its numbers, of one type, exactly if they fit the
element type that is expected, or are whole at the scale of the first where none is. -/
theorem numericArray_bound_iff (libs : ParamLibraries) (hlibs : libs.Documented)
    (hlog : libs.ExactLog10) (portal : Portal) (inferencedTypes : List (Option DataType)) (i : Nat)
    (param : BoundParameter) (value : Option (List (Option Decimal)))
    (hread : param.read (.vec .decimal) .numericArray = .ok value)
    (htype : parameterPgType portal inferencedTypes i = .ok .numericArray) :
    (∃ v, parameterTurn libs portal inferencedTypes (param, i) = .ok [v] ∧
        BoundAsList libs value v) ↔
      ∀ ds, value = some ds → ArrayFits libs inferencedTypes[i]?.join ds := by
  rw [numericArrayTurn_eq hread htype]
  cases value with
  | none =>
    refine iff_of_true ⟨_, rfl, rfl⟩ ?_
    rintro ds ⟨⟩
  | some ds =>
    rw [bound_iff_kept hlibs, numericArray_kept_iff hlibs, elementsFit_iff hlog]
    constructor
    · rintro h _ ⟨⟩
      exact h
    · intro h
      exact h ds rfl

section Examples

/-- A NUMERIC array on the wire. -/
def BoundParameter.numerics (values : List (Option Decimal)) : BoundParameter where
  isNull := false
  read
    | .vec .decimal, _ => .ok (some values)
    | _, _ => .error (.apiError [.text "NUMERIC[] expected"])
  read_null t pgType := by
    cases t with
    | vec element => cases element <;> simp
    | _ => simp

/-- `1.5`, and `1.0` and `2.0`. -/
def oneAndHalf : Decimal := ⟨15, 1, by decide, by decide⟩
def one : Decimal := ⟨10, 1, by decide, by decide⟩
def two : Decimal := ⟨20, 1, by decide, by decide⟩

/-- `{1.0, NULL, 2.0}`, without an expected type. -/
theorem wholes_bound : ∃ v, parameterTurn referenceLibraries
      ⟨[.numerics [some one, none, some two]], [some .numericArray]⟩ [none]
      (.numerics [some one, none, some two], 0) = .ok [v] ∧
    BoundAsList referenceLibraries (some [some one, none, some two]) v := by
  apply (numericArray_bound_iff referenceLibraries referenceLibraries_documented
    referenceLibraries_exactLog10
    ⟨[.numerics [some one, none, some two]], [some .numericArray]⟩ [none] 0
    (.numerics [some one, none, some two]) _ rfl rfl).mpr
  rintro _ ⟨⟩
  refine ⟨by rintro field ⟨⟩, fun _ => ⟨Nat.succ_le_succ (Nat.zero_le _), ?_⟩⟩
  intro n hn
  rcases List.mem_cons.mp hn with heq | hn
  · cases heq
    exact .inr ⟨rfl, 1, by norm_num [Decimal.number, one]⟩
  · have heq : some n = some two := by simpa using hn
    cases heq
    exact .inr ⟨rfl, 2, by norm_num [Decimal.number, two]⟩

/-- `{1.5}` is bound as a whole number. -/
theorem oneAndHalf_not_bound : ¬ ∀ ds : List (Option Decimal), ∃ v,
    parameterTurn referenceLibraries ⟨[.numerics ds], [some .numericArray]⟩ [none]
      (.numerics ds, 0) = .ok [v] ∧ BoundAsList referenceLibraries (some ds) v := by
  intro h
  obtain ⟨v, hturn, hbound⟩ := h [some oneAndHalf]
  have harm : numericArrayParameter referenceLibraries (some [some oneAndHalf]) none = .ok [v] :=
    hturn
  have hkept := (bound_iff_kept referenceLibraries_documented _ none).mp ⟨v, harm, hbound⟩
  rw [numericArray_kept_iff referenceLibraries_documented,
    elementsFit_iff referenceLibraries_exactLog10] at hkept
  obtain ⟨-, hwhole⟩ := hkept.untyped (by rintro field ⟨⟩)
  rcases hwhole oneAndHalf (List.mem_singleton.mpr rfl) with hzero | ⟨-, n, hn⟩
  · exact absurd hzero (by decide)
  · have hmul := Decimal.mantissa_of_whole hn
    change n * 10 ^ 1 = 15 at hmul
    omega

end Examples
end DatafusionPostgres.ArrowPg
