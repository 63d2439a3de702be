import DatafusionPostgres.ArrowPg.Parameters

/-! Which SQLSTATE codes the type mapping and the conversion of parameters raise. -/
namespace DatafusionPostgres.ArrowPg

/-- The SQLSTATE of an error that has one. -/
def PgWireError.code : PgWireError → Option String
  | .userError info => some info.code
  | _ => none

/-- Each error of the result satisfies `P`. -/
def FailsWithin {α : Type} (P : PgWireError → Prop) (result : PgWireResult α) : Prop :=
  ∀ e, result = .error e → P e

namespace FailsWithin
variable {α β : Type} {P Q : PgWireError → Prop}

theorem ok (a : α) : FailsWithin P (.ok a : PgWireResult α) := by
  intro e h
  cases h

theorem error {e : PgWireError} (h : P e) : FailsWithin P (.error e : PgWireResult α) := by
  intro e' h'
  cases h'
  exact h

theorem bind {first : PgWireResult α} {next : α → PgWireResult β} (hfirst : FailsWithin P first)
    (hnext : ∀ a, FailsWithin P (next a)) : FailsWithin P (first >>= next) := by
  cases first with
  | ok a => exact hnext a
  | error e => exact error (hfirst e rfl)

theorem mono {result : PgWireResult α} (h : FailsWithin P result) (hPQ : ∀ e, P e → Q e) :
    FailsWithin Q result := fun e he => hPQ e (h e he)

theorem optionMapM {f : α → PgWireResult β} (hf : ∀ a, FailsWithin P (f a)) (value : Option α) :
    FailsWithin P (value.mapM f) := by
  cases value with
  | none => exact ok none
  | some a =>
    change FailsWithin P (some <$> f a)
    rw [map_eq_pure_bind]
    exact (hf a).bind fun b => ok (some b)

theorem listMapM {f : α → PgWireResult β} (hf : ∀ a, FailsWithin P (f a)) (as : List α) :
    FailsWithin P (as.mapM f) := by
  induction as with
  | nil => exact ok []
  | cons a as ih =>
    rw [List.mapM_cons]
    exact (hf a).bind fun b => ih.bind fun bs => ok (b :: bs)

end FailsWithin

/-- `XX000`, the code of every type that has no Postgres counterpart. -/
def UnsupportedType (e : PgWireError) : Prop := e.code = some "XX000"

private theorem unsupportedListDatatype_code (t : DataType) :
    UnsupportedType (unsupportedListDatatype t) := rfl

private theorem unsupportedDatatype_code (t : DataType) : UnsupportedType (unsupportedDatatype t) :=
  rfl

theorem listPgType_unsupported (elementType : DataType) {member : PgWireResult PgType}
    (h : FailsWithin UnsupportedType member) :
    FailsWithin UnsupportedType (listPgType elementType member) := by
  unfold listPgType
  split
  case h_29 => exact h.bind fun _ => .ok _
  case h_30 => exact .error (unsupportedListDatatype_code _)
  all_goals first | exact .ok _ | (split <;> exact .ok _)

mutual
theorem intoPgType_unsupported : ∀ arrowType, FailsWithin UnsupportedType (intoPgType arrowType)
  | .list field | .fixedSizeList field _ | .largeList field | .listView field
  | .largeListView field => by
    rw [intoPgType]
    exact listPgType_unsupported _ (fieldIntoPgType_unsupported field)
  | .dictionary _ valueType => by
    rw [intoPgType]
    exact intoPgType_unsupported valueType
  | .struct fields => by
    rw [intoPgType]
    exact (compositeFields_unsupported fields).bind fun _ => .ok _
  | .timestamp _ tz => by
    rw [intoPgType]
    split <;> exact .ok _
  | .null | .boolean | .int8 | .int16 | .int32 | .int64 | .uint8 | .uint16 | .uint32 | .uint64
  | .float16 | .float32 | .float64 | .date32 | .date64 | .time32 _ | .time64 _ | .duration _
  | .interval _ | .binary | .largeBinary | .binaryView | .fixedSizeBinary _ | .utf8 | .largeUtf8
  | .utf8View | .decimal128 _ _ => .ok _
  | .union _ _ | .decimal32 _ _ | .decimal64 _ _ | .decimal256 _ _ | .map _ _
  | .runEndEncoded _ _ => .error (unsupportedDatatype_code _)

theorem fieldIntoPgType_unsupported : ∀ field, FailsWithin UnsupportedType (fieldIntoPgType field)
  | ⟨name, arrowType, nullable, metadata⟩ => by
    rw [fieldIntoPgType]
    split
    · exact .ok _
    · exact intoPgType_unsupported arrowType

theorem compositeFields_unsupported :
    ∀ fields, FailsWithin UnsupportedType (compositeFields fields)
  | [] => .ok _
  | field :: fields => by
    rw [compositeFields]
    exact (fieldIntoPgType_unsupported field).bind fun _ =>
      (compositeFields_unsupported fields).bind fun _ => .ok _
end

/-- Each returned error satisfies `P`; nothing is said of a panic. -/
def Raises {α : Type} (P : PgWireError → Prop) (turn : Except Failure α) : Prop :=
  ∀ e, turn = .error (.err e) → P e

namespace Raises
variable {α β : Type} {P : PgWireError → Prop}

theorem ok (a : α) : Raises P (.ok a : Except Failure α) := by
  intro e h
  cases h

theorem error {e : PgWireError} (h : P e) : Raises P (.error (.err e) : Except Failure α) := by
  intro e' h'
  cases h'
  exact h

theorem bind {first : Except Failure α} {next : α → Except Failure β} (hfirst : Raises P first)
    (hnext : ∀ a, Raises P (next a)) : Raises P (first >>= next) := by
  cases first with
  | ok a => exact hnext a
  | error failure =>
    intro e h
    cases failure with
    | panic => cases h
    | err e' =>
      cases h
      exact hfirst e rfl

theorem orErr {result : PgWireResult α} (h : FailsWithin P result) :
    Raises P (ArrowPg.orErr result) := by
  cases result with
  | ok a => exact ok a
  | error e => exact error (h e rfl)

theorem foldlM {step : β → α → Except Failure β} {as : List α} (b : β)
    (h : ∀ b, ∀ a ∈ as, Raises P (step b a)) : Raises P (as.foldlM step b) := by
  induction as generalizing b with
  | nil => exact ok b
  | cons a as ih =>
    rw [List.foldlM_cons]
    exact (h b a List.mem_cons_self).bind fun b' =>
      ih b' fun b a' ha' => h b a' (List.mem_cons_of_mem _ ha')

end Raises

/-- Errors of the conversion itself, of the type mapping, and of list building. -/
structure ConversionErrors (libs : ParamLibraries) (P : PgWireError → Prop) : Prop where
  parameter : ∀ message, P (invalidParameterError message)
  type : ∀ e, UnsupportedType e → P e
  list : ∀ values elementType, Raises P (libs.newListNullable values elementType)

namespace ConversionErrors
variable {libs : ParamLibraries} {P : PgWireError → Prop}

private theorem outOfRange {τ : Type} (h : ConversionErrors libs P) (source : String)
    (value : Int64) (target : DataType) (converted : Option τ) :
    FailsWithin P (orOutOfRange source value target converted) := by
  cases converted with
  | some t => exact .ok t
  | none => exact .error (h.parameter _)

private theorem intCast {τ : Type} (h : ConversionErrors libs P) (tryFrom : Int64 → Option τ)
    (target : DataType) (value : Option Int64) :
    FailsWithin P (value.mapM (checkedIntCast tryFrom target)) :=
  .optionMapM (fun n => h.outOfRange "INT" n target (tryFrom n)) value

private theorem floatCast {τ : Type} (h : ConversionErrors libs P) (tryFrom : Int64 → Option τ)
    (target : DataType) (value : Option Float) :
    FailsWithin P (value.mapM (checkedFloatCast tryFrom target)) := by
  apply FailsWithin.optionMapM
  intro f
  unfold checkedFloatCast
  split
  · exact .error (h.parameter _)
  · dsimp only
    split
    · exact .error (h.parameter _)
    · exact h.outOfRange _ _ _ _

private theorem coerceInt (h : ConversionErrors libs P) (value : Option Int64)
    (target : DataType) : FailsWithin P (coerceIntValue value target) := by
  unfold coerceIntValue
  split
  all_goals first
    | exact .ok _
    | exact (h.intCast _ _ _).bind fun _ => .ok _
    | exact .error (h.parameter _)

private theorem coerceFloat (h : ConversionErrors libs P) (value : Option Float)
    (target : DataType) : FailsWithin P (coerceFloatValue value target) := by
  unfold coerceFloatValue
  split
  all_goals first
    | exact .ok _
    | exact (h.floatCast _ _ _).bind fun _ => .ok _
    | exact .error (h.parameter _)

private theorem coerceTimestamp (h : ConversionErrors libs P) (value : Option NaiveDateTime)
    (target : DataType) : FailsWithin P (coerceTimestampValue libs value target) := by
  unfold coerceTimestampValue
  split
  all_goals first | exact .ok _ | exact .error (h.parameter _)

private theorem coerceTimestamptz (h : ConversionErrors libs P) (value : Option DateTime)
    (target : DataType) : FailsWithin P (coerceTimestamptzValue libs value target) := by
  unfold coerceTimestamptzValue
  split
  all_goals first | exact .ok _ | exact .error (h.parameter _)

private theorem coerceInterval (h : ConversionErrors libs P) (value : Option Interval)
    (target : DataType) : FailsWithin P (coerceIntervalValue value target) := by
  unfold coerceIntervalValue
  split
  · cases value with
    | none => exact .ok _
    | some i =>
      dsimp only
      split
      · exact .error (h.parameter _)
      · exact .ok _
  · cases value with
    | none => exact .ok _
    | some i =>
      dsimp only
      split
      · exact .error (h.parameter _)
      · split
        · exact .error (h.parameter _)
        · exact .ok _
  · cases value <;> exact .ok _
  · cases value <;> exact .ok _
  · exact .error (h.parameter _)

private theorem coerced {coerce : DataType → PgWireResult ScalarValue}
    (hcoerce : ∀ target, FailsWithin P (coerce target)) (inferencedType : Option DataType)
    (untyped : ScalarValue) : Raises P (coerceOr inferencedType coerce untyped) := by
  cases inferencedType with
  | none => exact .ok _
  | some target => exact (Raises.orErr (hcoerce target)).bind fun _ => .ok _

private theorem built (h : ConversionErrors libs P) (values : List ScalarValue)
    (elementType : DataType) :
    Raises P (do return [← libs.newListNullable values elementType]) :=
  (h.list values elementType).bind fun _ => .ok _

private theorem array {α : Type} (h : ConversionErrors libs P) (value : Option (List (Option α)))
    (scalar : Option α → ScalarValue) (elementType : DataType) :
    Raises P (arrayParameter libs value scalar elementType) := by
  cases value with
  | none => exact .ok _
  | some values => exact h.built _ _

private theorem numeric (h : ConversionErrors libs P) (value : Option Decimal)
    (inferencedType : Option DataType) :
    Raises P (numericParameter libs value inferencedType) := by
  unfold numericParameter
  split
  all_goals first | exact .ok _ | exact .error (h.parameter _)

private theorem numericArray (h : ConversionErrors libs P) (value : Option (List (Option Decimal)))
    (inferencedType : Option DataType) :
    Raises P (numericArrayParameter libs value inferencedType) := by
  cases value with
  | none => exact .ok _
  | some values =>
    unfold numericArrayParameter
    dsimp only
    split
    · split <;> exact h.built _ _
    · exact h.built _ _

private theorem text (h : ConversionErrors libs P) (value : String) :
    Raises P (textOrArray libs value) := by
  unfold textOrArray
  dsimp only
  split
  · exact h.built _ _
  · exact .ok _

private theorem turn (h : ConversionErrors libs P) {param : BoundParameter}
    (hread : ∀ t pgType, FailsWithin P (param.read t pgType)) (pgType : PgType)
    (inferencedType : Option DataType) :
    Raises P (deserializeParameter libs param pgType inferencedType) := by
  unfold deserializeParameter
  split
  all_goals
    apply (Raises.orErr (hread _ _)).bind
    intro value
    first
      | exact .ok _
      | exact coerced (h.coerceInt _) _ _
      | exact coerced (h.coerceFloat _) _ _
      | exact coerced (h.coerceTimestamp _) _ _
      | exact coerced (h.coerceTimestamptz _) _ _
      | exact coerced (h.coerceInterval _) _ _
      | exact h.numeric _ _
      | exact h.array _ _ _
      | exact h.numericArray _ _
      | (split <;> first | exact .ok _ | exact h.text _)

/-- An error of `deserialize_parameters` is one of the conversion or of a read. -/
theorem deserializeParameters (h : ConversionErrors libs P) {portal : Portal}
    (hread : ∀ param ∈ portal.parameters, ∀ t pgType, FailsWithin P (param.read t pgType))
    (inferencedTypes : List (Option DataType)) :
    Raises P (deserializeParameters libs portal inferencedTypes) := by
  apply Raises.foldlM
  rintro values ⟨param, i⟩ hparam
  have hmem : param ∈ portal.parameters :=
    List.mem_of_getElem? (List.mem_zipIdx_iff_getElem?.mp hparam)
  have htype : FailsWithin P (parameterPgType portal inferencedTypes i) := by
    unfold parameterPgType getPgType
    split
    · exact .ok _
    · split
      · exact (intoPgType_unsupported _).mono h.type
      · exact .ok _
  have hturn : Raises P (parameterTurn libs portal inferencedTypes (param, i)) :=
    (Raises.orErr htype).bind fun pgType => h.turn (hread param hmem) pgType _
  exact hturn.bind fun _ => .ok _

end ConversionErrors
end DatafusionPostgres.ArrowPg
