import DatafusionPostgres.ArrowPg.ReferenceLibraries
import Mathlib.Data.List.Forall2

/-! Which value of the positional list belongs to which bound parameter. -/
namespace DatafusionPostgres.ArrowPg

/-- The types with an arm of their own in the loop. -/
def hasArm : PgType → Bool
  | .bool | .char | .int2 | .int4 | .int8 | .text | .varchar | .bytea | .float4 | .float8
  | .numeric | .timestamp | .timestamptz | .date | .time | .uuid | .json | .jsonb | .interval
  | .boolArray | .int2Array | .int4Array | .int8Array | .float4Array | .float8Array
  | .textArray | .varcharArray | .intervalArray | .numericArray
  | .money | .inet | .macaddr => true
  | _ => false

/-- A turn that pushes one value, NULL for a NULL parameter. -/
def PushesOne (isNull : Bool) (turn : Except Failure (List ScalarValue)) : Prop :=
  ∀ pushed, turn = .ok pushed → ∃ v, pushed = [v] ∧ (isNull = true → v.isNull = true)

theorem orErr_eq_ok {α : Type} {result : PgWireResult α} {a : α} :
    orErr result = .ok a ↔ result = .ok a := by
  cases result <;> simp [orErr, Except.mapError]

section Turn
variable {isNull : Bool} {libs : ParamLibraries}

private theorem pushesOne_return {v : ScalarValue} (h : isNull = true → v.isNull = true) :
    PushesOne isNull (pure [v]) := by
  intro pushed hp
  cases hp
  exact ⟨v, rfl, h⟩

private theorem pushesOne_bind {α : Type} {first : Except Failure α}
    {next : α → Except Failure (List ScalarValue)}
    (h : ∀ a, first = .ok a → PushesOne isNull (next a)) : PushesOne isNull (first >>= next) := by
  intro pushed hp
  cases hf : first with
  | error e =>
    rw [hf] at hp
    cases hp
  | ok a =>
    rw [hf] at hp
    exact h a hf pushed hp

private theorem pushesOne_error (e : Failure) : PushesOne isNull (.error e) := by
  intro pushed hp
  cases hp

private theorem pushesOne_read {param : BoundParameter} {t : ParamType} {pgType : PgType}
    {next : Option t.Value → Except Failure (List ScalarValue)}
    (h : ∀ value, (param.isNull = true → value = none) → PushesOne param.isNull (next value)) :
    PushesOne param.isNull (orErr (param.read t pgType) >>= next) := by
  apply pushesOne_bind
  intro value hvalue
  apply h
  intro hn
  have hread := (param.read_null t pgType).mpr hn
  rw [orErr_eq_ok, hread] at hvalue
  cases hvalue
  rfl

private theorem pushesOne_coerceOr {α : Type} {value : Option α}
    {inferencedType : Option DataType} (coerce : Option α → DataType → PgWireResult ScalarValue)
    (untyped : Option α → ScalarValue) (hvalue : isNull = true → value = none)
    (hcoerce : ∀ {target v}, coerce none target = .ok v → v.isNull = true)
    (huntyped : (untyped none).isNull = true) :
    PushesOne isNull (coerceOr inferencedType (coerce value) (untyped value)) := by
  cases inferencedType with
  | none =>
    apply pushesOne_return
    intro hn
    rw [hvalue hn, huntyped]
  | some target =>
    apply pushesOne_bind
    intro v hv
    apply pushesOne_return
    intro hn
    rw [orErr_eq_ok, hvalue hn] at hv
    exact hcoerce hv

private theorem coerceIntValue_null {target : DataType} {v : ScalarValue}
    (h : coerceIntValue none target = .ok v) : v.isNull = true := by
  unfold coerceIntValue at h
  split at h <;> cases h <;> rfl

private theorem coerceFloatValue_null {target : DataType} {v : ScalarValue}
    (h : coerceFloatValue none target = .ok v) : v.isNull = true := by
  unfold coerceFloatValue at h
  split at h <;> cases h <;> rfl

private theorem coerceTimestampValue_null {target : DataType} {v : ScalarValue}
    (h : coerceTimestampValue libs none target = .ok v) : v.isNull = true := by
  unfold coerceTimestampValue at h
  split at h <;> cases h <;> rfl

private theorem coerceTimestamptzValue_null {target : DataType} {v : ScalarValue}
    (h : coerceTimestamptzValue libs none target = .ok v) : v.isNull = true := by
  unfold coerceTimestamptzValue at h
  split at h <;> cases h <;> rfl

private theorem coerceIntervalValue_null {target : DataType} {v : ScalarValue}
    (h : coerceIntervalValue none target = .ok v) : v.isNull = true := by
  unfold coerceIntervalValue at h
  split at h <;> cases h <;> rfl

private theorem pushesOne_numeric {value : Option Decimal} (hv : isNull = true → value = none)
    (inferencedType : Option DataType) :
    PushesOne isNull (numericParameter libs value inferencedType) := by
  unfold numericParameter
  split
  case h_8 => exact pushesOne_error _
  all_goals
    apply pushesOne_return
    intro hn
    rw [hv hn]
    rfl

private theorem pushesOne_array {α : Type} {value : Option (List (Option α))}
    (hv : isNull = true → value = none) (scalar : Option α → ScalarValue)
    (elementType : DataType) : PushesOne isNull (arrayParameter libs value scalar elementType) := by
  cases value with
  | none => exact pushesOne_return fun _ => rfl
  | some values =>
    apply pushesOne_bind
    intro v _
    exact pushesOne_return fun hn => by cases hv hn

private theorem pushesOne_numericArray {value : Option (List (Option Decimal))}
    (hv : isNull = true → value = none) (inferencedType : Option DataType) :
    PushesOne isNull (numericArrayParameter libs value inferencedType) := by
  cases value with
  | none => exact pushesOne_return fun _ => rfl
  | some values =>
    have hnull : ∀ v : ScalarValue, isNull = true → v.isNull = true :=
      fun _ hn => by cases hv hn
    unfold numericArrayParameter
    dsimp only
    split
    · split
      all_goals
        apply pushesOne_bind
        intro v _
        exact pushesOne_return (hnull v)
    · apply pushesOne_bind
      intro v _
      exact pushesOne_return (hnull v)

private theorem pushesOne_textOrArray (value : String) :
    PushesOne false (textOrArray libs value) := by
  unfold textOrArray
  dsimp only
  split
  · apply pushesOne_bind
    intro v _
    exact pushesOne_return fun hn => by cases hn
  · exact pushesOne_return fun hn => by cases hn

private theorem pushesOne_scalar {α : Type} {value : Option α} {scalar : Option α → ScalarValue}
    (hv : isNull = true → value = none) (hscalar : (scalar none).isNull = true) :
    PushesOne isNull (pure [scalar value]) :=
  pushesOne_return fun hn => by rw [hv hn, hscalar]

/-- Each arm of its own pushes exactly one value. -/
theorem deserializeParameter_pushesOne (param : BoundParameter) {pgType : PgType}
    (harm : hasArm pgType = true) (inferencedType : Option DataType) :
    PushesOne param.isNull (deserializeParameter libs param pgType inferencedType) := by
  cases pgType with
  | bool => exact pushesOne_read fun value hv => pushesOne_scalar hv rfl
  | char => exact pushesOne_read fun value hv => pushesOne_scalar hv rfl
  | int2 =>
    apply pushesOne_read
    intro value hv
    exact pushesOne_coerceOr (fun value => coerceIntValue (value.map Int16.toInt64))
      .int16 hv coerceIntValue_null rfl
  | int4 =>
    apply pushesOne_read
    intro value hv
    exact pushesOne_coerceOr (fun value => coerceIntValue (value.map Int32.toInt64))
      .int32 hv coerceIntValue_null rfl
  | int8 =>
    apply pushesOne_read
    intro value hv
    exact pushesOne_coerceOr coerceIntValue .int64 hv coerceIntValue_null rfl
  | float4 =>
    apply pushesOne_read
    intro value hv
    exact pushesOne_coerceOr (fun value => coerceFloatValue (value.map Float32.toFloat))
      .float32 hv coerceFloatValue_null rfl
  | float8 =>
    apply pushesOne_read
    intro value hv
    exact pushesOne_coerceOr coerceFloatValue .float64 hv coerceFloatValue_null rfl
  | timestamp =>
    apply pushesOne_read
    intro value hv
    exact pushesOne_coerceOr (coerceTimestampValue libs)
      (fun value => .timestampMicrosecond (value.map libs.timestampMicros) none) hv
      coerceTimestampValue_null rfl
  | timestamptz =>
    apply pushesOne_read
    intro value hv
    exact pushesOne_coerceOr (coerceTimestamptzValue libs)
      (fun value => .timestampMicrosecond (value.map (libs.timestampMicros ·.utc)) none) hv
      coerceTimestamptzValue_null rfl
  | interval =>
    apply pushesOne_read
    intro value hv
    exact pushesOne_coerceOr coerceIntervalValue untypedInterval hv coerceIntervalValue_null rfl
  | text =>
    apply pushesOne_read
    intro value hv
    split <;> exact pushesOne_scalar hv rfl
  | varchar =>
    apply pushesOne_read
    intro value hv
    split <;> exact pushesOne_scalar hv rfl
  | bytea => exact pushesOne_read fun value hv => pushesOne_scalar hv rfl
  | date =>
    apply pushesOne_read
    intro value hv
    exact pushesOne_return fun hn => by rw [hv hn]; rfl
  | uuid => exact pushesOne_read fun value hv => pushesOne_scalar hv rfl
  | json => exact pushesOne_read fun value hv => pushesOne_scalar hv rfl
  | jsonb => exact pushesOne_read fun value hv => pushesOne_scalar hv rfl
  | money => exact pushesOne_read fun value hv => pushesOne_scalar hv rfl
  | inet => exact pushesOne_read fun value hv => pushesOne_scalar hv rfl
  | macaddr => exact pushesOne_read fun value hv => pushesOne_scalar hv rfl
  | time =>
    apply pushesOne_read
    intro value hv
    apply pushesOne_return
    intro hn
    rw [hv hn]
    unfold timeParameter
    split <;> rfl
  | numeric => exact pushesOne_read fun value hv => pushesOne_numeric hv inferencedType
  | boolArray => exact pushesOne_read fun value hv => pushesOne_array hv _ _
  | int2Array => exact pushesOne_read fun value hv => pushesOne_array hv _ _
  | int4Array => exact pushesOne_read fun value hv => pushesOne_array hv _ _
  | int8Array => exact pushesOne_read fun value hv => pushesOne_array hv _ _
  | float4Array => exact pushesOne_read fun value hv => pushesOne_array hv _ _
  | float8Array => exact pushesOne_read fun value hv => pushesOne_array hv _ _
  | textArray => exact pushesOne_read fun value hv => pushesOne_array hv _ _
  | varcharArray => exact pushesOne_read fun value hv => pushesOne_array hv _ _
  | intervalArray => exact pushesOne_read fun value hv => pushesOne_array hv _ _
  | numericArray => exact pushesOne_read fun value hv => pushesOne_numericArray hv inferencedType
  | _ => cases harm

/-- The arm for every other type pushes nothing for a NULL. -/
theorem deserializeParameter_of_no_arm {param : BoundParameter} {pgType : PgType}
    (harm : hasArm pgType = false) {inferencedType : Option DataType} {pushed : List ScalarValue}
    (h : deserializeParameter libs param pgType inferencedType = .ok pushed) :
    if param.isNull then pushed = [] else ∃ v, pushed = [v] := by
  have hfall : deserializeParameter libs param pgType inferencedType = (do
      let value ← orErr (param.read .string pgType)
      value.elim (pure []) (textOrArray libs)) := by
    cases pgType <;> first
      | (unfold deserializeParameter; refine bind_congr ?_; rintro (_ | _) <;> rfl)
      | cases harm
  rw [hfall] at h
  cases hread : param.read .string pgType with
  | error e =>
    rw [hread] at h
    cases h
  | ok value =>
    rw [hread] at h
    cases value with
    | none =>
      rw [if_pos ((param.read_null .string pgType).mp hread)]
      cases h
      rfl
    | some value =>
      have hn : param.isNull = false := by
        rw [← Bool.not_eq_true, ← param.read_null .string pgType, hread]
        simp
      obtain ⟨v, hp, _⟩ := pushesOne_textOrArray value pushed h
      rw [hn]
      exact ⟨v, hp⟩

end Turn

section Loop
variable {ε α β : Type} {turn : β → Except ε (List α)}

private theorem foldlM_push {bs : List β} {acc vs : List α}
    (h : bs.foldlM (fun acc b => do let pushed ← turn b; return acc ++ pushed) acc = .ok vs) :
    ∃ parts, List.Forall₂ (fun b part => turn b = .ok part) bs parts ∧
      vs = acc ++ parts.flatten := by
  induction bs generalizing acc with
  | nil =>
    cases h
    exact ⟨[], .nil, by simp⟩
  | cons b bs ih =>
    rw [List.foldlM_cons] at h
    cases hb : turn b with
    | error e =>
      rw [hb] at h
      cases h
    | ok part =>
      rw [hb] at h
      obtain ⟨parts, hparts, hvs⟩ := ih h
      exact ⟨part :: parts, .cons hb hparts, by rw [hvs, List.flatten_cons, List.append_assoc]⟩

private theorem flatten_singletons {bs : List β} {parts : List (List α)}
    (h : List.Forall₂ (fun b part => turn b = .ok part) bs parts)
    (hone : ∀ b ∈ bs, ∀ part, turn b = .ok part → ∃ v, part = [v]) :
    List.Forall₂ (fun b v => turn b = .ok [v]) bs parts.flatten := by
  induction h with
  | nil => exact .nil
  | @cons b part bs parts hb _ ih =>
    obtain ⟨v, rfl⟩ := hone b List.mem_cons_self part hb
    exact .cons hb (ih fun b' hb' => hone b' (List.mem_cons_of_mem _ hb'))

end Loop

/-- The portal with one of the parameters only, and its own hint. -/
def Portal.only (portal : Portal) (param : BoundParameter) (i : Nat) : Portal :=
  ⟨[param], [portal.parameterTypes[i]?.join]⟩

section Alignment
variable (libs : ParamLibraries) (portal : Portal) (inferencedTypes : List (Option DataType))

/-- As many values as parameters; the value at a position is the one its parameter gives
alone, and is NULL for a NULL. -/
def Aligned (values : List ScalarValue) : Prop :=
  values.length = portal.parameters.length ∧
    ∀ i param, portal.parameters[i]? = some param →
      ∃ v, values[i]? = some v ∧
        deserializeParameters libs (portal.only param i) [inferencedTypes[i]?.join] = .ok [v] ∧
        (param.isNull = true → v.isNull = true)

/-- No NULL has a type, given or inferred, without an arm of its own. -/
def NullsHaveArms : Prop :=
  ∀ i param pgType, portal.parameters[i]? = some param → param.isNull = true →
    parameterPgType portal inferencedTypes i = .ok pgType → hasArm pgType = true

variable {libs portal inferencedTypes}

private theorem deserializeParameters_only (param : BoundParameter) (i : Nat) :
    deserializeParameters libs (portal.only param i) [inferencedTypes[i]?.join] =
      parameterTurn libs portal inferencedTypes (param, i) := by
  have hturn : parameterTurn libs (portal.only param i) [inferencedTypes[i]?.join] (param, 0) =
      parameterTurn libs portal inferencedTypes (param, i) := rfl
  rw [← hturn]
  change (parameterTurn libs (portal.only param i) [inferencedTypes[i]?.join] (param, 0) >>=
    fun pushed => pure ([] ++ pushed)) >>= pure = _
  simp

private theorem parameterTurn_cases {param : BoundParameter} {i : Nat} {pushed : List ScalarValue}
    (h : parameterTurn libs portal inferencedTypes (param, i) = .ok pushed) :
    ∃ pgType, parameterPgType portal inferencedTypes i = .ok pgType ∧
      deserializeParameter libs param pgType inferencedTypes[i]?.join = .ok pushed := by
  simp only [parameterTurn] at h
  cases hty : parameterPgType portal inferencedTypes i with
  | error e =>
    rw [hty] at h
    cases h
  | ok pgType =>
    rw [hty] at h
    exact ⟨pgType, rfl, h⟩

private theorem parameterTurn_one (harms : NullsHaveArms portal inferencedTypes)
    {param : BoundParameter} {i : Nat} (hparam : portal.parameters[i]? = some param)
    {pushed : List ScalarValue}
    (h : parameterTurn libs portal inferencedTypes (param, i) = .ok pushed) :
    ∃ v, pushed = [v] ∧ (param.isNull = true → v.isNull = true) := by
  obtain ⟨pgType, hty, hturn⟩ := parameterTurn_cases h
  cases harm : hasArm pgType with
  | true => exact deserializeParameter_pushesOne param harm _ pushed hturn
  | false =>
    have hn : param.isNull = false := by
      by_contra hn
      rw [harms i param pgType hparam (by simpa using hn) hty] at harm
      cases harm
    have hpushed := deserializeParameter_of_no_arm harm hturn
    rw [hn] at hpushed
    obtain ⟨v, hv⟩ := hpushed
    exact ⟨v, hv, fun hnull => by rw [hn] at hnull; cases hnull⟩

/-- What the loop returns is aligned exactly when no NULL falls to the last arm. -/
theorem deserializeParameters_aligned_iff {values : List ScalarValue}
    (h : deserializeParameters libs portal inferencedTypes = .ok values) :
    Aligned libs portal inferencedTypes values ↔ NullsHaveArms portal inferencedTypes := by
  constructor
  · rintro ⟨_, halign⟩ i param pgType hparam hnull hty
    obtain ⟨v, _, honly, _⟩ := halign i param hparam
    rw [deserializeParameters_only] at honly
    obtain ⟨pgType', hty', hturn⟩ := parameterTurn_cases honly
    rw [hty] at hty'
    cases hty'
    by_contra harm
    have hpushed := deserializeParameter_of_no_arm (by simpa using harm) hturn
    rw [hnull] at hpushed
    cases hpushed
  · intro harms
    obtain ⟨parts, hparts, hvalues⟩ := foldlM_push h
    rw [List.nil_append] at hvalues
    have hall := flatten_singletons hparts fun b hb part hpart => by
      obtain ⟨v, hv, _⟩ := parameterTurn_one harms (List.mem_zipIdx_iff_getElem?.mp hb) hpart
      exact ⟨v, hv⟩
    rw [← hvalues] at hall
    refine ⟨by rw [← hall.length_eq, List.length_zipIdx], fun i param hparam => ?_⟩
    have hlt : i < values.length := by
      rw [← hall.length_eq, List.length_zipIdx]
      exact (List.getElem?_eq_some_iff.mp hparam).1
    have hturn : parameterTurn libs portal inferencedTypes (param, i) = .ok [values[i]] := by
      have hget := hall.get (by rw [hall.length_eq]; exact hlt) hlt
      obtain ⟨hi, hparam⟩ := List.getElem?_eq_some_iff.mp hparam
      simpa [hparam] using hget
    refine ⟨values[i], List.getElem?_eq_getElem hlt, ?_, ?_⟩
    · rw [deserializeParameters_only, hturn]
    · obtain ⟨v, hv, hnull⟩ := parameterTurn_one harms hparam hturn
      cases hv
      exact hnull

end Alignment

/-- A NULL whose type is known, before a text. -/
def typedNullFirst : Portal := ⟨[.null, .text "b"], [some .int4, some .text]⟩

theorem typedNullFirst_aligned :
    Aligned referenceLibraries typedNullFirst [] [.int32 none, .utf8 (some "b")] := by
  apply (deserializeParameters_aligned_iff rfl).mpr
  intro i param pgType hparam _ hty
  match i with
  | 0 =>
    cases hty
    rfl
  | 1 =>
    cases hty
    rfl
  | i + 2 => cases hparam

/-- The same NULL without any type, from the client or inferred. -/
def untypedNullFirst : Portal := ⟨[.null, .text "b"], [none, some .text]⟩

/-- The text is returned as the first value, and there is no second one. -/
theorem untypedNullFirst_not_aligned :
    ¬ ∀ values, deserializeParameters referenceLibraries untypedNullFirst [none, some .utf8] =
        .ok values →
      Aligned referenceLibraries untypedNullFirst [none, some .utf8] values := by
  intro h
  have hshifted := h [.utf8 (some "b")] rfl
  exact absurd hshifted.1 (by decide)

end DatafusionPostgres.ArrowPg
