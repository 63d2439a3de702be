import DatafusionPostgres.Library.Success
import Mathlib.Data.Fin.VecNotation
import Mathlib.Data.List.FinRange
import Mathlib.Data.Rat.Floor

/-! `datafusion-pg-functions/src/numeric/width_bucket.rs`, over any numbers in the place of the
floats: which batches are evaluated as their rows are one at a time. -/
namespace DatafusionPostgres.PgFunctions
open Library

/-- What is used of `f64` and `f32`. -/
structure Floats where
  F64 : Type
  F32 : Type
  nan : F64
  isNan : F64 → Bool
  lt : F64 → F64 → Bool
  ge : F64 → F64 → Bool
  sub : F64 → F64 → F64
  div : F64 → F64 → F64
  floor : F64 → F64
  ofF32 : F32 → F64
  /-- `as f64`. -/
  ofI64 : Int64 → F64
  /-- `as i64`, which saturates. -/
  toI64 : F64 → Int64

inductive ArrayType where
  | float64 | float32 | int64 | int32 | int16 | int8 | listOfFloat64
  deriving DecidableEq, Repr

/-- A column of `n` rows, none for NULL, of a type that the functions know. -/
inductive ArrayRef (F : Floats) (n : Nat) where
  | float64 (rows : Fin n → Option F.F64)
  | float32 (rows : Fin n → Option F.F32)
  | int64 (rows : Fin n → Option Int64)
  | int32 (rows : Fin n → Option Int32)
  | int16 (rows : Fin n → Option Int16)
  | int8 (rows : Fin n → Option Int8)
  | list (rows : Fin n → Option (List (Option F.F64)))

inductive MessagePart (F : Floats) where
  | text (s : String)
  | type (type : ArrayType)
  | float (x : F.F64)
  | number (n : Nat)

/-- What ends a call without a result: an error of `exec_err!`, or a panic. -/
inductive CallFailure (F : Floats) where
  | exec (message : List (MessagePart F))
  | panic

variable {F : Floats} {n : Nat}

namespace ArrayRef

def dataType : ArrayRef F n → ArrayType
  | float64 _ => .float64
  | float32 _ => .float32
  | int64 _ => .int64
  | int32 _ => .int32
  | int16 _ => .int16
  | int8 _ => .int8
  | list _ => .listOfFloat64

/-- The column of one row that holds what row `i` does. -/
def row (i : Fin n) : ArrayRef F n → ArrayRef F 1
  | float64 rows => float64 fun _ => rows i
  | float32 rows => float32 fun _ => rows i
  | int64 rows => int64 fun _ => rows i
  | int32 rows => int32 fun _ => rows i
  | int16 rows => int16 fun _ => rows i
  | int8 rows => int8 fun _ => rows i
  | list rows => list fun _ => rows i

end ArrayRef

/-- Row 0, in a batch that has row `i`. -/
def firstRow (i : Fin n) : Fin n := ⟨0, i.pos⟩

/-- `iter().next().flatten()`. -/
def nextFlatten {α : Type} (rows : Fin n → Option α) : Option α :=
  if h : 0 < n then rows ⟨0, h⟩ else none

def scalarF64 (arr : ArrayRef F n) (i : Fin n) : Option F.F64 :=
  match arr with
  | .float64 rows => rows i
  | .float32 rows => (rows i).map F.ofF32
  | .int64 rows => (rows i).map F.ofI64
  | .int32 rows => (rows i).map fun v => F.ofI64 v.toInt64
  | .int16 rows => (rows i).map fun v => F.ofI64 v.toInt64
  | .int8 rows => (rows i).map fun v => F.ofI64 v.toInt64
  | .list _ => none

/-- The increments wrap, as they do in the release profile. -/
def equalWidthBucketF64 (op low high : F.F64) (count : Int64) : Int64 :=
  if F.isNan op then 0
  else if F.lt op low then 0
  else if F.ge op high then count + 1
  else
    let step := F.div (F.sub high low) (F.ofI64 count)
    let b := F.toI64 (F.floor (F.div (F.sub op low) step)) + 1
    if b < 1 then 1 else if count < b then count else b

/-- The first entry of the count column. -/
def firstCount (count : ArrayRef F n) : Except (CallFailure F) (Option Int64) :=
  match count with
  | .int32 rows => .ok ((nextFlatten rows).map Int32.toInt64)
  | .int64 rows => .ok (nextFlatten rows)
  | other => .error (.exec [.text "width_bucket count must be int4/int8, got ", .type other.dataType])

/-- One turn of the loop: the operand of the row, and the bounds of row 0. -/
def equalWidthTurn (operand low high : ArrayRef F n) (count : Int64) (i : Fin n) :
    Except (CallFailure F) (Option Int32) :=
  match scalarF64 operand i, scalarF64 low (firstRow i), scalarF64 high (firstRow i) with
  | some op, some lo, some hi =>
    if F.ge lo hi then
      .error (.exec [.text "width_bucket requires low < high, got low=", .float lo,
        .text ", high=", .float hi])
    else .ok (some (equalWidthBucketF64 op lo hi count).toInt32)
  | _, _, _ => .ok none

def equalWidthForm (operand low high count : ArrayRef F n) :
    Except (CallFailure F) (List (Option Int32)) := do
  if operand.dataType ≠ low.dataType ∨ operand.dataType ≠ high.dataType then
    throw (.exec [.text "width_bucket requires operand/low/high to share a type; got ",
      .type operand.dataType, .text "/", .type low.dataType, .text "/", .type high.dataType])
  match ← firstCount count with
  | none => throw (.exec [.text "width_bucket count must be a positive integer"])
  | some count =>
    if count ≤ 0 then throw (.exec [.text "width_bucket count must be a positive integer"])
    (List.finRange n).mapM (equalWidthTurn operand low high count)

/-- Of one row only. `as_list` panics on a column of another type. -/
def asF64List (arr : ArrayRef F n) : Except (CallFailure F) (Option (List F.F64)) :=
  match arr with
  | .list rows =>
    if n ≠ 1 then .ok none
    else .ok ((nextFlatten rows).map fun row => row.map fun v => v.getD F.nan)
  | _ => .error .panic

def thresholdsTurn (operand : ArrayRef F n) (thresholdsList : List F.F64) (i : Fin n) :
    Option Int32 :=
  (scalarF64 operand i).map fun op =>
    if F.isNan op then 0 else .ofNat (thresholdsList.filter (F.ge op)).length

def thresholdsForm (operand thresholds : ArrayRef F n) :
    Except (CallFailure F) (List (Option Int32)) := do
  match ← asF64List thresholds with
  | none =>
    throw (.exec [.text "width_bucket thresholds must be a sorted list of f64, got ",
      .type thresholds.dataType])
  | some thresholdsList => return (List.finRange n).map (thresholdsTurn operand thresholdsList)

/-- The arguments are columns of one length: a constant is one that repeats it. -/
def invokeWithArgs (args : List (ArrayRef F n)) : Except (CallFailure F) (List (Option Int32)) :=
  match args with
  | [operand, low, high, count] => equalWidthForm operand low high count
  | [operand, thresholds] => thresholdsForm operand thresholds
  | args => .error (.exec [.text "width_bucket expects 2 or 4 arguments, got ",
      .number args.length])

/-- Any result has a row for each row of the batch, and there is one exactly where each row has
one alone; it is then what the rows alone give. -/
structure RowWise (args : List (ArrayRef F n)) : Prop where
  length : ∀ rows, invokeWithArgs args = .ok rows → rows.length = n
  single : ∀ rows : Fin n → Option Int32, invokeWithArgs args = .ok (List.ofFn rows) ↔
    ∀ i, invokeWithArgs (args.map (ArrayRef.row i)) = .ok [rows i]

section Condition
variable (operand low high count : ArrayRef F n)

def countAt (i : Fin n) : Option Int64 :=
  match count with
  | .int32 rows => (rows i).map Int32.toInt64
  | .int64 rows => rows i
  | _ => none

/-- With the low, high and count of row `j` the operand of row `i` is an error. -/
def Refused (i j : Fin n) : Prop :=
  (∀ c, countAt count j = some c → c ≤ 0) ∨
    ∃ op lo hi, scalarF64 operand i = some op ∧ scalarF64 low j = some lo ∧
      scalarF64 high j = some hi ∧ F.ge lo hi = true

/-- With the low, high and count of row `j` the operand of row `i` is NULL. -/
def NullWith (i j : Fin n) : Prop :=
  scalarF64 operand i = none ∨ scalarF64 low j = none ∨ scalarF64 high j = none

/-- The operand of row `i` has one bucket, or none, with its own low, high and count and those
of row 0. -/
def SameBucket (i : Fin n) : Prop :=
  (NullWith operand low high i (firstRow i) ↔ NullWith operand low high i i) ∧
    ∀ op lo hi c lo' hi' c', scalarF64 operand i = some op →
      scalarF64 low i = some lo → scalarF64 high i = some hi → countAt count i = some c →
      scalarF64 low (firstRow i) = some lo' → scalarF64 high (firstRow i) = some hi' →
      countAt count (firstRow i) = some c' →
      (equalWidthBucketF64 op lo hi c).toInt32 = (equalWidthBucketF64 op lo' hi' c').toInt32

/-- The low, high and count of row 0 serve all rows, or refuse some row of a batch in which some
row is refused by its own. -/
def FirstServes : Prop :=
  (∀ i, ¬ Refused operand low high count i (firstRow i) ∧ ¬ Refused operand low high count i i ∧
      SameBucket operand low high count i) ∨
    (∃ i, Refused operand low high count i (firstRow i)) ∧ ∃ i, Refused operand low high count i i

end Condition

/-- The batch has a row, and row 0 serves all; of thresholds there is one row, or one is NULL. -/
def ServedByFirst : List (ArrayRef F n) → Prop
  | [operand, low, high, count] => 0 < n ∧
      (operand.dataType = low.dataType ∧ operand.dataType = high.dataType →
        FirstServes operand low high count)
  | [_, .list rows] => n = 1 ∨ ∃ i, rows i = none
  | _ => 0 < n

@[simp] theorem ArrayRef.dataType_row (arr : ArrayRef F n) (i : Fin n) :
    (arr.row i).dataType = arr.dataType := by cases arr <;> rfl

theorem ArrayRef.row_self (arr : ArrayRef F 1) (i : Fin 1) : arr.row i = arr := by
  have hrows : ∀ {α : Type} (rows : Fin 1 → α), (fun _ => rows i) = rows :=
    fun rows => funext fun j => congrArg rows (Subsingleton.elim i j)
  cases arr <;> simp only [ArrayRef.row, hrows]

@[simp] theorem scalarF64_row (arr : ArrayRef F n) (i : Fin n) (j : Fin 1) :
    scalarF64 (arr.row i) j = scalarF64 arr i := by cases arr <;> rfl

@[simp] theorem countAt_row (count : ArrayRef F n) (i : Fin n) (j : Fin 1) :
    countAt (count.row i) j = countAt count i := by cases count <;> rfl

section Outcome
variable (operand low high count : ArrayRef F n)

/-- The operand of row `i` with the low, high and count of row `j`, none where it is refused. -/
private def outcome (i j : Fin n) : Option (Option Int32) :=
  (countAt count j).bind fun c =>
    if c ≤ 0 then none
    else match scalarF64 operand i, scalarF64 low j, scalarF64 high j with
      | some op, some lo, some hi =>
        if F.ge lo hi then none else some (some (equalWidthBucketF64 op lo hi c).toInt32)
      | _, _, _ => some none

variable {operand low high count}

private theorem outcome_eq_none {i j : Fin n} :
    outcome operand low high count i j = none ↔ Refused operand low high count i j := by
  unfold outcome Refused
  cases hcount : countAt count j with
  | none => simp
  | some c =>
    rw [Option.bind_some]
    by_cases hc : c ≤ 0
    · simp [hc]
    · rw [if_neg hc, or_iff_right (fun h => hc (h c rfl))]
      cases scalarF64 operand i <;> cases scalarF64 low j <;> cases scalarF64 high j <;> simp

private theorem outcome_cases {i j : Fin n} (h : ¬ Refused operand low high count i j) :
    NullWith operand low high i j ∧ outcome operand low high count i j = some none ∨
      ∃ op lo hi c, scalarF64 operand i = some op ∧ scalarF64 low j = some lo ∧
        scalarF64 high j = some hi ∧ countAt count j = some c ∧
        outcome operand low high count i j =
          some (some (equalWidthBucketF64 op lo hi c).toInt32) := by
  unfold Refused at h
  rw [not_or] at h
  obtain ⟨hcount, hbounds⟩ := h
  obtain ⟨c, hc⟩ := not_forall.mp hcount
  obtain ⟨hget, hpositive⟩ := Classical.not_imp.mp hc
  unfold outcome NullWith
  rw [hget, Option.bind_some, if_neg hpositive]
  cases hop : scalarF64 operand i with
  | none => exact .inl ⟨.inl rfl, rfl⟩
  | some op =>
    cases hlo : scalarF64 low j with
    | none => exact .inl ⟨.inr (.inl rfl), rfl⟩
    | some lo =>
      cases hhi : scalarF64 high j with
      | none => exact .inl ⟨.inr (.inr rfl), rfl⟩
      | some hi =>
        have hge : ¬ F.ge lo hi = true := fun hge => hbounds ⟨op, lo, hi, hop, hlo, hhi, hge⟩
        exact .inr ⟨op, lo, hi, c, rfl, rfl, rfl, rfl, if_neg hge⟩

private theorem not_nullWith {i j : Fin n} {op lo hi : F.F64}
    (hop : scalarF64 operand i = some op) (hlo : scalarF64 low j = some lo)
    (hhi : scalarF64 high j = some hi) : ¬ NullWith operand low high i j := by
  rintro (h | h | h)
  · cases hop.symm.trans h
  · cases hlo.symm.trans h
  · cases hhi.symm.trans h

private theorem outcome_eq_iff {i : Fin n}
    (hfirst : ¬ Refused operand low high count i (firstRow i))
    (hown : ¬ Refused operand low high count i i) :
    outcome operand low high count i (firstRow i) = outcome operand low high count i i ↔
      SameBucket operand low high count i := by
  rcases outcome_cases hfirst with ⟨hnull', heq'⟩ | ⟨op', lo', hi', c', hop', hlo', hhi', hc', heq'⟩ <;>
    rcases outcome_cases hown with ⟨hnull, heq⟩ | ⟨op, lo, hi, c, hop, hlo, hhi, hc, heq⟩ <;>
    rw [heq', heq]
  · refine iff_of_true rfl ⟨iff_of_true hnull' hnull, ?_⟩
    intro op lo hi c lo' hi' c' hop hlo hhi
    exact absurd hnull (not_nullWith hop hlo hhi)
  · refine iff_of_false (by rintro ⟨⟩) fun h => ?_
    exact not_nullWith hop hlo hhi (h.1.mp hnull')
  · refine iff_of_false (by rintro ⟨⟩) fun h => ?_
    exact not_nullWith hop' hlo' hhi' (h.1.mpr hnull)
  · cases hop.symm.trans hop'
    constructor
    · intro hsame
      refine ⟨iff_of_false (not_nullWith hop hlo' hhi') (not_nullWith hop hlo hhi), ?_⟩
      intro op₁ lo₁ hi₁ c₁ lo₁' hi₁' c₁' hop₁ hlo₁ hhi₁ hc₁ hlo₁' hhi₁' hc₁'
      cases hop.symm.trans hop₁
      cases hlo.symm.trans hlo₁
      cases hhi.symm.trans hhi₁
      cases hc.symm.trans hc₁
      cases hlo'.symm.trans hlo₁'
      cases hhi'.symm.trans hhi₁'
      cases hc'.symm.trans hc₁'
      exact (Option.some.inj (Option.some.inj hsame)).symm
    · intro hsame
      rw [hsame.2 _ _ _ _ _ _ _ hop hlo hhi hc hlo' hhi' hc']

private theorem equalWidthTurn_ok {c : Int64} {i : Fin n} {r : Option Int32}
    (hcount : countAt count (firstRow i) = some c) (hc : ¬ c ≤ 0) :
    equalWidthTurn operand low high c i = .ok r ↔
      outcome operand low high count i (firstRow i) = some r := by
  unfold outcome equalWidthTurn
  rw [hcount, Option.bind_some, if_neg hc]
  cases scalarF64 operand i <;> cases scalarF64 low (firstRow i) <;>
    cases scalarF64 high (firstRow i)
  case some.some.some op lo hi =>
    dsimp only
    split
    · exact iff_of_false (by rintro ⟨⟩) (by rintro ⟨⟩)
    · simp
  all_goals simp

private theorem firstCount_cases (count : ArrayRef F n) (i : Fin n) :
    firstCount count = .ok (countAt count (firstRow i)) ∨
      (∃ e, firstCount count = .error e) ∧ countAt count (firstRow i) = none := by
  have hnext : ∀ {α : Type} (rows : Fin n → Option α), nextFlatten rows = rows (firstRow i) :=
    fun rows => dif_pos i.pos
  cases count with
  | int32 rows => exact .inl (by rw [firstCount, hnext]; rfl)
  | int64 rows => exact .inl (by rw [firstCount, hnext]; rfl)
  | _ => exact .inr ⟨⟨_, rfl⟩, rfl⟩

theorem finRange_mapM_ok {ε β : Type} {f : Fin n → Except ε β} {rows : Fin n → β} :
    (List.finRange n).mapM f = .ok (List.ofFn rows) ↔ ∀ i, f i = .ok (rows i) := by
  rw [mapM_eq_ok, List.ofFn_eq_map, List.forall₂_map_right_iff, List.forall₂_same]
  simp only [List.mem_finRange, forall_const]

private theorem equalWidthForm_ok (hn : 0 < n)
    (htypes : operand.dataType = low.dataType ∧ operand.dataType = high.dataType)
    {rows : Fin n → Option Int32} :
    equalWidthForm operand low high count = .ok (List.ofFn rows) ↔
      ∀ i, outcome operand low high count i (firstRow i) = some (rows i) := by
  have hrefused : (∀ c, countAt count ⟨0, hn⟩ = some c → c ≤ 0) →
      ¬ ∀ i, outcome operand low high count i (firstRow i) = some (rows i) := by
    intro hcount h
    have hnone : outcome operand low high count ⟨0, hn⟩ (firstRow ⟨0, hn⟩) = none :=
      outcome_eq_none.mpr (.inl hcount)
    cases hnone.symm.trans (h ⟨0, hn⟩)
  have hsame : ¬ (operand.dataType ≠ low.dataType ∨ operand.dataType ≠ high.dataType) := by
    rw [not_or, not_not, not_not]
    exact htypes
  unfold equalWidthForm
  rw [if_neg hsame]
  rcases firstCount_cases count ⟨0, hn⟩ with hcount | ⟨⟨e, hcount⟩, hnone⟩
  · rw [hcount]
    cases hget : countAt count (firstRow ⟨0, hn⟩) with
    | none =>
      refine iff_of_false (by rintro ⟨⟩) (hrefused fun c hc => ?_)
      cases hget.symm.trans hc
    | some c =>
      by_cases hpositive : c ≤ 0
      · refine iff_of_false ?_ (hrefused fun c' hc' => ?_)
        · dsimp only [bind, Except.bind]
          rw [if_pos hpositive]
          rintro ⟨⟩
        · cases hget.symm.trans hc'
          exact hpositive
      · dsimp only [bind, Except.bind]
        rw [if_neg hpositive]
        exact finRange_mapM_ok.trans (forall_congr' fun i => equalWidthTurn_ok hget hpositive)
  · rw [hcount]
    refine iff_of_false (by rintro ⟨⟩) (hrefused fun c hc => ?_)
    cases hnone.symm.trans hc

private theorem equalWidthForm_length {rows : List (Option Int32)}
    (h : equalWidthForm operand low high count = .ok rows) : rows.length = n := by
  unfold equalWidthForm at h
  split at h
  · cases h
  · obtain ⟨first, -, h⟩ := bind_eq_ok.mp h
    cases first with
    | none => cases h
    | some c =>
      dsimp only at h
      split at h
      · cases h
      · rw [← (mapM_eq_ok.mp h).length_eq, List.length_finRange]

private theorem outcome_row (i : Fin n) (j : Fin 1) :
    outcome (operand.row i) (low.row i) (high.row i) (count.row i) j (firstRow j) =
      outcome operand low high count i i := by
  unfold outcome
  simp only [countAt_row, scalarF64_row]

end Outcome

private theorem same_rows_iff {β : Type} {p q : Fin n → Option β} :
    (∀ rows : Fin n → β, (∀ i, p i = some (rows i)) ↔ ∀ i, q i = some (rows i)) ↔
      (∀ i, p i ≠ none ∧ q i ≠ none ∧ p i = q i) ∨ (∃ i, p i = none) ∧ ∃ i, q i = none := by
  constructor
  · intro h
    by_cases hp : ∃ i, p i = none
    · refine .inr ⟨hp, ?_⟩
      by_contra hq
      push Not at hq
      choose rows hrows using fun i => Option.ne_none_iff_exists'.mp (hq i)
      obtain ⟨i, hi⟩ := hp
      cases hi.symm.trans ((h rows).mpr hrows i)
    · push Not at hp
      choose rows hrows using fun i => Option.ne_none_iff_exists'.mp (hp i)
      have hq := (h rows).mp hrows
      exact .inl fun i => ⟨hp i, by rw [hq i]; exact Option.some_ne_none _, by rw [hq i, hrows i]⟩
  · rintro (h | ⟨⟨i, hi⟩, j, hj⟩) rows
    · exact forall_congr' fun i => by rw [(h i).2.2]
    · refine iff_of_false (fun h => ?_) fun h => ?_
      · cases hi.symm.trans (h i)
      · cases hj.symm.trans (h j)

private theorem rowWise_of_fails {args : List (ArrayRef F n)}
    (hbatch : ∀ rows, invokeWithArgs args ≠ .ok rows)
    (hrow : ∀ i rows, invokeWithArgs (args.map (ArrayRef.row i)) ≠ .ok rows) :
    RowWise args ↔ 0 < n := by
  constructor
  · intro h
    by_contra hn
    obtain rfl : n = 0 := by omega
    exact hbatch _ ((h.single Fin.elim0).mpr fun i => i.elim0)
  · intro hn
    refine ⟨fun rows h => absurd h (hbatch rows), fun rows => iff_of_false (hbatch _) fun h => ?_⟩
    exact hrow ⟨0, hn⟩ _ (h ⟨0, hn⟩)

private theorem equalWidthForm_fails {m : Nat} {operand low high count : ArrayRef F m}
    (htypes : ¬ (operand.dataType = low.dataType ∧ operand.dataType = high.dataType)) :
    ∀ rows, invokeWithArgs [operand, low, high, count] ≠ .ok rows := by
  intro rows h
  change equalWidthForm operand low high count = .ok rows at h
  unfold equalWidthForm at h
  rw [if_pos (not_and_or.mp htypes)] at h
  cases h

private theorem equalWidthForm_empty {operand low high count : ArrayRef F 0} :
    ∀ rows, invokeWithArgs [operand, low, high, count] ≠ .ok rows := by
  intro rows h
  change equalWidthForm operand low high count = .ok rows at h
  unfold equalWidthForm at h
  split at h
  · cases h
  · cases count <;> cases h

private theorem equalWidth_rowWise_iff (operand low high count : ArrayRef F n) :
    RowWise [operand, low, high, count] ↔ 0 < n ∧
      (operand.dataType = low.dataType ∧ operand.dataType = high.dataType →
        FirstServes operand low high count) := by
  by_cases htypes : operand.dataType = low.dataType ∧ operand.dataType = high.dataType
  · rw [forall_prop_of_true htypes]
    rcases Nat.eq_zero_or_pos n with rfl | hn
    · rw [rowWise_of_fails equalWidthForm_empty fun i => i.elim0]
      exact iff_of_false (Nat.lt_irrefl 0) fun h => Nat.lt_irrefl 0 h.1
    · have hrow : ∀ (i : Fin n) (r : Option Int32),
          invokeWithArgs ([operand, low, high, count].map (ArrayRef.row i)) = .ok [r] ↔
            outcome operand low high count i i = some r := by
        intro i r
        have halone : equalWidthForm (operand.row i) (low.row i) (high.row i) (count.row i) =
            .ok (List.ofFn fun _ : Fin 1 => r) ↔ ∀ j, outcome (operand.row i) (low.row i)
              (high.row i) (count.row i) j (firstRow j) = some r :=
          equalWidthForm_ok Nat.one_pos (by simpa using htypes)
        simp only [outcome_row, forall_const] at halone
        exact halone
      have hsingle : (∀ rows : Fin n → Option Int32,
          invokeWithArgs [operand, low, high, count] = .ok (List.ofFn rows) ↔
            ∀ i, invokeWithArgs ([operand, low, high, count].map (ArrayRef.row i)) =
              .ok [rows i]) ↔ FirstServes operand low high count := by
        simp only [hrow]
        refine (forall_congr' fun rows => iff_congr (equalWidthForm_ok hn htypes) Iff.rfl).trans ?_
        rw [same_rows_iff]
        refine or_congr (forall_congr' fun i => ?_) ?_
        · simp only [ne_eq, outcome_eq_none]
          exact and_congr_right fun hfirst => and_congr_right fun hown =>
            outcome_eq_iff hfirst hown
        · simp only [outcome_eq_none]
      rw [and_iff_right hn, ← hsingle]
      exact ⟨RowWise.single, fun h => ⟨fun rows => equalWidthForm_length, h⟩⟩
  · rw [rowWise_of_fails (equalWidthForm_fails htypes) fun i => equalWidthForm_fails ?_]
    · exact (and_iff_left fun h => absurd h htypes).symm
    · simpa using htypes

section Thresholds
variable (operand : ArrayRef F n) (rows : Fin n → Option (List (Option F.F64)))

private theorem thresholds_alone (i : Fin n) (r : Option Int32) :
    invokeWithArgs ([operand, .list rows].map (ArrayRef.row i)) = .ok [r] ↔
      ∃ row, rows i = some row ∧ thresholdsTurn operand (row.map fun v => v.getD F.nan) i = r := by
  change thresholdsForm (operand.row i) (.list fun _ => rows i) = .ok [r] ↔ _
  have hnext : nextFlatten (fun _ : Fin 1 => rows i) = rows i := rfl
  have hturn : ∀ list, (List.finRange 1).map (thresholdsTurn (operand.row i) list) =
      [thresholdsTurn operand list i] := by
    intro list
    simp only [List.finRange_succ, List.finRange_zero, List.map_cons, List.map_nil, thresholdsTurn,
      scalarF64_row]
  unfold thresholdsForm asF64List
  dsimp only
  rw [if_neg (not_not.mpr rfl), hnext]
  cases hrow : rows i with
  | none =>
    refine iff_of_false (by rintro ⟨⟩) ?_
    rintro ⟨row, ⟨⟩, -⟩
  | some row =>
    simp only [bind, Except.bind, Option.map_some, hturn]
    constructor
    · intro h
      cases h
      exact ⟨row, rfl, rfl⟩
    · rintro ⟨row, ⟨⟩, rfl⟩
      rfl

private theorem thresholds_fails (hn : n ≠ 1) :
    ∀ result, invokeWithArgs [operand, .list rows] ≠ .ok result := by
  intro result h
  change thresholdsForm operand (.list rows) = .ok result at h
  unfold thresholdsForm asF64List at h
  dsimp only at h
  rw [if_pos hn] at h
  cases h

private theorem thresholds_rowWise_iff :
    RowWise [operand, .list rows] ↔ n = 1 ∨ ∃ i, rows i = none := by
  by_cases hn : n = 1
  · subst hn
    refine iff_of_true ⟨fun result h => ?_, fun result => ?_⟩ (.inl rfl)
    · obtain ⟨list, -, h⟩ := bind_eq_ok.mp h
      cases list with
      | none => cases h
      | some list =>
        cases h
        rw [List.length_map, List.length_finRange]
    · simp only [List.map_cons, List.map_nil, ArrayRef.row_self, Fin.forall_fin_one]
      rw [show List.ofFn result = [result 0] by simp]
  · rw [or_iff_right hn]
    have hfails := thresholds_fails operand rows hn
    constructor
    · intro h
      by_contra hnone
      push Not at hnone
      choose row hrow using fun i => Option.ne_none_iff_exists'.mp (hnone i)
      exact hfails _ ((h.single _).mpr fun i =>
        (thresholds_alone operand rows i _).mpr ⟨row i, hrow i, rfl⟩)
    · rintro ⟨i, hi⟩
      refine ⟨fun result h => absurd h (hfails result), fun result => ?_⟩
      refine iff_of_false (hfails _) fun h => ?_
      obtain ⟨row, hrow, -⟩ := (thresholds_alone operand rows i _).mp (h i)
      cases hi.symm.trans hrow

end Thresholds

/-- A batch is evaluated row by row exactly where row 0 serves all its rows. -/
theorem rowWise_iff (F : Floats) (n : Nat) (args : List (ArrayRef F n)) :
    RowWise args ↔ ServedByFirst args := by
  rcases args with _ | ⟨operand, _ | ⟨low, _ | ⟨high, _ | ⟨count, _ | ⟨arg, args⟩⟩⟩⟩⟩
  · exact rowWise_of_fails (by rintro rows ⟨⟩) (by rintro i rows ⟨⟩)
  · exact rowWise_of_fails (by rintro rows ⟨⟩) (by rintro i rows ⟨⟩)
  · cases low with
    | list rows => exact thresholds_rowWise_iff operand rows
    | _ => exact rowWise_of_fails (by rintro rows ⟨⟩) (by rintro i rows ⟨⟩)
  · exact rowWise_of_fails (by rintro rows ⟨⟩) (by rintro i rows ⟨⟩)
  · exact equalWidth_rowWise_iff operand low high count
  · exact rowWise_of_fails (by rintro rows ⟨⟩) (by rintro i rows ⟨⟩)

/-- Constant low, high and count serve every batch that has a row. -/
theorem rowWise_of_constant {operand low high count : ArrayRef F n} (hn : 0 < n)
    (hlow : ∀ i, scalarF64 low i = scalarF64 low (firstRow i))
    (hhigh : ∀ i, scalarF64 high i = scalarF64 high (firstRow i))
    (hcount : ∀ i, countAt count i = countAt count (firstRow i)) :
    RowWise [operand, low, high, count] := by
  refine (equalWidth_rowWise_iff operand low high count).mpr ⟨hn, fun _ => ?_⟩
  have hrefused : ∀ i, Refused operand low high count i (firstRow i) ↔
      Refused operand low high count i i := by
    intro i
    rw [Refused, Refused, hlow i, hhigh i, hcount i]
  by_cases h : ∃ i, Refused operand low high count i i
  · obtain ⟨i, hi⟩ := h
    exact .inr ⟨⟨i, (hrefused i).mpr hi⟩, i, hi⟩
  · push Not at h
    refine .inl fun i => ⟨mt (hrefused i).mp (h i), h i, ?_, ?_⟩
    · rw [NullWith, NullWith, hlow i, hhigh i]
    · intro op lo hi c lo' hi' c' _ hlo hhi hc hlo' hhi' hc'
      rw [hlow i, hlo'] at hlo
      rw [hhigh i, hhi'] at hhi
      rw [hcount i, hc'] at hc
      cases hlo
      cases hhi
      cases hc
      rfl

section Rationals

/-- Exact numbers in the place of both floats; none is NaN. -/
abbrev rationals : Floats where
  F64 := Option ℚ
  F32 := Option ℚ
  nan := none
  isNan x := x.isNone
  lt x y := (x.bind fun a => y.map fun b => decide (a < b)).getD false
  ge x y := (x.bind fun a => y.map fun b => decide (b ≤ a)).getD false
  sub x y := x.bind fun a => y.map fun b => a - b
  div x y := x.bind fun a => y.map fun b => a / b
  floor x := x.map fun a => (⌊a⌋ : ℚ)
  ofF32 x := x
  ofI64 v := some v.toInt
  toI64 x := (x.map fun a => Int64.ofIntClamp (a.num.tdiv a.den)).getD 0

/-- The operands 5 and 15 in five buckets, from 0 to 10 and from 10 to 20. -/
def boundsByRow : List (ArrayRef rationals 2) :=
  [.float64 ![some (some 5), some (some 15)], .float64 ![some (some 0), some (some 10)],
    .float64 ![some (some 10), some (some 20)], .int64 ![some 5, some 5]]

private theorem boundsByRow_batch :
    (invokeWithArgs boundsByRow).toOption = some [some 3, some 6] := by decide +kernel

private theorem boundsByRow_second :
    (invokeWithArgs (boundsByRow.map (ArrayRef.row 1))).toOption = some [some 3] := by
  decide +kernel

/-- The second row is given bucket 6 in the batch, and bucket 3 alone. -/
theorem boundsByRow_not_rowWise :
    ¬ ∀ (F : Floats) (n : Nat) (args : List (ArrayRef F n)), RowWise args := by
  intro h
  have hbatch : invokeWithArgs boundsByRow = .ok (List.ofFn ![some 3, some 6]) := by
    have := boundsByRow_batch
    cases hrun : invokeWithArgs boundsByRow <;> rw [hrun] at this <;> cases this
    rfl
  have halone := ((h rationals 2 boundsByRow).single _).mp hbatch 1
  have hsecond := boundsByRow_second
  rw [halone] at hsecond
  exact absurd hsecond (by decide)

end Rationals
end DatafusionPostgres.PgFunctions
