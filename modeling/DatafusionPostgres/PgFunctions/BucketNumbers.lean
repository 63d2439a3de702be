import DatafusionPostgres.Library.Buckets
import DatafusionPostgres.PgFunctions.WidthBucket

/-! The numbers that the equal-width form of `width_bucket` gives, on exact numbers. -/
namespace DatafusionPostgres.PgFunctions
open Library

/-- Operands, none for NULL, with low, high and count that are the same for each. -/
structure EqualWidthCall (n : Nat) where
  operands : Fin n → Option ℚ
  low : ℚ
  high : ℚ
  count : Int64
  nonempty : 0 < n
  low_lt_high : low < high
  count_pos : 0 < count

namespace EqualWidthCall
variable {n : Nat} (call : EqualWidthCall n)

def args : List (ArrayRef rationals n) :=
  [.float64 fun i => (call.operands i).map some, .float64 fun _ => some (some call.low),
    .float64 fun _ => some (some call.high), .int64 fun _ => some call.count]

/-- The bucket of an operand, as the documentation numbers them. -/
structure IsBucket (op : ℚ) (b : ℤ) : Prop where
  below : op < call.low → b = 0
  above : call.high ≤ op → b = call.count.toInt + 1
  between : call.low ≤ op → op < call.high → 1 ≤ b ∧ b ≤ call.count.toInt ∧
    call.low + (b - 1) * (call.high - call.low) / call.count.toInt ≤ op ∧
    op < call.low + b * (call.high - call.low) / call.count.toInt

structure NumberedRows (rows : Fin n → Option Int32) : Prop where
  null : ∀ i, rows i = none ↔ call.operands i = none
  number : ∀ i op r, call.operands i = some op → rows i = some r → call.IsBucket op r.toInt
  mono : ∀ i j op op' r r', call.operands i = some op → call.operands j = some op' →
    rows i = some r → rows j = some r' → op ≤ op' → r.toInt ≤ r'.toInt

/-- Each operand is given its number, or some number is no `i32` and the call fails. -/
def Numbered : Prop :=
  (∃ rows, invokeWithArgs call.args = .ok (List.ofFn rows) ∧ call.NumberedRows rows) ∨
    (∃ i op b, call.operands i = some op ∧ call.IsBucket op b ∧ Int32.maxValue.toInt < b) ∧
      ∃ e, invokeWithArgs call.args = .error e

/-- There are fewer buckets than an `i32` counts, or the operands are below the last it counts. -/
def FitsI32 : Prop := ∀ i op, call.operands i = some op →
  call.count.toInt < 2147483647 ∨
    op < call.low + 2147483647 * (call.high - call.low) / call.count.toInt

/-- The number in the terms of the abstract buckets. -/
def number (op : ℚ) : ℤ := bucketNumber call.low call.high call.count.toInt op

variable {call}

private theorem isNan_some (q : ℚ) : rationals.isNan (some q) = false := rfl

private theorem count_toInt_pos (call : EqualWidthCall n) : 0 < call.count.toInt :=
  Int64.lt_iff_toInt_lt.mp call.count_pos

theorem isBucket_iff {op : ℚ} {b : ℤ} : call.IsBucket op b ↔ b = call.number op := by
  have hcount := call.count_toInt_pos
  constructor
  · intro h
    rcases lt_or_ge op call.low with hlow | hlow
    · rw [number, bucketNumber_of_lt hlow, h.below hlow]
    · rcases lt_or_ge op call.high with hhigh | hhigh
      · exact ((bucketNumber_eq_iff call.low_lt_high hcount hlow hhigh).mpr
          (h.between hlow hhigh).2.2).symm
      · rw [number, bucketNumber_of_le call.low_lt_high hhigh, h.above hhigh]
  · rintro rfl
    refine ⟨bucketNumber_of_lt, bucketNumber_of_le call.low_lt_high, fun hlow hhigh => ?_⟩
    obtain ⟨hone, hle⟩ := bucketNumber_between call.low_lt_high hcount hlow hhigh
    exact ⟨hone, hle, (bucketNumber_eq_iff call.low_lt_high hcount hlow hhigh).mp rfl⟩

private theorem toI64_floor {q : ℚ} (h : 0 ≤ ⌊q⌋ ∧ ⌊q⌋ < 2 ^ 63) :
    (rationals.toI64 (rationals.floor (some q))).toInt = ⌊q⌋ := by
  change (Int64.ofIntClamp ((⌊q⌋ : ℚ).num.tdiv (⌊q⌋ : ℚ).den)).toInt = ⌊q⌋
  rw [Rat.num_intCast, Rat.den_intCast, Nat.cast_one, Int.tdiv_one]
  apply Int64.toInt_ofIntClamp
  · rw [Int64.toInt_minValue]
    omega
  · rw [Int64.toInt_maxValue]
    omega

private theorem bucket_between {op : ℚ} (hlow : call.low ≤ op) (hhigh : op < call.high) :
    (equalWidthBucketF64 (F := rationals) (some op) (some call.low) (some call.high)
      call.count).toInt = call.number op := by
  have hcount := call.count_toInt_pos
  have hmax := call.count.toInt_lt
  have hnumber : bucketNumber call.low call.high call.count.toInt op =
      ⌊(op - call.low) / ((call.high - call.low) / call.count.toInt)⌋ + 1 :=
    bucketNumber_of_between hlow hhigh
  obtain ⟨hone, hle⟩ := bucketNumber_between call.low_lt_high hcount hlow hhigh
  have hlt : rationals.lt (some op) (some call.low) = false := decide_eq_false (not_lt.mpr hlow)
  have hge : rationals.ge (some op) (some call.high) = false := decide_eq_false (not_le.mpr hhigh)
  have hfloor := toI64_floor (q := (op - call.low) / ((call.high - call.low) / call.count.toInt))
    (by omega)
  have hsum : (rationals.toI64 (rationals.floor (some ((op - call.low) /
      ((call.high - call.low) / call.count.toInt)))) + 1).toInt = call.number op := by
    rw [Int64.toInt_add, hfloor, Int64.toInt_one, number, hnumber]
    apply Int.bmod_eq_of_le <;> omega
  have hclamp : ∀ b : Int64, b.toInt = call.number op →
      (if b < 1 then 1 else if call.count < b then call.count else b).toInt = call.number op := by
    intro b hb
    rw [if_neg, if_neg, hb]
    · rw [Int64.lt_iff_toInt_lt, hb, number]
      omega
    · rw [Int64.lt_iff_toInt_lt, hb, number, Int64.toInt_one]
      omega
  unfold equalWidthBucketF64
  rw [isNan_some, hlt, hge, if_neg Bool.false_ne_true, if_neg Bool.false_ne_true,
    if_neg Bool.false_ne_true]
  exact hclamp _ hsum

theorem bucket_toInt32 (op : ℚ) :
    (equalWidthBucketF64 (F := rationals) (some op) (some call.low) (some call.high)
      call.count).toInt32.toInt = (call.number op).bmod (2 ^ 32) := by
  rw [Int64.toInt_toInt32]
  rcases lt_or_ge op call.low with hlow | hlow
  · have hlt : rationals.lt (some op) (some call.low) = true := decide_eq_true hlow
    unfold equalWidthBucketF64
    rw [isNan_some, hlt, if_neg Bool.false_ne_true, if_pos rfl, number, bucketNumber_of_lt hlow]
    rfl
  · rcases lt_or_ge op call.high with hhigh | hhigh
    · rw [bucket_between hlow hhigh]
    · have hlt : rationals.lt (some op) (some call.low) = false :=
        decide_eq_false (not_lt.mpr hlow)
      have hge : rationals.ge (some op) (some call.high) = true := decide_eq_true hhigh
      unfold equalWidthBucketF64
      rw [isNan_some, hlt, hge, if_neg Bool.false_ne_true, if_neg Bool.false_ne_true, if_pos rfl, number,
        bucketNumber_of_le call.low_lt_high hhigh, Int64.toInt_add, Int64.toInt_one,
        Int.bmod_bmod_of_dvd (by decide)]

private theorem bmod_number_iff (op : ℚ) :
    (call.number op).bmod (2 ^ 32) = call.number op ↔ call.number op ≤ 2147483647 := by
  have hnonneg : 0 ≤ call.number op :=
    bucketNumber_nonneg call.low_lt_high call.count_toInt_pos
  constructor
  · intro h
    have := Int.bmod_lt (x := call.number op) (m := 2 ^ 32) (by decide)
    omega
  · intro h
    apply Int.bmod_eq_of_le <;> omega

theorem fitsI32_iff : call.FitsI32 ↔
    ∀ i op, call.operands i = some op → call.number op ≤ 2147483647 := by
  refine forall_congr' fun i => forall_congr' fun op => imp_congr_right fun _ => ?_
  rw [number, bucketNumber_le_iff call.low_lt_high call.count_toInt_pos (by decide)]
  norm_num

/-- The call returns, with each number as an `i32`. -/
theorem invoke_args : invokeWithArgs call.args = .ok (List.ofFn fun i =>
    (call.operands i).map fun op => (equalWidthBucketF64 (F := rationals) (some op)
      (some call.low) (some call.high) call.count).toInt32) := by
  have hpositive : ¬ call.count ≤ 0 := by
    rw [Int64.le_iff_toInt_le, not_le]
    exact call.count_toInt_pos
  have hge : ¬ rationals.ge (some call.low) (some call.high) = true :=
    fun h => absurd (of_decide_eq_true h) (not_le.mpr call.low_lt_high)
  unfold args invokeWithArgs
  dsimp only
  unfold equalWidthForm
  rw [if_neg (by simp [ArrayRef.dataType])]
  have hfirst : firstCount (F := rationals) (.int64 fun _ : Fin n => some call.count) =
      .ok (some call.count) := congrArg Except.ok (dif_pos call.nonempty)
  rw [hfirst]
  dsimp only [bind, Except.bind]
  rw [if_neg hpositive]
  refine finRange_mapM_ok.mpr fun i => ?_
  have hscalar : ∀ (rows : Fin n → Option rationals.F64) (j : Fin n),
      scalarF64 (.float64 rows) j = rows j := fun _ _ => rfl
  unfold equalWidthTurn
  rw [hscalar, hscalar, hscalar]
  cases call.operands i with
  | none => rfl
  | some op => exact if_neg hge

private theorem rows_some {i : Fin n} {op : ℚ} (hop : call.operands i = some op) {r : Int32}
    (hr : ((call.operands i).map fun op => (equalWidthBucketF64 (F := rationals) (some op)
      (some call.low) (some call.high) call.count).toInt32) = some r) :
    r.toInt = (call.number op).bmod (2 ^ 32) := by
  rw [hop, Option.map_some] at hr
  cases hr
  exact bucket_toInt32 op

private theorem numbered_of_fits (h : call.FitsI32) : call.Numbered := by
  have hnumber : ∀ i op, call.operands i = some op →
      (call.number op).bmod (2 ^ 32) = call.number op :=
    fun i op hop => (bmod_number_iff op).mpr (fitsI32_iff.mp h i op hop)
  refine .inl ⟨_, invoke_args, fun i => Option.map_eq_none_iff, ?_, ?_⟩
  · intro i op r hop hr
    rw [isBucket_iff, rows_some hop hr, hnumber i op hop]
  · intro i j op op' r r' hop hop' hr hr' hle
    rw [rows_some hop hr, rows_some hop' hr', hnumber i op hop, hnumber j op' hop']
    exact bucketNumber_mono call.low_lt_high call.count_toInt_pos hle

private theorem fits_of_numbered (h : call.Numbered) : call.FitsI32 := by
  rcases h with ⟨rows, hrun, hrows⟩ | ⟨-, e, hrun⟩
  · have heq := List.ofFn_injective (Except.ok.inj (hrun.symm.trans invoke_args))
    refine fitsI32_iff.mpr fun i op hop => ?_
    have hrow := congrFun heq i
    cases hr : rows i with
    | none => cases ((hrows.null i).mp hr).symm.trans hop
    | some r =>
      rw [hr] at hrow
      rw [← bmod_number_iff, ← rows_some hop hrow.symm]
      exact isBucket_iff.mp (hrows.number i op r hop hr)
  · cases hrun.symm.trans invoke_args

/-- The call gives each operand its number exactly when all the numbers are `i32`: it never fails
because one is not. -/
theorem numbered_iff (call : EqualWidthCall n) : call.Numbered ↔ call.FitsI32 :=
  ⟨fits_of_numbered, numbered_of_fits⟩

section Examples

/-- `width_bucket(11, 0, 10, 2147483647)`. -/
def aboveMaxCount : EqualWidthCall 1 where
  operands _ := some 11
  low := 0
  high := 10
  count := 2147483647
  nonempty := by decide
  low_lt_high := by norm_num
  count_pos := by decide

/-- The bucket is the smallest `i32`, for one more than the largest. -/
theorem aboveMaxCount_not_numbered : ¬ ∀ (n : Nat) (call : EqualWidthCall n), call.Numbered := by
  intro h
  have hfits := fits_of_numbered (h 1 aboveMaxCount) 0 11 rfl
  rcases hfits with hcount | hop
  · exact absurd hcount (by decide)
  · change (11 : ℚ) < 0 + 2147483647 * (10 - 0) / ((2147483647 : Int64).toInt : ℚ) at hop
    rw [show (2147483647 : Int64).toInt = 2147483647 by decide] at hop
    norm_num at hop

end Examples

end EqualWidthCall
end DatafusionPostgres.PgFunctions
