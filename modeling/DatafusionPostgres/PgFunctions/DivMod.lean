import DatafusionPostgres.Library.Success

/-! `datafusion-pg-functions/src/numeric/div.rs` and `mod_op.rs`: the integer quotient and its
remainder, row by row. -/
namespace DatafusionPostgres.PgFunctions
open Library

/-- A panic, which aborts the process in the release profile. -/
inductive Panic where
  | panic

/-- The integer types that both functions are compiled for. -/
inductive IntType where
  | int8 | int16 | int32 | int64
  deriving DecidableEq, Repr

def IntType.bits : IntType → Nat
  | .int8 => 8
  | .int16 => 16
  | .int32 => 32
  | .int64 => 64

/-- A primitive array. Its validity buffer may be left out, and all rows are valid then. -/
structure PrimitiveArray (α : Type) where
  values : List α
  validity : Option (List Bool)
  length_validity : ∀ valid ∈ validity, valid.length = values.length

namespace PrimitiveArray
variable {α : Type} (arr : PrimitiveArray α)

def len : Nat := arr.values.length

/-- Only a validity buffer asserts that the index is inside. -/
def isNull (i : Nat) : Except Panic Bool :=
  match arr.validity with
  | none => .ok false
  | some valid =>
    match valid[i]? with
    | some v => .ok !v
    | none => .error .panic

def value (i : Nat) : Except Panic α :=
  match arr.values[i]? with
  | some v => .ok v
  | none => .error .panic

/-- What the row holds, none for NULL. -/
def row (i : Nat) : Option α :=
  match arr.isNull i with
  | .ok false => arr.values[i]?
  | _ => none

/-- The operand of row `i`, which an array of one row gives to every row. -/
def operand (i : Nat) : Option α := arr.row (if arr.len = 1 then 0 else i)

variable {arr}

theorem isNull_eq {i : Nat} (hi : i < arr.len) : arr.isNull i = .ok (arr.row i).isNone := by
  have hvalue : arr.values[i]? = some arr.values[i] := List.getElem?_eq_getElem hi
  unfold row isNull
  cases hvalid : arr.validity with
  | none => rw [hvalue]; rfl
  | some valid =>
    have hlength : i < valid.length := by rwa [arr.length_validity valid hvalid]
    dsimp only
    rw [List.getElem?_eq_getElem hlength]
    cases valid[i] with
    | true => rw [hvalue]; rfl
    | false => rfl

theorem value_eq {i : Nat} {v : α} (h : arr.row i = some v) : arr.value i = .ok v := by
  unfold row at h
  split at h
  · rw [value, h]
  · cases h

end PrimitiveArray

section Elementwise
variable {w : Nat} (op : BitVec w → BitVec w → Except Panic (BitVec w))

/-- Rust's `/`, which panics where there is no quotient. -/
def div (y x : BitVec w) : Except Panic (BitVec w) :=
  if x = 0 ∨ y = .intMin w ∧ x = -1 then .error .panic else .ok (y.sdiv x)

/-- Rust's `%`, which panics where `/` does. -/
def rem (y x : BitVec w) : Except Panic (BitVec w) :=
  if x = 0 ∨ y = .intMin w ∧ x = -1 then .error .panic else .ok (y.srem x)

/-- One turn of the loop over the rows. -/
def elementwiseTurn (y x : PrimitiveArray (BitVec w)) (i : Nat) :
    Except Panic (Option (BitVec w)) := do
  let j := if y.len = 1 then 0 else i
  let k := if x.len = 1 then 0 else i
  if ← y.isNull j then return none
  if ← x.isNull k then return none
  let divisor ← x.value k
  if divisor = 0 then return none
  let dividend ← y.value j
  return some (← op dividend divisor)

def elementwise (y x : PrimitiveArray (BitVec w)) : Except Panic (List (Option (BitVec w))) :=
  (List.range (max y.len x.len)).mapM (elementwiseTurn op y x)

def divInt (y x : PrimitiveArray (BitVec w)) : Except Panic (List (Option (BitVec w))) :=
  elementwise div y x

def modInt (y x : PrimitiveArray (BitVec w)) : Except Panic (List (Option (BitVec w))) :=
  elementwise rem y x

end Elementwise

section Law
variable {w : Nat}

/-- The number of rows of two arrays of one length, or of the longer where one has one row. -/
def inputRows (y x : PrimitiveArray (BitVec w)) : Nat := if y.len = 1 then x.len else y.len

/-- One row of both results. -/
structure DivModRow (y x quotient remainder : Option (BitVec w)) : Prop where
  null_quotient : quotient = none ↔ y = none ∨ x = none ∨ x = some 0
  null_remainder : remainder = none ↔ y = none ∨ x = none ∨ x = some 0
  law : ∀ a b q r, y = some a → x = some b → quotient = some q → remainder = some r →
    q.toInt * b.toInt + r.toInt = a.toInt ∧ r.toInt.natAbs < b.toInt.natAbs ∧
      (r.toInt = 0 ∨ r.toInt.sign = a.toInt.sign)

/-- Neither function panics, and each row of the two results belongs together. -/
def DivModLaw (y x : PrimitiveArray (BitVec w)) : Prop :=
  ∃ quotients remainders, divInt y x = .ok quotients ∧ modInt y x = .ok remainders ∧
    quotients.length = inputRows y x ∧ remainders.length = inputRows y x ∧
    ∀ i q r, quotients[i]? = some q → remainders[i]? = some r →
      DivModRow (y.operand i) (x.operand i) q r

/-- No row divides the smallest value by minus one, and a row is not paired with none. -/
structure Divisible (y x : PrimitiveArray (BitVec w)) : Prop where
  rows : ¬ (y.len = 0 ∧ x.len = 1) ∧ ¬ (y.len = 1 ∧ x.len = 0)
  quotient : ∀ i < inputRows y x, ¬ (y.operand i = some (.intMin w) ∧ x.operand i = some (-1))

end Law

section Turns
variable {w : Nat} {op : BitVec w → BitVec w → Except Panic (BitVec w)}
variable {y x : PrimitiveArray (BitVec w)} {i : Nat}

/-- Both operands of the row are rows of their arrays. -/
private def InBounds (y x : PrimitiveArray (BitVec w)) (i : Nat) : Prop :=
  (if y.len = 1 then 0 else i) < y.len ∧ (if x.len = 1 then 0 else i) < x.len

private theorem turn_null (hi : InBounds y x i)
    (h : y.operand i = none ∨ x.operand i = none ∨ x.operand i = some 0) :
    elementwiseTurn op y x i = .ok none := by
  unfold elementwiseTurn
  dsimp only
  unfold PrimitiveArray.operand at h
  rw [PrimitiveArray.isNull_eq hi.1, PrimitiveArray.isNull_eq hi.2]
  cases hy : y.row (if y.len = 1 then 0 else i) with
  | none => rfl
  | some a =>
    rw [hy, or_iff_right (by rintro ⟨⟩)] at h
    rcases h with hx | hx
    · rw [hx]
      rfl
    · rw [hx, PrimitiveArray.value_eq hx]
      rfl

private theorem turn_some (op : BitVec w → BitVec w → Except Panic (BitVec w))
    (hi : InBounds y x i) {a b : BitVec w} (ha : y.operand i = some a)
    (hb : x.operand i = some b) (hzero : b ≠ 0) :
    elementwiseTurn op y x i = some <$> op a b := by
  unfold elementwiseTurn
  dsimp only
  unfold PrimitiveArray.operand at ha hb
  rw [PrimitiveArray.isNull_eq hi.1, PrimitiveArray.isNull_eq hi.2, ha, hb,
    PrimitiveArray.value_eq ha, PrimitiveArray.value_eq hb]
  dsimp only [bind, Except.bind, Option.isNone_some]
  rw [if_neg Bool.false_ne_true, if_neg Bool.false_ne_true, if_neg hzero]
  cases op a b with
  | ok v => rfl
  | error e => rfl

private theorem turn_cases (op : BitVec w → BitVec w → Except Panic (BitVec w))
    (hi : InBounds y x i) :
    (y.operand i = none ∨ x.operand i = none ∨ x.operand i = some 0) ∧
        elementwiseTurn op y x i = .ok none ∨
      ∃ a b, y.operand i = some a ∧ x.operand i = some b ∧ b ≠ 0 ∧
        elementwiseTurn op y x i = some <$> op a b := by
  by_cases h : y.operand i = none ∨ x.operand i = none ∨ x.operand i = some 0
  · exact .inl ⟨h, turn_null hi h⟩
  · rw [not_or, not_or] at h
    obtain ⟨hy, hx, hzero⟩ := h
    obtain ⟨a, ha⟩ := Option.ne_none_iff_exists'.mp hy
    obtain ⟨b, hb⟩ := Option.ne_none_iff_exists'.mp hx
    have hb0 : b ≠ 0 := fun h => hzero (by rw [hb, h])
    exact .inr ⟨a, b, ha, hb, hb0, turn_some op hi ha hb hb0⟩

end Turns

section Arithmetic
variable {w : Nat} {a b : BitVec w}

private theorem toInt_ne_zero (h : b ≠ 0) : b.toInt ≠ 0 := by
  intro h0
  exact h (BitVec.eq_of_toInt_eq (by rw [h0]; exact BitVec.toInt_zero.symm))

private theorem sdiv_srem_law (hb : b ≠ 0) (h : ¬ (a = .intMin w ∧ b = -1)) :
    (a.sdiv b).toInt * b.toInt + (a.srem b).toInt = a.toInt ∧
      (a.srem b).toInt.natAbs < b.toInt.natAbs ∧
      ((a.srem b).toInt = 0 ∨ (a.srem b).toInt.sign = a.toInt.sign) := by
  have hquotient := BitVec.toInt_sdiv_of_ne_or_ne a b (Decidable.not_and_iff_not_or_not.mp h)
  have hb0 := toInt_ne_zero hb
  rw [hquotient, BitVec.toInt_srem]
  refine ⟨Int.tdiv_mul_add_tmod _ _, ?_, ?_⟩
  · rw [Int.natAbs_tmod]
    exact Nat.mod_lt _ (Int.natAbs_pos.mpr hb0)
  · have hsign := Int.sign_tmod a.toInt b.toInt
    split at hsign
    · exact .inl (Int.sign_eq_zero_iff_zero.mp hsign)
    · exact .inr hsign

end Arithmetic

section Rows
variable {w : Nat} {y x : PrimitiveArray (BitVec w)}

private theorem inputRows_eq (hlen : y.len = x.len ∨ y.len = 1 ∨ x.len = 1)
    (hrows : ¬ (y.len = 0 ∧ x.len = 1) ∧ ¬ (y.len = 1 ∧ x.len = 0)) :
    inputRows y x = max y.len x.len := by
  unfold inputRows
  split <;> omega

private theorem inBounds (hlen : y.len = x.len ∨ y.len = 1 ∨ x.len = 1)
    (hrows : ¬ (y.len = 0 ∧ x.len = 1) ∧ ¬ (y.len = 1 ∧ x.len = 0)) {i : Nat}
    (hi : i < inputRows y x) : InBounds y x i := by
  rw [inputRows_eq hlen hrows] at hi
  unfold InBounds
  constructor <;> split <;> omega

private theorem elementwise_length {op : BitVec w → BitVec w → Except Panic (BitVec w)}
    {rows : List (Option (BitVec w))} (h : elementwise op y x = .ok rows) :
    rows.length = max y.len x.len := by
  rw [← (mapM_eq_ok.mp h).length_eq, List.length_range]

private theorem elementwise_row {op : BitVec w → BitVec w → Except Panic (BitVec w)}
    {rows : List (Option (BitVec w))} (h : elementwise op y x = .ok rows) {i : Nat}
    (hi : i < max y.len x.len) :
    ∃ row, rows[i]? = some row ∧ elementwiseTurn op y x i = .ok row :=
  forall₂_getElem? (mapM_eq_ok.mp h) (List.getElem?_range hi)

private theorem elementwise_succeeds (op : BitVec w → BitVec w → Except Panic (BitVec w))
    (hlen : y.len = x.len ∨ y.len = 1 ∨ x.len = 1) (h : Divisible y x)
    (hop : ∀ a b, b ≠ 0 → ¬ (a = .intMin w ∧ b = -1) → Succeeds (op a b)) :
    ∃ rows, elementwise op y x = .ok rows := by
  refine Succeeds.mapM.mpr fun i hi => ?_
  rw [← inputRows_eq hlen h.rows, List.mem_range] at hi
  rcases turn_cases op (inBounds hlen h.rows hi) with ⟨-, hturn⟩ | ⟨a, b, ha, hb, hb0, hturn⟩
  · rw [hturn]
    exact Succeeds.ok none
  · rw [hturn, Succeeds.map]
    refine hop a b hb0 ?_
    rintro ⟨rfl, rfl⟩
    exact h.quotient i hi ⟨ha, hb⟩

private theorem div_eq {a b : BitVec w} (hb : b ≠ 0) (h : ¬ (a = .intMin w ∧ b = -1)) :
    div a b = .ok (a.sdiv b) := if_neg (not_or.mpr ⟨hb, h⟩)

private theorem rem_eq {a b : BitVec w} (hb : b ≠ 0) (h : ¬ (a = .intMin w ∧ b = -1)) :
    rem a b = .ok (a.srem b) := if_neg (not_or.mpr ⟨hb, h⟩)

private theorem law_of_divisible (hlen : y.len = x.len ∨ y.len = 1 ∨ x.len = 1)
    (h : Divisible y x) : DivModLaw y x := by
  obtain ⟨quotients, hdiv⟩ := elementwise_succeeds div hlen h
    fun a b hb hmin => ⟨_, div_eq hb hmin⟩
  obtain ⟨remainders, hmod⟩ := elementwise_succeeds rem hlen h
    fun a b hb hmin => ⟨_, rem_eq hb hmin⟩
  have hrows := inputRows_eq hlen h.rows
  refine ⟨quotients, remainders, hdiv, hmod, ?_, ?_, fun i q r hq hr => ?_⟩
  · rw [elementwise_length hdiv, hrows]
  · rw [elementwise_length hmod, hrows]
  · have hi : i < inputRows y x := by
      rw [hrows, ← elementwise_length hdiv]
      exact (List.getElem?_eq_some_iff.mp hq).1
    have hbounds := inBounds hlen h.rows hi
    obtain ⟨q', hq', hquotient⟩ := elementwise_row hdiv (hrows ▸ hi)
    obtain ⟨r', hr', hremainder⟩ := elementwise_row hmod (hrows ▸ hi)
    cases hq.symm.trans hq'
    cases hr.symm.trans hr'
    rcases turn_cases div hbounds with ⟨hnull, hturn⟩ | ⟨a, b, ha, hb, hb0, hturn⟩
    · cases hquotient.symm.trans hturn
      cases hremainder.symm.trans (turn_null hbounds hnull)
      refine ⟨iff_of_true rfl hnull, iff_of_true rfl hnull, ?_⟩
      rintro a b q r - - ⟨⟩
    · have hmin : ¬ (a = .intMin w ∧ b = -1) := by
        rintro ⟨rfl, rfl⟩
        exact h.quotient i hi ⟨ha, hb⟩
      have hnull : ¬ (y.operand i = none ∨ x.operand i = none ∨ x.operand i = some 0) := by
        rw [ha, hb]
        simpa using hb0
      rw [div_eq hb0 hmin] at hturn
      cases hquotient.symm.trans hturn
      have hturn' := turn_some rem hbounds ha hb hb0
      rw [rem_eq hb0 hmin] at hturn'
      cases hremainder.symm.trans hturn'
      refine ⟨iff_of_false (Option.some_ne_none _) hnull,
        iff_of_false (Option.some_ne_none _) hnull, ?_⟩
      rintro a' b' q r ha' hb' ⟨⟩ ⟨⟩
      cases ha.symm.trans ha'
      cases hb.symm.trans hb'
      exact sdiv_srem_law hb0 hmin

private theorem divisible_of_law (hone : (-1 : BitVec w) ≠ 0)
    (hlen : y.len = x.len ∨ y.len = 1 ∨ x.len = 1)
    (h : DivModLaw y x) : Divisible y x := by
  obtain ⟨quotients, remainders, hdiv, -, hlength, -, -⟩ := h
  have hmax := elementwise_length hdiv
  rw [hlength, inputRows] at hmax
  have hrows : ¬ (y.len = 0 ∧ x.len = 1) ∧ ¬ (y.len = 1 ∧ x.len = 0) := by
    split at hmax <;> omega
  refine ⟨hrows, ?_⟩
  rintro i hi ⟨ha, hb⟩
  have hturn := turn_some div (inBounds hlen hrows hi) ha hb hone
  obtain ⟨row, -, hrow⟩ := elementwise_row hdiv (inputRows_eq hlen hrows ▸ hi)
  rw [hturn, div, if_pos (.inr ⟨rfl, rfl⟩)] at hrow
  cases hrow

end Rows

/-- The law holds of two arrays that can be broadcast exactly where no row divides the smallest
value by minus one and neither array is empty beside one of one row. -/
theorem divModLaw_iff (t : IntType) (y x : PrimitiveArray (BitVec t.bits))
    (hlen : y.len = x.len ∨ y.len = 1 ∨ x.len = 1) : DivModLaw y x ↔ Divisible y x :=
  ⟨divisible_of_law (by cases t <;> decide) hlen, law_of_divisible hlen⟩

section Examples

/-- Rows without a validity buffer. -/
def PrimitiveArray.ofValues {α : Type} (values : List α) : PrimitiveArray α :=
  ⟨values, none, by rintro _ ⟨⟩⟩

/-- `(9, 4)`, `(-9, 4)` and `(9, 0)`. -/
theorem nine_divModLaw : DivModLaw (w := IntType.int32.bits)
    (.ofValues [9, -9, 9]) (.ofValues [4, 4, 0]) :=
  (divModLaw_iff .int32 (.ofValues [9, -9, 9]) (.ofValues [4, 4, 0]) (.inl rfl)).mpr
    ⟨by decide, by decide⟩

/-- The smallest `i64` divided by minus one. -/
theorem minByMinusOne_panics : ¬ ∀ (t : IntType) (y x : PrimitiveArray (BitVec t.bits)),
    y.len = x.len ∨ y.len = 1 ∨ x.len = 1 → DivModLaw y x := by
  intro h
  obtain ⟨quotients, -, hdiv, -⟩ :=
    h .int64 (.ofValues [.intMin 64]) (.ofValues [-1]) (.inl rfl)
  cases hdiv

end Examples
end DatafusionPostgres.PgFunctions
