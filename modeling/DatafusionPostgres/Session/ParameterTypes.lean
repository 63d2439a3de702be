import DatafusionPostgres.Library.Success
import DatafusionPostgres.Session.Handlers
import Mathlib.Data.List.Sort

/-! The types of the parameters by position, which the map of the placeholders gives
when there is no gap between them. -/
namespace DatafusionPostgres.Session
open ArrowPg Library

section GetParameterTypes
variable {E : Engine}

def announcedType : Option DataType → PgWireResult PgType
  | some datatype => intoPgType datatype
  | none => .ok .unknown

/-- `QueryParser::get_parameter_types`. -/
def getParameterTypes : DfStatement E → PgWireResult (List PgType)
  | (_, some (_, plan)) =>
    match getInferredParameterTypes E plan with
    | .error error => .error (apiError error)
    | .ok params => (orderedParamTypes params).mapM announcedType
  | (_, none) => .ok []

end GetParameterTypes

/-- The id of a placeholder, such as `$1`. -/
def placeholder (k : Nat) : String := "$" ++ toString k

/-- Each parameter is announced and decoded as the type recorded for its placeholder. -/
structure PositionalTypes (types : HashMap String (Option DataType)) : Prop where
  ordered : ∀ k recorded, 1 ≤ k → types.get (placeholder k) = some recorded →
    (orderedParamTypes types)[k - 1]? = some recorded
  announced : ∀ (E : Engine) (query : String) (statement : Statement) (plan : E.Plan) pgTypes,
    getInferredParameterTypes E plan = .ok types →
    getParameterTypes (query, some (statement, plan)) = .ok pgTypes →
    ∀ k recorded, 1 ≤ k → types.get (placeholder k) = some recorded →
      ∃ pgType, pgTypes[k - 1]? = some pgType ∧ announcedType recorded = .ok pgType
  decoded : ∀ (libs : ParamLibraries) (portal : Portal) k recorded, 1 ≤ k →
    types.get (placeholder k) = some recorded → ∀ param,
      portal.parameters[k - 1]? = some param →
      parameterTurn libs portal (orderedParamTypes types) (param, k - 1) = (do
        let pgType ← orErr (getPgType portal.parameterTypes[k - 1]?.join recorded)
        deserializeParameter libs param pgType recorded)

/-- Every key is the id of a placeholder. -/
def PlaceholderKeys (types : HashMap String (Option DataType)) : Prop :=
  ∀ key ∈ types.keys, ∃ k, 1 ≤ k ∧ key = placeholder k

/-- Below a placeholder of the map there are all others. -/
def NoGap (types : HashMap String (Option DataType)) : Prop :=
  ∀ k, 1 ≤ k → placeholder (k + 1) ∈ types.keys → placeholder k ∈ types.keys

theorem placeholderNumber_placeholder (k : Nat) :
    placeholderNumber (placeholder k) = if k < UInt32.size then k else UInt32.size - 1 := by
  have hkey : (placeholder k).toList.dropWhile (· == '$') = Nat.toDigits 10 k := by
    have hlist : (placeholder k).toList = '$' :: Nat.toDigits 10 k := by
      simp [placeholder, String.toList_append, Nat.toString_eq_repr]
    rw [hlist, List.dropWhile_cons_of_pos (by rfl)]
    cases hdigits : Nat.toDigits 10 k with
    | nil => rfl
    | cons c cs =>
      have hc : c.isDigit = true := Nat.isDigit_of_mem_toDigits (by decide) (by decide)
        (hdigits ▸ List.mem_cons_self)
      rw [List.dropWhile_cons_of_neg]
      intro heq
      rw [beq_iff_eq.mp heq] at hc
      exact absurd hc (by decide)
  rw [placeholderNumber, hkey, parseUnsigned_toDigits]
  split <;> rfl

theorem placeholder_injective : Function.Injective placeholder := by
  intro j k h
  have hdigits : Nat.toDigits 10 j = Nat.toDigits 10 k := by
    simpa [placeholder, String.toList_append, Nat.toString_eq_repr] using congrArg String.toList h
  rw [← Nat.ofDigitChars_ten_toDigits (n := j), hdigits, Nat.ofDigitChars_ten_toDigits]

section Ordered
variable {types : HashMap String (Option DataType)}

/-- The ids of the first `n` placeholders. -/
private def firstIds (n : Nat) : List String := (List.range n).map fun i => placeholder (i + 1)

private theorem firstIds_nodup (n : Nat) : (firstIds n).Nodup :=
  List.nodup_range.map fun _ _ h => Nat.succ.inj (placeholder_injective h)

private theorem mem_firstIds {k n : Nat} (hk : 1 ≤ k) : placeholder k ∈ firstIds n ↔ k ≤ n := by
  rw [firstIds, List.mem_map]
  constructor
  · rintro ⟨i, hi, heq⟩
    have := placeholder_injective heq
    have := List.mem_range.mp hi
    omega
  · intro hle
    exact ⟨k - 1, List.mem_range.mpr (by omega), by rw [Nat.sub_add_cancel hk]⟩

private theorem keys_perm (hform : PlaceholderKeys types)
    (hle : ∀ k, placeholder k ∈ types.keys → k ≤ types.keys.length) :
    types.keys.Perm (firstIds types.keys.length) := by
  have hsubset : types.keys ⊆ firstIds types.keys.length := by
    intro key hkey
    obtain ⟨k, hk, rfl⟩ := hform key hkey
    exact (mem_firstIds hk).mpr (hle k hkey)
  have hnodup : types.keys.Nodup := List.nodup_dedup _
  apply (List.subperm_of_subset hnodup hsubset).perm_of_length_le
  rw [firstIds, List.length_map, List.length_range]

private theorem le_of_noGap (hgap : NoGap types) {k : Nat} (hk : placeholder k ∈ types.keys) :
    k ≤ types.keys.length := by
  have hbelow : ∀ j, 1 ≤ j → j ≤ k → placeholder j ∈ types.keys := by
    intro j hj hjk
    induction hjk using Nat.decreasingInduction with
    | of_succ i hi ih => exact hgap i hj (ih (by omega))
    | self => exact hk
  have hsubset : firstIds k ⊆ types.keys := by
    intro key hkey
    obtain ⟨i, hi, rfl⟩ := List.mem_map.mp hkey
    exact hbelow (i + 1) (by omega) (List.mem_range.mp hi)
  have hlength := (List.subperm_of_subset (firstIds_nodup k) hsubset).length_le
  simpa [firstIds] using hlength

private theorem sorted_keys {n : Nat} (hperm : types.keys.Perm (firstIds n))
    (hn : n < UInt32.size) :
    (types.keys.mergeSort fun k k' => placeholderNumber k ≤ placeholderNumber k') = firstIds n := by
  have hnumber : ∀ i < n, placeholderNumber (placeholder (i + 1)) = i + 1 := by
    intro i hi
    rw [placeholderNumber_placeholder, if_pos (by omega)]
  apply ((List.mergeSort_perm _ _).trans hperm).eq_of_pairwise _ (List.pairwise_mergeSort _ _ _)
  · rw [firstIds, List.pairwise_map]
    apply List.pairwise_lt_range.imp_of_mem
    intro i j hi hj hij
    rw [decide_eq_true_eq, hnumber i (List.mem_range.mp hi), hnumber j (List.mem_range.mp hj)]
    omega
  · intro key key' hkey hkey' hle hle'
    rw [List.mem_mergeSort, hperm.mem_iff] at hkey
    obtain ⟨i, hi, rfl⟩ := List.mem_map.mp hkey
    obtain ⟨j, hj, rfl⟩ := List.mem_map.mp hkey'
    rw [decide_eq_true_eq, hnumber i (List.mem_range.mp hi),
      hnumber j (List.mem_range.mp hj)] at hle hle'
    rw [Nat.le_antisymm hle hle']
  · intro a b c hab hbc
    rw [decide_eq_true_eq] at *
    exact hab.trans hbc
  · intro a b
    rw [Bool.or_eq_true, decide_eq_true_eq, decide_eq_true_eq]
    exact Nat.le_total _ _

theorem length_orderedParamTypes : (orderedParamTypes types).length = types.keys.length := by
  simp [orderedParamTypes]

private theorem get_mem_keys {key : String} {recorded : Option DataType}
    (h : types.get key = some recorded) : key ∈ types.keys := (types.mem_keys_iff key).mpr ⟨_, h⟩

private theorem ordered_of_noGap (hform : PlaceholderKeys types) (hgap : NoGap types)
    (hsize : types.keys.length < UInt32.size) {k : Nat} {recorded : Option DataType} (hk : 1 ≤ k)
    (hget : types.get (placeholder k) = some recorded) :
    (orderedParamTypes types)[k - 1]? = some recorded := by
  have hle := le_of_noGap hgap (get_mem_keys hget)
  have hperm := keys_perm hform fun k hk => le_of_noGap hgap hk
  rw [orderedParamTypes, sorted_keys hperm hsize, firstIds, List.map_map, List.getElem?_map,
    List.getElem?_range (by omega), Option.map_some]
  simp [Nat.sub_add_cancel hk, hget]

private theorem noGap_of_ordered (hform : PlaceholderKeys types)
    (hordered : ∀ k recorded, 1 ≤ k → types.get (placeholder k) = some recorded →
      (orderedParamTypes types)[k - 1]? = some recorded) : NoGap types := by
  have hle : ∀ k, placeholder k ∈ types.keys → k ≤ types.keys.length := by
    intro k hk
    rcases Nat.eq_zero_or_pos k with rfl | hpos
    · exact Nat.zero_le _
    · obtain ⟨recorded, hget⟩ := (types.mem_keys_iff _).mp hk
      have hlt := (List.getElem?_eq_some_iff.mp (hordered k recorded hpos hget)).1
      rw [length_orderedParamTypes] at hlt
      omega
  have hperm := keys_perm hform hle
  intro k hk hnext
  rw [hperm.mem_iff, mem_firstIds hk]
  have := hle (k + 1) hnext
  omega

private theorem positional_of_ordered
    (hordered : ∀ k recorded, 1 ≤ k → types.get (placeholder k) = some recorded →
      (orderedParamTypes types)[k - 1]? = some recorded) : PositionalTypes types where
  ordered := hordered
  announced := by
    intro E query statement plan pgTypes hinferred hannounced k recorded hk hget
    simp only [getParameterTypes, hinferred] at hannounced
    obtain ⟨pgType, hpgType, hann⟩ :=
      forall₂_getElem? (mapM_eq_ok.mp hannounced) (hordered k recorded hk hget)
    exact ⟨pgType, hpgType, hann⟩
  decoded := by
    intro libs portal k recorded hk hget param _
    simp only [parameterTurn, parameterPgType, hordered k recorded hk hget, Option.join_some]

end Ordered

/-- The types are positional when there is no gap between the placeholders, and then only. -/
theorem positionalTypes_iff (types : HashMap String (Option DataType))
    (hform : PlaceholderKeys types) :
    (NoGap types ∧ types.keys.length < UInt32.size → PositionalTypes types) ∧
      (PositionalTypes types → NoGap types) := by
  constructor
  · rintro ⟨hgap, hsize⟩
    exact positional_of_ordered fun k recorded hk hget =>
      ordered_of_noGap hform hgap hsize hk hget
  · intro h
    exact noGap_of_ordered hform h.ordered

section Examples

/-- Two placeholders, the second met first. -/
def twoPlaceholders : HashMap String (Option DataType) :=
  ⟨[(placeholder 2, some .int64), (placeholder 1, some .boolean)]⟩

theorem twoPlaceholders_positional : PositionalTypes twoPlaceholders := by
  refine (positionalTypes_iff twoPlaceholders ?_).1 ⟨?_, by decide⟩
  · intro key hkey
    rcases List.mem_cons.mp hkey with rfl | hkey
    · exact ⟨2, by decide, rfl⟩
    · exact ⟨1, by decide, List.mem_singleton.mp hkey⟩
  · rintro (_ | _ | k) hk hnext
    · cases hk
    · decide
    · rcases List.mem_cons.mp hnext with heq | heq
      · have := placeholder_injective heq
        omega
      · have := placeholder_injective (List.mem_singleton.mp heq)
        omega

/-- The placeholders of `SELECT $1, $3`. -/
def gapAfterFirst : HashMap String (Option DataType) :=
  ⟨[(placeholder 1, some .int32), (placeholder 3, some .utf8)]⟩

theorem gapAfterFirst_not_positional :
    ¬ ∀ types : HashMap String (Option DataType), PlaceholderKeys types →
      PositionalTypes types := by
  intro h
  have hform : PlaceholderKeys gapAfterFirst := by
    intro key hkey
    rcases List.mem_cons.mp hkey with rfl | hkey
    · exact ⟨1, by decide, rfl⟩
    · exact ⟨3, by decide, List.mem_singleton.mp hkey⟩
  have hthird := (h gapAfterFirst hform).ordered 3 (some .utf8) (by decide) rfl
  have hlt := (List.getElem?_eq_some_iff.mp hthird).1
  rw [length_orderedParamTypes] at hlt
  exact absurd hlt (by decide)

end Examples
end DatafusionPostgres.Session
