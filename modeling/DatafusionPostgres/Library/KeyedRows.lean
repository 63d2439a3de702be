import Mathlib.Data.List.Nodup

/-! Tables made of rows that tell their key: joins on the key, and tables that hold
some rows for each key of a list. -/
namespace DatafusionPostgres.Library

section KeyedRows
variable {ρ κ υ : Type}

/-- Where keys do not repeat, a condition that means a row's key selects this row alone. -/
theorem filter_eq_singleton {keyOf : ρ → κ} {rows : List ρ} (hkeys : (rows.map keyOf).Nodup)
    {row : ρ} (hrow : row ∈ rows) {p : ρ → Bool}
    (hp : ∀ row' ∈ rows, p row' = true ↔ keyOf row' = keyOf row) : rows.filter p = [row] := by
  induction rows with
  | nil => cases hrow
  | cons first rows ih =>
    rw [List.map_cons, List.nodup_cons] at hkeys
    have hrest : ∀ row' ∈ rows, p row' = true ↔ keyOf row' = keyOf row :=
      fun row' hrow' => hp row' (List.mem_cons_of_mem _ hrow')
    rcases List.mem_cons.mp hrow with rfl | hmem
    · have hnone : rows.filter p = [] := by
        rw [List.filter_eq_nil_iff]
        intro row' hrow' hsel
        exact hkeys.1 (List.mem_map.mpr ⟨row', hrow', (hrest row' hrow').mp hsel⟩)
      rw [List.filter_cons_of_pos ((hp row List.mem_cons_self).mpr rfl), hnone]
    · have hne : ¬ p first = true := by
        intro hsel
        have heq := (hp first List.mem_cons_self).mp hsel
        exact hkeys.1 (List.mem_map.mpr ⟨row, hmem, heq.symm⟩)
      rw [List.filter_cons_of_neg hne, ih hkeys.2 hmem hrest]

/-- A column that tells the keys apart repeats no more than they do. -/
theorem nodup_map_of_keys {ι : Type} {keyOf : ρ → κ} {idOf : ρ → ι} {rows : List ρ}
    (hkeys : (rows.map keyOf).Nodup)
    (hid : ∀ row ∈ rows, ∀ row' ∈ rows, idOf row = idOf row' → keyOf row = keyOf row') :
    (rows.map idOf).Nodup := by
  apply (List.Nodup.of_map keyOf hkeys).map_on
  intro row hrow row' hrow' heq
  exact List.inj_on_of_nodup_map hkeys hrow hrow' (hid row hrow row' hrow' heq)

/-- The rows of a table that holds the values `values k` for each key `k`. -/
def keyed (values : κ → List υ) (keys : List κ) : List (κ × υ) :=
  keys.flatMap fun k => (values k).map (Prod.mk k)

variable {values : κ → List υ} {keys : List κ} {k : κ} {v : υ}

theorem mem_keyed : (k, v) ∈ keyed values keys ↔ k ∈ keys ∧ v ∈ values k := by
  simp only [keyed, List.mem_flatMap, List.mem_map, Prod.mk.injEq]
  constructor
  · rintro ⟨k', hk, v', hv, rfl, rfl⟩
    exact ⟨hk, hv⟩
  · rintro ⟨hk, hv⟩
    exact ⟨k, hk, v, hv, rfl, rfl⟩

theorem keyed_flatMap {α : Type} (as : List α) (f : α → List κ) :
    keyed values (as.flatMap f) = as.flatMap fun a => keyed values (f a) := by
  unfold keyed
  rw [List.flatMap_assoc]

theorem keyed_map {α : Type} (as : List α) (f : α → κ) :
    keyed values (as.map f) = as.flatMap fun a => (values (f a)).map (Prod.mk (f a)) := by
  unfold keyed
  rw [List.flatMap_map]

/-- The rows of one key are its values, in their order. -/
theorem filter_keyed [DecidableEq κ] (hkeys : keys.Nodup) (hk : k ∈ keys) :
    (keyed values keys).filter (fun row => row.1 = k) = (values k).map (Prod.mk k) := by
  have hself : ∀ k', ((values k').map (Prod.mk k')).filter (fun row => row.1 = k) =
      if k' = k then (values k').map (Prod.mk k') else [] := by
    intro k'
    rw [List.filter_map]
    by_cases h : k' = k <;> simp [Function.comp_def, h]
  induction keys with
  | nil => cases hk
  | cons first keys ih =>
    rw [List.nodup_cons] at hkeys
    change ((values first).map (Prod.mk first) ++ keyed values keys).filter _ = _
    rw [List.filter_append, hself]
    by_cases h : first = k
    · subst h
      have hnone : (keyed values keys).filter (fun row => row.1 = first) = [] := by
        rw [List.filter_eq_nil_iff]
        rintro ⟨k', v⟩ hrow hsel
        have heq : k' = first := by simpa using hsel
        exact hkeys.1 (heq ▸ (mem_keyed.mp hrow).1)
      rw [if_pos rfl, hnone, List.append_nil]
    · have hmem : k ∈ keys := (List.mem_cons.mp hk).resolve_left (Ne.symm h)
      rw [if_neg h, List.nil_append, ih hkeys.2 hmem]

/-- One value a key at most: the keys of the rows do not repeat. -/
theorem keyed_keys_nodup (hkeys : keys.Nodup) (hone : ∀ k, (values k).length ≤ 1) :
    ((keyed values keys).map Prod.fst).Nodup := by
  induction keys with
  | nil => exact List.nodup_nil
  | cons first keys ih =>
    rw [List.nodup_cons] at hkeys
    change (((values first).map (Prod.mk first) ++ keyed values keys).map Prod.fst).Nodup
    have hlater : first ∉ (keyed values keys).map Prod.fst := by
      intro hmem
      obtain ⟨⟨k, v⟩, hrow, heq⟩ := List.mem_map.mp hmem
      exact hkeys.1 (heq ▸ (mem_keyed.mp hrow).1)
    match hv : values first with
    | [] => simpa using ih hkeys.2
    | [v] => simpa using ⟨by simpa using hlater, ih hkeys.2⟩
    | _ :: _ :: _ =>
      have hlen := hone first
      rw [hv] at hlen
      simp at hlen

/-- One value for each key: the keys of the rows are the keys of the table. -/
theorem keyed_keys (hone : ∀ k ∈ keys, (values k).length = 1) :
    (keyed values keys).map Prod.fst = keys := by
  induction keys with
  | nil => rfl
  | cons first keys ih =>
    obtain ⟨v, hv⟩ := List.length_eq_one_iff.mp (hone first List.mem_cons_self)
    change ((values first).map (Prod.mk first) ++ keyed values keys).map Prod.fst = _
    rw [hv, List.map_append, ih fun k hk => hone k (List.mem_cons_of_mem first hk)]
    rfl

end KeyedRows

section Joins
variable {ρ ρ' γ : Type} (on : ρ → ρ' → Bool)

def innerJoin (rows : List ρ) (others : List ρ') : List (ρ × ρ') :=
  rows.flatMap fun row => (others.filter (on row)).map (Prod.mk row)

variable {on} {rows : List ρ} {others : List ρ'}

/-- Where each row has one partner, the join has one row for it. -/
theorem map_innerJoin {out : ρ → γ} {view : ρ × ρ' → γ}
    (h : ∀ row ∈ rows, ∃ other, others.filter (on row) = [other] ∧ view (row, other) = out row) :
    (innerJoin on rows others).map view = rows.map out := by
  induction rows with
  | nil => rfl
  | cons row rows ih =>
    obtain ⟨other, hother, hview⟩ := h row List.mem_cons_self
    change ((others.filter (on row)).map (Prod.mk row) ++ innerJoin on rows others).map view = _
    rw [List.map_append, ih fun row' hrow' => h row' (List.mem_cons_of_mem row hrow'), hother,
      List.map_cons (f := out), ← hview]
    rfl

theorem length_le_innerJoin (h : ∀ row ∈ rows, others.filter (on row) ≠ []) :
    rows.length ≤ (innerJoin on rows others).length := by
  induction rows with
  | nil => exact Nat.zero_le _
  | cons row rows ih =>
    change _ ≤ ((others.filter (on row)).map (Prod.mk row) ++ innerJoin on rows others).length
    have hpos := List.length_pos_iff.mpr (h row List.mem_cons_self)
    have hrest := ih fun row' hrow' => h row' (List.mem_cons_of_mem row hrow')
    rw [List.length_append, List.length_map, List.length_cons]
    omega

/-- A join that is no longer than its left side has one partner for each row that has any. -/
theorem one_partner (h : ∀ row ∈ rows, others.filter (on row) ≠ [])
    (hlength : (innerJoin on rows others).length = rows.length) :
    ∀ row ∈ rows, (others.filter (on row)).length = 1 := by
  induction rows with
  | nil => exact fun row hrow => absurd hrow List.not_mem_nil
  | cons row rows ih =>
    have hrows : ∀ row ∈ rows, others.filter (on row) ≠ [] :=
      fun row' hrow' => h row' (List.mem_cons_of_mem row hrow')
    have hpos := List.length_pos_iff.mpr (h row List.mem_cons_self)
    have hrest := length_le_innerJoin hrows
    change ((others.filter (on row)).map (Prod.mk row) ++ innerJoin on rows others).length = _
      at hlength
    rw [List.length_append, List.length_map, List.length_cons] at hlength
    exact List.forall_mem_cons.mpr ⟨by omega, ih hrows (by omega)⟩

end Joins
end DatafusionPostgres.Library
