import Mathlib.Data.List.Forall2

/-! Replacement of the matches of patterns in a sequence, from left to right and without overlap;
where several patterns match, the first of the list wins. -/
namespace DatafusionPostgres.Library

variable {π α : Type}

/-- The sequence begins with symbols that the pattern fits one by one. -/
def Begins (fits : π → α → Prop) (pattern : List π) (symbols : List α) : Prop :=
  ∃ matched rest, List.Forall₂ fits pattern matched ∧ symbols = matched ++ rest

def NoneBegins (fits : π → α → Prop) (rules : List (List π × List α)) (symbols : List α) : Prop :=
  ∀ rule ∈ rules, rule.1 ≠ [] → ¬ Begins fits rule.1 symbols

/-- The first rule whose pattern begins the sequence, by its replacement and what is left. -/
inductive FirstMatch (fits : π → α → Prop) :
    List (List π × List α) → List α → List α → List α → Prop
  | here {pattern : List π} {replacement matched rest : List α} {rules : List (List π × List α)}
    (hne : pattern ≠ []) (hfits : List.Forall₂ fits pattern matched) :
    FirstMatch fits ((pattern, replacement) :: rules) (matched ++ rest) replacement rest
  | later {rule : List π × List α} {rules : List (List π × List α)}
    {symbols replacement rest : List α} (hrule : rule.1 ≠ [] → ¬ Begins fits rule.1 symbols)
    (hrest : FirstMatch fits rules symbols replacement rest) :
    FirstMatch fits (rule :: rules) symbols replacement rest

/-- The input splits into segments, each one symbol at which no pattern begins, copied, or the
match of the first pattern that begins there, replaced. -/
inductive Replaced (fits : π → α → Prop) (rules : List (List π × List α)) :
    List α → List α → Prop
  | done : Replaced fits rules [] []
  | copied {symbol : α} {symbols out : List α} (hnone : NoneBegins fits rules (symbol :: symbols))
    (hrest : Replaced fits rules symbols out) :
    Replaced fits rules (symbol :: symbols) (symbol :: out)
  | replaced {symbols replacement rest out : List α}
    (hfirst : FirstMatch fits rules symbols replacement rest)
    (hrest : Replaced fits rules rest out) : Replaced fits rules symbols (replacement ++ out)

/-- A position, by what follows it, at which a segment of the sequence starts. -/
inductive Scanned (fits : π → α → Prop) (rules : List (List π × List α)) :
    List α → List α → Prop
  | here {symbols : List α} : Scanned fits rules symbols symbols
  | copied {symbol : α} {symbols later : List α}
    (hnone : NoneBegins fits rules (symbol :: symbols)) (hrest : Scanned fits rules symbols later) :
    Scanned fits rules (symbol :: symbols) later
  | replaced {symbols replacement rest later : List α}
    (hfirst : FirstMatch fits rules symbols replacement rest)
    (hrest : Scanned fits rules rest later) : Scanned fits rules symbols later

variable {fits : π → α → Prop} {rules : List (List π × List α)} {symbols : List α}

theorem Begins.length_le {pattern : List π} (h : Begins fits pattern symbols) :
    pattern.length ≤ symbols.length := by
  obtain ⟨matched, rest, hfits, rfl⟩ := h
  rw [hfits.length_eq, List.length_append]
  exact Nat.le_add_right _ _

theorem not_begins_nil {pattern : List π} (hne : pattern ≠ []) : ¬ Begins fits pattern [] := by
  intro h
  exact hne (List.length_eq_zero_iff.mp (Nat.le_zero.mp h.length_le))

theorem begins_cons {p : π} {pattern : List π} {symbol : α} :
    Begins fits (p :: pattern) (symbol :: symbols) ↔ fits p symbol ∧ Begins fits pattern symbols := by
  constructor
  · rintro ⟨matched, rest, hfits, heq⟩
    cases hfits with
    | cons hfit hfits =>
      obtain ⟨rfl, rfl⟩ := List.cons.inj heq
      exact ⟨hfit, _, rest, hfits, rfl⟩
  · rintro ⟨hfit, matched, rest, hfits, rfl⟩
    exact ⟨symbol :: matched, rest, .cons hfit hfits, rfl⟩

theorem noneBegins_cons {rule : List π × List α} :
    NoneBegins fits (rule :: rules) symbols ↔
      (rule.1 ≠ [] → ¬ Begins fits rule.1 symbols) ∧ NoneBegins fits rules symbols :=
  List.forall_mem_cons

theorem FirstMatch.length_lt {replacement rest : List α}
    (h : FirstMatch fits rules symbols replacement rest) : rest.length < symbols.length := by
  induction h with
  | @here pattern _ matched _ _ hne hfits =>
    have hpos : 0 < matched.length := hfits.length_eq ▸ List.length_pos_iff.mpr hne
    rw [List.length_append]
    exact Nat.lt_add_of_pos_left hpos
  | later _ _ ih => exact ih

theorem FirstMatch.not_noneBegins {replacement rest : List α}
    (h : FirstMatch fits rules symbols replacement rest) : ¬ NoneBegins fits rules symbols := by
  induction h with
  | here hne hfits => exact fun hnone => (noneBegins_cons.mp hnone).1 hne ⟨_, _, hfits, rfl⟩
  | later _ _ ih => exact fun hnone => ih (noneBegins_cons.mp hnone).2

theorem FirstMatch.unique {replacement replacement' rest rest' : List α}
    (h : FirstMatch fits rules symbols replacement rest)
    (h' : FirstMatch fits rules symbols replacement' rest') :
    replacement = replacement' ∧ rest = rest' := by
  induction h with
  | @here pattern _ matched _ _ hne hfits =>
    generalize hs : matched ++ _ = symbols' at h'
    cases h' with
    | here _ hfits' =>
      have hlength := hfits.length_eq.symm.trans hfits'.length_eq
      exact ⟨rfl, (List.append_inj hs hlength).2⟩
    | later hrule _ => exact absurd ⟨matched, _, hfits, hs.symm⟩ (hrule hne)
  | later hrule _ ih =>
    cases h' with
    | here hne hfits => exact absurd ⟨_, _, hfits, rfl⟩ (hrule hne)
    | later _ hrest' => exact ih hrest'

/-- There is one way to replace. -/
theorem Replaced.unique {out out' : List α} (h : Replaced fits rules symbols out)
    (h' : Replaced fits rules symbols out') : out = out' := by
  induction h generalizing out' with
  | done =>
    generalize hs : ([] : List α) = symbols at h'
    cases h' with
    | done => rfl
    | copied => cases hs
    | replaced hfirst _ => exact absurd (hs ▸ hfirst).length_lt (Nat.not_lt_zero _)
  | copied hnone _ ih =>
    cases h' with
    | copied _ hrest' => rw [ih hrest']
    | replaced hfirst _ => exact absurd hnone hfirst.not_noneBegins
  | replaced hfirst _ ih =>
    cases h' with
    | done => exact absurd hfirst.length_lt (Nat.not_lt_zero _)
    | copied hnone' _ => exact absurd hnone' hfirst.not_noneBegins
    | replaced hfirst' hrest' =>
      obtain ⟨rfl, rfl⟩ := hfirst.unique hfirst'
      rw [ih hrest']

end DatafusionPostgres.Library
