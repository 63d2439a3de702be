import Mathlib.Data.List.Forall2

/-! When a computation that may fail returns, by the way it is put together. -/
namespace DatafusionPostgres.Library

section Success
variable {ε α β : Type}

/-- The computation returns a value. -/
def Succeeds (x : Except ε α) : Prop := ∃ a, x = .ok a

namespace Succeeds

@[simp] theorem ok (a : α) : Succeeds (.ok a : Except ε α) := ⟨a, rfl⟩

@[simp] theorem not_error (e : ε) : ¬ Succeeds (.error e : Except ε α) := by
  rintro ⟨a, ha⟩
  cases ha

@[simp] theorem map {x : Except ε α} {f : α → β} : Succeeds (f <$> x) ↔ Succeeds x := by
  cases x with
  | ok a => exact iff_of_true ⟨f a, rfl⟩ ⟨a, rfl⟩
  | error e => exact iff_of_false (not_error e) (not_error e)

@[simp] theorem mapError {ε' : Type} {x : Except ε α} {f : ε → ε'} :
    Succeeds (x.mapError f) ↔ Succeeds x := by
  cases x with
  | ok a => exact iff_of_true ⟨a, rfl⟩ ⟨a, rfl⟩
  | error e => exact iff_of_false (not_error (f e)) (not_error e)

theorem bind {x : Except ε α} {f : α → Except ε β} :
    Succeeds (x >>= f) ↔ ∃ a, x = .ok a ∧ Succeeds (f a) := by
  cases x with
  | ok a =>
    constructor
    · exact fun h => ⟨a, rfl, h⟩
    · rintro ⟨a', ha, h⟩
      cases ha
      exact h
  | error e =>
    refine iff_of_false (not_error e) ?_
    rintro ⟨a, ha, -⟩
    cases ha

/-- A second computation that fails or not whatever the first one has returned. -/
theorem bind_of_const {x : Except ε α} {f : α → Except ε β} {p : Prop}
    (h : ∀ a, x = .ok a → (Succeeds (f a) ↔ p)) : Succeeds (x >>= f) ↔ Succeeds x ∧ p := by
  rw [bind]
  constructor
  · rintro ⟨a, ha, hf⟩
    exact ⟨⟨a, ha⟩, (h a ha).mp hf⟩
  · rintro ⟨⟨a, ha⟩, hp⟩
    exact ⟨a, ha, (h a ha).mpr hp⟩

end Succeeds

theorem bind_eq_ok {x : Except ε α} {f : α → Except ε β} {b : β} :
    x >>= f = .ok b ↔ ∃ a, x = .ok a ∧ f a = .ok b := by
  cases x with
  | ok a =>
    constructor
    · exact fun h => ⟨a, rfl, h⟩
    · rintro ⟨a', ha, h⟩
      cases ha
      exact h
  | error e =>
    constructor
    · intro h
      cases h
    · rintro ⟨a, ha, -⟩
      cases ha

/-- What a loop's step keeps, the loop keeps. -/
theorem foldlM_invariant {f : β → α → Except ε β} {P : β → Prop} {as : List α}
    (hstep : ∀ a ∈ as, ∀ b b', P b → f b a = .ok b' → P b') {b b' : β} (hb : P b)
    (h : as.foldlM f b = .ok b') : P b' := by
  induction as generalizing b with
  | nil =>
    cases h
    exact hb
  | cons a as ih =>
    rw [List.foldlM_cons] at h
    obtain ⟨b1, hread, hrest⟩ := bind_eq_ok.mp h
    exact ih (fun a ha => hstep a (.tail _ ha)) (hstep a List.mem_cons_self _ _ hb hread) hrest

/-- Turns that push one value each push the values. -/
theorem foldlM_singletons {turn : β → Except ε (List α)} {bs : List β} {vs : List α}
    (h : List.Forall₂ (fun b v => turn b = .ok [v]) bs vs) (acc : List α) :
    bs.foldlM (fun acc b => do let pushed ← turn b; return acc ++ pushed) acc = .ok (acc ++ vs) := by
  induction h generalizing acc with
  | nil =>
    rw [List.append_nil]
    rfl
  | @cons b v bs vs hb _ ih =>
    rw [List.foldlM_cons, hb]
    change List.foldlM _ (acc ++ [v]) bs = _
    rw [ih, List.append_assoc]
    rfl

theorem forall₂_getElem? {r : α → β → Prop} {as : List α} {bs : List β}
    (h : List.Forall₂ r as bs) {j : Nat} {a : α} (ha : as[j]? = some a) :
    ∃ b, bs[j]? = some b ∧ r a b := by
  induction h generalizing j with
  | nil => cases ha
  | cons hr _ ih =>
    cases j with
    | zero =>
      cases ha
      exact ⟨_, rfl, hr⟩
    | succ j => exact ih ha

theorem mapM_eq_ok {f : α → Except ε β} {as : List α} {bs : List β} :
    as.mapM f = .ok bs ↔ List.Forall₂ (fun a b => f a = .ok b) as bs := by
  induction as generalizing bs with
  | nil =>
    rw [List.mapM_nil]
    constructor
    · intro h
      cases h
      exact .nil
    · intro h
      cases h
      rfl
  | cons a as ih =>
    rw [List.mapM_cons]
    constructor
    · intro h
      cases ha : f a with
      | error e =>
        rw [ha] at h
        cases h
      | ok b =>
        cases has : as.mapM f with
        | error e =>
          rw [ha, has] at h
          cases h
        | ok bs' =>
          rw [ha, has] at h
          cases h
          exact .cons ha (ih.mp has)
    · rintro (_ | ⟨ha, has⟩)
      rw [ha, ih.mpr has]
      rfl

namespace Succeeds

theorem mapM {f : α → Except ε β} {as : List α} :
    Succeeds (as.mapM f) ↔ ∀ a ∈ as, Succeeds (f a) := by
  induction as with
  | nil => exact iff_of_true ⟨[], rfl⟩ (fun a ha => absurd ha List.not_mem_nil)
  | cons a as ih =>
    have hrest : ∀ b : β, f a = .ok b →
        (Succeeds (as.mapM f >>= fun bs => pure (b :: bs)) ↔ ∀ a' ∈ as, Succeeds (f a')) := by
      intro b _
      rw [bind_pure_comp, map, ih]
    rw [List.mapM_cons, bind_of_const hrest, List.forall_mem_cons]

/-- A loop whose steps fail or not whatever has been accumulated. -/
theorem foldlM {f : β → α → Except ε β} {as : List α} {p : α → Prop}
    (h : ∀ a ∈ as, ∀ b, Succeeds (f b a) ↔ p a) (b : β) :
    Succeeds (as.foldlM f b) ↔ ∀ a ∈ as, p a := by
  induction as generalizing b with
  | nil => exact iff_of_true ⟨b, rfl⟩ (fun a ha => absurd ha List.not_mem_nil)
  | cons a as ih =>
    rw [List.foldlM_cons, bind_of_const fun b' _ => ih (fun a' ha' => h a' (.tail _ ha')) b',
      h a List.mem_cons_self, List.forall_mem_cons]

end Succeeds

/-- The computation returns exactly when `p`, and what it returns is some `wrap a`. -/
def SucceedsAs (wrap : α → β) (x : Except ε β) (p : Prop) : Prop :=
  ∃ value : Except ε α, x = wrap <$> value ∧ (Succeeds value ↔ p)

namespace SucceedsAs
variable {wrap : α → β} {x : Except ε β} {p q : Prop}

theorem ok (a : α) (hp : p) : SucceedsAs wrap (.ok (wrap a) : Except ε β) p :=
  ⟨.ok a, rfl, iff_of_true ⟨a, rfl⟩ hp⟩

theorem error (e : ε) (hp : ¬ p) : SucceedsAs wrap (.error e) p :=
  ⟨.error e, rfl, iff_of_false (Succeeds.not_error e) hp⟩

theorem map (value : Except ε α) : SucceedsAs wrap (wrap <$> value) (Succeeds value) :=
  ⟨value, rfl, Iff.rfl⟩

theorem bind_pure (value : Except ε α) :
    SucceedsAs wrap (value >>= fun a => pure (wrap a)) (Succeeds value) :=
  ⟨value, bind_pure_comp wrap value, Iff.rfl⟩

theorem of_comp {γ : Type} (inner : γ → α) (h : SucceedsAs (fun c => wrap (inner c)) x p) :
    SucceedsAs wrap x p := by
  obtain ⟨value, hx, hvalue⟩ := h
  refine ⟨inner <$> value, ?_, Succeeds.map.trans hvalue⟩
  rw [hx, Functor.map_map]

theorem congr (h : SucceedsAs wrap x p) (hpq : p ↔ q) : SucceedsAs wrap x q := by
  obtain ⟨value, hx, hvalue⟩ := h
  exact ⟨value, hx, hvalue.trans hpq⟩

end SucceedsAs
end Success
end DatafusionPostgres.Library
