import Mathlib.Data.Set.Finite.Basic
import Mathlib.Logic.Relation
import Mathlib.Order.Preorder.Finite
import Mathlib.Order.WellFounded

/-! Short-circuit depth-first search with a depth bound and no visited set.
`none` means that the bound was met before an answer. -/
namespace DatafusionPostgres.Library
open Relation

section Search
variable {α : Type} (goal : α → Bool) (next : α → List α)

/-- The edge relation searched, from a node to a successor. -/
def Edge (a b : α) : Prop := b ∈ next a

def search : Nat → α → Option Bool
  | 0, _ => none
  | n + 1, a => if goal a then some true else (next a).anyM (search n)

variable {goal next}

theorem anyM_eq_some_true {f : α → Option Bool} {as : List α} (h : as.anyM f = some true) :
    ∃ a ∈ as, f a = some true := by
  induction as with
  | nil => simp at h
  | cons a as ih =>
    rw [List.anyM_cons] at h
    cases hf : f a with
    | none => simp [hf] at h
    | some b =>
      cases b with
      | true => exact ⟨a, List.mem_cons_self, hf⟩
      | false =>
        obtain ⟨b, hb, he⟩ := ih (by simpa [hf] using h)
        exact ⟨b, List.mem_cons_of_mem _ hb, he⟩

theorem anyM_eq_some_false {f : α → Option Bool} {as : List α} :
    as.anyM f = some false ↔ ∀ a ∈ as, f a = some false := by
  induction as with
  | nil => simp
  | cons a as ih =>
    rw [List.anyM_cons]
    cases hf : f a with
    | none => simp [hf]
    | some b => cases b <;> simp [hf, ih]

/-- A loop over answers that all arrive returns an answer. -/
theorem anyM_isSome {f : α → Option Bool} {as : List α} (h : ∀ a ∈ as, ∃ b, f a = some b) :
    ∃ b, as.anyM f = some b := by
  induction as with
  | nil => exact ⟨false, rfl⟩
  | cons a as ih =>
    obtain ⟨b, hb⟩ := h a List.mem_cons_self
    obtain ⟨c, hc⟩ := ih fun a' ha' => h a' (List.mem_cons_of_mem _ ha')
    rw [List.anyM_cons, hb]
    cases b with
    | true => exact ⟨true, rfl⟩
    | false => exact ⟨c, hc⟩

theorem anyM_mono {f g : α → Option Bool} {as : List α} {b : Bool}
    (hfg : ∀ a ∈ as, ∀ c, f a = some c → g a = some c) (h : as.anyM f = some b) :
    as.anyM g = some b := by
  induction as with
  | nil => exact h
  | cons a as ih =>
    rw [List.anyM_cons] at h ⊢
    cases hf : f a with
    | none => simp [hf] at h
    | some c =>
      rw [hfg a List.mem_cons_self c hf]
      rw [hf] at h
      cases c with
      | true => exact h
      | false => exact ih (fun a' ha' => hfg a' (List.mem_cons_of_mem _ ha')) h

/-- An answer does not change when the search may go deeper. -/
theorem search_mono {n m : Nat} {a : α} {b : Bool} (hnm : n ≤ m)
    (h : search goal next n a = some b) : search goal next m a = some b := by
  induction n generalizing m a b with
  | zero => cases h
  | succ n ih =>
    obtain ⟨m, rfl⟩ : ∃ k, m = k + 1 := ⟨m - 1, by omega⟩
    rw [search] at h ⊢
    split at h
    · rename_i hg
      rw [if_pos hg]
      exact h
    · rename_i hg
      rw [if_neg hg]
      exact anyM_mono (fun a' _ c hc => ih (by omega) hc) h

/-- A positive answer names a goal reached along edges. -/
theorem search_true {n : Nat} {a : α} (h : search goal next n a = some true) :
    ∃ b, ReflTransGen (Edge next) a b ∧ goal b = true := by
  induction n generalizing a with
  | zero => cases h
  | succ n ih =>
    rw [search] at h
    split at h
    · exact ⟨a, .refl, ‹_›⟩
    · obtain ⟨c, hc, he⟩ := anyM_eq_some_true h
      obtain ⟨b, hb, hg⟩ := ih he
      exact ⟨b, .head hc hb, hg⟩

/-- A negative answer excludes every node reached along edges. -/
theorem search_false {n : Nat} {a b : α} (h : search goal next n a = some false)
    (hb : ReflTransGen (Edge next) a b) : goal b = false := by
  induction hb using ReflTransGen.head_induction_on generalizing n with
  | refl =>
    cases n with
    | zero => cases h
    | succ n =>
      rw [search] at h
      split at h
      · cases h
      · simpa using ‹¬ goal b = true›
  | head hac _ ih =>
    cases n with
    | zero => cases h
    | succ n =>
      rw [search] at h
      split at h
      · cases h
      · exact ih (anyM_eq_some_false.mp h _ hac)

private theorem common_bound {as : List α} (h : ∀ a ∈ as, ∃ n b, search goal next n a = some b) :
    ∃ n, ∀ a ∈ as, ∃ b, search goal next n a = some b := by
  induction as with
  | nil => exact ⟨0, by simp⟩
  | cons a as ih =>
    obtain ⟨n, hn⟩ := ih fun a' ha' => h a' (List.mem_cons_of_mem _ ha')
    obtain ⟨m, b, hm⟩ := h a List.mem_cons_self
    refine ⟨max n m, fun a' ha' => ?_⟩
    rcases List.mem_cons.mp ha' with rfl | ha'
    · exact ⟨b, search_mono (le_max_right n m) hm⟩
    · obtain ⟨b', hb'⟩ := hn a' ha'
      exact ⟨b', search_mono (le_max_left n m) hb'⟩

/-- The search answers from every node below which there is no infinite path. -/
theorem search_terminates {a : α} (ha : Acc (fun x y => Edge next y x) a) :
    ∃ n b, search goal next n a = some b := by
  induction ha with
  | intro a _ ih =>
    obtain ⟨n, hn⟩ := common_bound ih
    obtain ⟨b, hb⟩ := anyM_isSome hn
    refine ⟨n + 1, ?_⟩
    rw [search]
    split
    · exact ⟨true, rfl⟩
    · exact ⟨b, hb⟩

theorem search_terminates_all (goal : α → Bool) {as : List α}
    (has : ∀ a ∈ as, Acc (fun x y => Edge next y x) a) :
    ∃ n, ∀ a ∈ as, ∃ b, search goal next n a = some b :=
  common_bound fun a ha => search_terminates (has a ha)

/-- No node is ever answered in a set of misses whose first successors stay in it. -/
theorem search_trapped {trap : α → Prop}
    (htrap : ∀ a, trap a → goal a = false ∧ ∃ b rest, next a = b :: rest ∧ trap b)
    (n : Nat) {a : α} (ha : trap a) : search goal next n a = none := by
  induction n generalizing a with
  | zero => rfl
  | succ n ih =>
    obtain ⟨hg, b, rest, hn, hb⟩ := htrap a ha
    rw [search, hg, hn, List.anyM_cons, ih hb]
    rfl

end Search

section Acyclic
variable {α : Type} {r r' : α → α → Prop} {x : α}

def Acyclic (r : α → α → Prop) : Prop := ∀ a, ¬ TransGen r a a

/-- Finitely many inner nodes and no cycle leave no infinite path. -/
theorem edge_wellFounded {next : α → List α} {inner : Set α} (hfin : inner.Finite)
    (hinner : ∀ a b, Edge next a b → a ∈ inner)
    (hacyclic : Acyclic (Edge next)) :
    WellFounded (fun x y => Edge next y x) := by
  have hsub : WellFounded (fun x y : inner => TransGen (Edge next) y.1 x.1) := by
    have := hfin.to_subtype
    have : IsTrans inner (fun x y : inner => TransGen (Edge next) y.1 x.1) :=
      ⟨fun _ _ _ hab hbc => hbc.trans hab⟩
    have : Std.Irrefl (fun x y : inner => TransGen (Edge next) y.1 x.1) :=
      ⟨fun x => hacyclic x.1⟩
    exact Finite.wellFounded_of_trans_of_irrefl _
  have hacc : ∀ x : inner, Acc (fun x y => Edge next y x) x.1 := by
    intro x
    induction x using hsub.induction with
    | _ x ih =>
      refine ⟨_, fun b hb => ?_⟩
      by_cases hm : b ∈ inner
      · exact ih ⟨b, hm⟩ (.single hb)
      · exact ⟨_, fun c hc => absurd (hinner b c hc) hm⟩
  refine ⟨fun a => ?_⟩
  by_cases hm : a ∈ inner
  · exact hacc ⟨a, hm⟩
  · exact ⟨_, fun c hc => absurd (hinner a c hc) hm⟩

theorem Acyclic.mono (h : Acyclic r) (hsub : ∀ a b, r' a b → r a b) : Acyclic r' :=
  fun a ha => h a (TransGen.mono hsub a a ha)

private theorem path_into_changed (hedge : ∀ a b, r' a b → r a b ∨ a = x)
    {a : α} (h : ReflTransGen r' a x) : ReflTransGen r a x := by
  induction h using ReflTransGen.head_induction_on with
  | refl => exact .refl
  | head hab _ ih =>
    rcases hedge _ _ hab with hr | rfl
    · exact .head hr ih
    · exact .refl

/-- New edges from one node to nodes that do not lead back to it close no cycle. -/
theorem Acyclic.of_edges_from (h : Acyclic r)
    (hedge : ∀ a b, r' a b → r a b ∨ (a = x ∧ ¬ ReflTransGen r b x)) : Acyclic r' := by
  have hpath : ∀ a, ReflTransGen r' a x → ReflTransGen r a x :=
    fun a => path_into_changed fun a b hab => (hedge a b hab).imp_right And.left
  have hsplit : ∀ a b, TransGen r' a b → TransGen r a b ∨
      ∃ p, ¬ ReflTransGen r p x ∧ ReflTransGen r' a x ∧ ReflTransGen r' p b := by
    intro a b hab
    induction hab with
    | single hab =>
      rcases hedge _ _ hab with hr | ⟨rfl, hp⟩
      · exact .inl (.single hr)
      · exact .inr ⟨_, hp, .refl, .refl⟩
    | tail hab hbc ih =>
      rcases ih with ht | ⟨p, hp, hax, hpb⟩
      · rcases hedge _ _ hbc with hr | ⟨rfl, hp⟩
        · exact .inl (ht.tail hr)
        · exact .inr ⟨_, hp, hab.to_reflTransGen, .refl⟩
      · exact .inr ⟨p, hp, hax, hpb.tail hbc⟩
  intro a ha
  rcases hsplit a a ha with ht | ⟨p, hp, hax, hpa⟩
  · exact h a ht
  · exact hp (hpath p (hpa.trans hax))

/-- A path keeps to the edges that are left, or it runs through a node whose edges were taken. -/
theorem path_kept_or_cut {cut : α → Prop} (hedge : ∀ a b, r a b → r' a b ∨ cut a)
    {a b : α} (h : ReflTransGen r a b) :
    ReflTransGen r' a b ∨ ∃ c, cut c ∧ ReflTransGen r a c ∧ ReflTransGen r c b := by
  induction h using ReflTransGen.head_induction_on with
  | refl => exact .inl .refl
  | head hac hcb ih =>
    rcases hedge _ _ hac with hkept | hcut
    · rcases ih with hpath | ⟨d, hcut, hcd, hdb⟩
      · exact .inl (.head hkept hpath)
      · exact .inr ⟨d, hcut, .head hac hcd, hdb⟩
    · exact .inr ⟨_, hcut, .refl, .head hac hcb⟩

end Acyclic
end DatafusionPostgres.Library
