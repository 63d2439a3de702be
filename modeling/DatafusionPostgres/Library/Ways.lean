import DatafusionPostgres.Library.Visiting

/-! Ways down a tree with a label for each step, and what visitors make of them. -/
namespace DatafusionPostgres.Library
open Forms Trees

variable {κ : Type} {N : κ → Type} {F : (κ → Type) → κ → Type} [Trees N F]

section Ways
variable {L : Type} (label : (Σ k, N k) → L)

/-- The steps down from one node to another: the label of the node that a step leaves, and the
index of the part that it goes to. -/
inductive Way : (Σ k, N k) → List (L × Nat) → (Σ k, N k) → Prop
  | here (n : Σ k, N k) : Way n [] n
  | down {n c m : Σ k, N k} {i : Nat} {way : List (L × Nat)} :
    (children n.2)[i]? = some c → Way c way m → Way n ((label n, i) :: way) m

/-- The labels along a way down. -/
def wayOf : (Σ k, N k) → List Nat → List (L × Nat)
  | _, [] => []
  | n, i :: path => (label n, i) :: (children n.2)[i]?.elim [] fun c => wayOf c path

variable {label} {n m c : Σ k, N k}

theorem way_wayOf {path : List Nat} (h : nodeAt n path = some m) :
    Way label n (wayOf label n path) m ∧ (wayOf label n path).map Prod.snd = path := by
  induction path generalizing n with
  | nil =>
    cases h
    exact ⟨.here m, rfl⟩
  | cons i path ih =>
    obtain ⟨c, hc, h⟩ := Option.bind_eq_some_iff.mp h
    obtain ⟨hway, hpath⟩ := ih h
    rw [wayOf, hc]
    exact ⟨.down hc hway, congrArg (i :: ·) hpath⟩

theorem Way.nodeAt {way : List (L × Nat)} (h : Way label n way m) :
    nodeAt n (way.map Prod.snd) = some m := by
  induction h with
  | here n => rfl
  | down hc _ ih =>
    rw [List.map_cons, Library.nodeAt, hc]
    exact ih

theorem Way.of_cons {step : L × Nat} {way : List (L × Nat)} (h : Way label n (step :: way) m) :
    label n = step.1 ∧ ∃ c, (children n.2)[step.2]? = some c ∧ Way label c way m := by
  cases h with
  | down hc hway => exact ⟨rfl, _, hc, hway⟩

theorem Way.cons {step : L × Nat} {way : List (L × Nat)} (hlabel : label n = step.1)
    (hc : (children n.2)[step.2]? = some c) (h : Way label c way m) :
    Way label n (step :: way) m := by
  obtain ⟨l, i⟩ := step
  cases hlabel
  exact .down hc h

/-- A node without parts is the end of every way through it. -/
theorem Way.eq_of_leaf {way : List (L × Nat)} (h : Way label n way m)
    (hleaf : children n.2 = []) : n = m := by
  cases h with
  | here => rfl
  | down hc _ =>
    rw [hleaf] at hc
    cases hc

/-- Only the label and the parts of the node matter for a way that leaves it. -/
theorem Way.of_children {n' : Σ k, N k} {step : L × Nat} {way : List (L × Nat)}
    (h : Way label n (step :: way) m) (hlabel : label n' = label n)
    (hchildren : children n'.2 = children n.2) : Way label n' (step :: way) m := by
  obtain ⟨hstep, c, hc, hway⟩ := h.of_cons
  exact .cons (hlabel.trans hstep) (hchildren ▸ hc) hway

/-- The nodes of a tree are what its ways lead to. -/
theorem mem_nodes_iff_nodeAt {k : κ} {n : N k} :
    m ∈ nodes n ↔ ∃ path, Library.nodeAt ⟨k, n⟩ path = some m := by
  constructor
  · intro hm
    induction n using tree_induction with
    | step k n ih =>
      rcases mem_nodes_iff.mp hm with rfl | ⟨c, hc, hm⟩
      · exact ⟨[], rfl⟩
      · obtain ⟨i, hi⟩ := List.mem_iff_getElem?.mp hc
        obtain ⟨path, hpath⟩ := ih c hc hm
        exact ⟨i :: path, by rw [Library.nodeAt, hi]; exact hpath⟩
  · rintro ⟨path, hpath⟩
    induction path generalizing k n with
    | nil =>
      cases hpath
      exact mem_nodes_self n
    | cons i path ih =>
      obtain ⟨c, hc, hpath⟩ := Option.bind_eq_some_iff.mp hpath
      exact mem_nodes_of_mem_children (List.mem_of_getElem? hc) (ih hpath)

end Ways

section Visits
variable {L : Type} {label : (Σ k, N k) → L} {v : Visitor N}

theorem Visitor.visit_of_leaf {k : κ} {n : N k} (h : children (v.pre k n) = []) :
    v.visit k n = v.pre k n := by
  have hparts : Forms.map v.visit (form (v.pre k n)) = form (v.pre k n) := by
    refine (Forms.map_congr fun part hpart => ?_).trans (Forms.map_id _)
    change part ∈ children (v.pre k n) at hpart
    rw [h] at hpart
    cases hpart
  rw [v.visit_eq, hparts, roll_form]

/-- A step of the visit goes to what becomes of the part that the hook left at the index. -/
theorem Visitor.getElem_children_visit {k : κ} {n : N k} {c : Σ k, N k} {i : Nat}
    (hc : (children (v.pre k n))[i]? = some c) :
    (children (v.visit k n))[i]? = some ⟨c.1, v.visit c.1 c.2⟩ := by
  rw [v.children_visit, List.getElem?_map, hc]
  rfl

/-- A visitor with a hook that keeps the ways to a node keeps the ways to what becomes of it. -/
theorem Way.visit {S : L × Nat → Prop} {m : Σ k, N k}
    (hmap : ∀ (f : ∀ k, N k → N k) k (n : N k),
      label ⟨k, roll (Forms.map f (form n))⟩ = label ⟨k, n⟩)
    (hpre : ∀ n step way, S step → Way label n (step :: way) m →
      Way label ⟨n.1, v.pre n.1 n.2⟩ (step :: way) m)
    {n : Σ k, N k} {way : List (L × Nat)} (hS : ∀ step ∈ way, S step) (h : Way label n way m) :
    Way label ⟨n.1, v.visit n.1 n.2⟩ way ⟨m.1, v.visit m.1 m.2⟩ := by
  induction way generalizing n with
  | nil =>
    cases h
    exact .here _
  | cons step way ih =>
    obtain ⟨hstep, hway⟩ := List.forall_mem_cons.mp hS
    obtain ⟨hlabel, c, hc, hrest⟩ := (hpre n step way hstep h).of_cons
    have hvisit : label ⟨n.1, v.visit n.1 n.2⟩ = label ⟨n.1, v.pre n.1 n.2⟩ := by
      rw [v.visit_eq]
      exact hmap _ _ _
    exact .cons (hvisit.trans hlabel) (Visitor.getElem_children_visit hc) (ih hway hrest)

/-- Nodes that the visitor leaves as they are, and that its hook does not bring in, are in the
tree before the visit. -/
theorem Visitor.mem_nodes_of_visit {P : (Σ k, N k) → Prop}
    (hself : ∀ k (n : N k), P ⟨k, v.visit k n⟩ → v.pre k n = v.visit k n)
    (hpre : ∀ k (n : N k), ∀ m ∈ nodes (v.pre k n), P m → m ∈ nodes n) {k : κ} (n : N k) :
    ∀ m ∈ nodes (v.visit k n), P m → m ∈ nodes n := by
  induction n using v.visit_induction with
  | step k n ih =>
    intro m hm hP
    refine hpre k n m ?_ hP
    rcases mem_nodes_iff.mp hm with rfl | ⟨d, hd, hm⟩
    · rw [← hself k n hP]
      exact mem_nodes_self _
    · rw [v.children_visit] at hd
      obtain ⟨c, hc, rfl⟩ := List.mem_map.mp hd
      exact mem_nodes_of_mem_children hc (ih c hc m hm hP)

end Visits
end DatafusionPostgres.Library
