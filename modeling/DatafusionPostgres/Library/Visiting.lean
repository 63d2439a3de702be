import Mathlib.Data.List.Perm.Basic

/-! Trees with nodes of several kinds, and visitors that change a node before its parts. -/
namespace DatafusionPostgres.Library

/-- What holds nodes of several kinds at fixed places. -/
class Container {κ : Type} (C : (κ → Type) → Type) where
  map {ν μ : κ → Type} (f : ∀ k, ν k → μ k) : C ν → C μ
  parts {ν : κ → Type} : C ν → List (Σ k, ν k)
  map_id {ν : κ → Type} (c : C ν) : map (fun _ part => part) c = c
  map_map {ν μ ξ : κ → Type} (f : ∀ k, ν k → μ k) (g : ∀ k, μ k → ξ k) (c : C ν) :
    map g (map f c) = map (fun k part => g k (f k part)) c
  map_congr {ν μ : κ → Type} {f g : ∀ k, ν k → μ k} {c : C ν} :
    (∀ part ∈ parts c, f part.1 part.2 = g part.1 part.2) → map f c = map g c
  parts_map {ν μ : κ → Type} (f : ∀ k, ν k → μ k) (c : C ν) :
    parts (map f c) = (parts c).map fun part => ⟨part.1, f part.1 part.2⟩

namespace Container
variable {κ : Type} {C : (κ → Type) → Type} [Container C] {ν μ ξ : κ → Type}

/-- A single node of a kind. -/
abbrev One (k : κ) (ν : κ → Type) : Type := ν k

instance (k : κ) : Container (One k) where
  map f n := f k n
  parts n := [⟨k, n⟩]
  map_id _ := rfl
  map_map _ _ _ := rfl
  map_congr h := h _ List.mem_cons_self
  parts_map _ _ := rfl

def mapList (f : ∀ k, ν k → μ k) (cs : List (C ν)) : List (C μ) := cs.map (map f)

def partsList (cs : List (C ν)) : List (Σ k, ν k) := cs.flatMap parts

def mapOption (f : ∀ k, ν k → μ k) (c : Option (C ν)) : Option (C μ) := c.map (map f)

def partsOption (c : Option (C ν)) : List (Σ k, ν k) := c.elim [] parts

@[simp] theorem mapList_id (cs : List (C ν)) : mapList (fun _ part => part) cs = cs :=
  (List.map_congr_left fun c _ => map_id c).trans (List.map_id' cs)

@[simp] theorem mapList_mapList (f : ∀ k, ν k → μ k) (g : ∀ k, μ k → ξ k) (cs : List (C ν)) :
    mapList g (mapList f cs) = mapList (fun k part => g k (f k part)) cs := by
  simp only [mapList, List.map_map, Function.comp_def, map_map]

theorem mapList_congr {f g : ∀ k, ν k → μ k} {cs : List (C ν)}
    (h : ∀ part ∈ partsList cs, f part.1 part.2 = g part.1 part.2) :
    mapList f cs = mapList g cs :=
  List.map_congr_left fun c hc =>
    map_congr fun part hpart => h part (List.mem_flatMap.mpr ⟨c, hc, hpart⟩)

@[simp] theorem partsList_mapList (f : ∀ k, ν k → μ k) (cs : List (C ν)) :
    partsList (mapList f cs) = (partsList cs).map fun part => ⟨part.1, f part.1 part.2⟩ := by
  simp only [partsList, mapList, List.flatMap_map, List.map_flatMap, parts_map]

@[simp] theorem mapOption_id (c : Option (C ν)) : mapOption (fun _ part => part) c = c := by
  cases c with
  | none => rfl
  | some c => exact congrArg some (map_id c)

@[simp] theorem mapOption_mapOption (f : ∀ k, ν k → μ k) (g : ∀ k, μ k → ξ k)
    (c : Option (C ν)) :
    mapOption g (mapOption f c) = mapOption (fun k part => g k (f k part)) c := by
  cases c with
  | none => rfl
  | some c => exact congrArg some (map_map f g c)

theorem mapOption_congr {f g : ∀ k, ν k → μ k} {c : Option (C ν)}
    (h : ∀ part ∈ partsOption c, f part.1 part.2 = g part.1 part.2) :
    mapOption f c = mapOption g c := by
  cases c with
  | none => rfl
  | some c => exact congrArg some (map_congr h)

@[simp] theorem partsOption_mapOption (f : ∀ k, ν k → μ k) (c : Option (C ν)) :
    partsOption (mapOption f c) = (partsOption c).map fun part => ⟨part.1, f part.1 part.2⟩ := by
  cases c with
  | none => rfl
  | some c => exact parts_map f c

end Container

/-- The forms that a node of each kind takes, over whatever its parts are. -/
class Forms {κ : Type} (F : (κ → Type) → κ → Type) where
  map {ν μ : κ → Type} (f : ∀ k, ν k → μ k) {k : κ} : F ν k → F μ k
  parts {ν : κ → Type} {k : κ} : F ν k → List (Σ k, ν k)
  map_id {ν : κ → Type} {k : κ} (form : F ν k) : map (fun _ part => part) form = form
  map_map {ν μ ξ : κ → Type} (f : ∀ k, ν k → μ k) (g : ∀ k, μ k → ξ k) {k : κ} (form : F ν k) :
    map g (map f form) = map (fun k part => g k (f k part)) form
  map_congr {ν μ : κ → Type} {f g : ∀ k, ν k → μ k} {k : κ} {form : F ν k} :
    (∀ part ∈ parts form, f part.1 part.2 = g part.1 part.2) → map f form = map g form
  parts_map {ν μ : κ → Type} (f : ∀ k, ν k → μ k) {k : κ} (form : F ν k) :
    parts (map f form) = (parts form).map fun part => ⟨part.1, f part.1 part.2⟩

/-- Finite trees: a node is a form over nodes, and no descent to a part goes on for ever. -/
class Trees {κ : Type} (N : κ → Type) (F : outParam ((κ → Type) → κ → Type))
    extends Forms F where
  roll {k : κ} : F N k → N k
  form {k : κ} : N k → F N k
  roll_form {k : κ} (n : N k) : roll (form n) = n
  form_roll {k : κ} (f : F N k) : form (roll f) = f
  descent : WellFounded fun part n : Σ k, N k => part ∈ parts (form n.2)

variable {κ : Type} {N : κ → Type} {F : (κ → Type) → κ → Type} [Trees N F]
open Forms Trees

def children {k : κ} (n : N k) : List (Σ k, N k) := parts (form n)

theorem children_roll {k : κ} (f : F N k) : children (roll f) = parts f := by
  rw [children, form_roll]

theorem tree_induction {P : ∀ k, N k → Prop}
    (step : ∀ k (n : N k), (∀ c ∈ children n, P c.1 c.2) → P k n) {k : κ} (n : N k) : P k n :=
  (Trees.descent (N := N)).induction (C := fun m => P m.1 m.2) ⟨k, n⟩ fun m ih => step m.1 m.2 ih

private theorem le_foldr_max {α : Type} (f : α → Nat) {xs : List α} {x : α} (hx : x ∈ xs) :
    f x ≤ (xs.map f).foldr max 0 := by
  induction xs with
  | nil => exact absurd hx List.not_mem_nil
  | cons y ys ih =>
    rcases List.mem_cons.mp hx with rfl | hx
    · exact Nat.le_max_left _ _
    · exact Nat.le_trans (ih hx) (Nat.le_max_right _ _)

/-- The number of nodes on the longest way down. -/
def height (n : Σ k, N k) : Nat :=
  1 + ((children n.2).attach.map fun c => height c.1).foldr max 0
termination_by (Trees.descent (N := N)).wrap n
decreasing_by exact c.2

theorem height_children {k : κ} (n : N k) : ∀ c ∈ children n, height c < height ⟨k, n⟩ := by
  intro c hc
  rw [height.eq_def ⟨k, n⟩]
  exact Nat.lt_one_add_iff.mpr
    (le_foldr_max (fun c => height c.1) (List.mem_attach (children n) ⟨c, hc⟩))

section Folding
variable {M : κ → Type} [∀ k, Inhabited (M k)] (step : ∀ k, N k → F M k → M k)

def foldN : Nat → ∀ k, N k → M k
  | 0, _, _ => default
  | m + 1, k, n => step k n (map (foldN m) (form n))

/-- The value of a node from the node and the values of its parts. -/
def fold (k : κ) (n : N k) : M k := foldN step (height ⟨k, n⟩ + 1) k n

private theorem foldN_of_height_lt {k : κ} (n : N k) :
    ∀ m m', height ⟨k, n⟩ < m → height ⟨k, n⟩ < m' → foldN step m k n = foldN step m' k n := by
  induction n using tree_induction with
  | step k n ih =>
    rintro (_ | m) (_ | m') hm hm'
    · exact absurd hm (Nat.not_lt_zero _)
    · exact absurd hm (Nat.not_lt_zero _)
    · exact absurd hm' (Nat.not_lt_zero _)
    · refine congrArg (step k n) (map_congr fun part hpart => ih part hpart m m' ?_ ?_)
      · exact Nat.lt_of_lt_of_le (height_children n part hpart) (Nat.le_of_lt_succ hm)
      · exact Nat.lt_of_lt_of_le (height_children n part hpart) (Nat.le_of_lt_succ hm')

theorem fold_eq {k : κ} (n : N k) : fold step k n = step k n (map (fold step) (form n)) := by
  refine congrArg (step k n) (map_congr fun part hpart => ?_)
  exact foldN_of_height_lt step part.2 _ _ (height_children n part hpart) (Nat.lt_succ_self _)

/-- No way down is longer than the bound: a test that a closed tree can be run on. -/
def fits : Nat → (Σ k, N k) → Bool
  | 0, _ => false
  | m + 1, n => (children n.2).all (fits m)

theorem fold_eq_foldN {m : Nat} {k : κ} {n : N k} (h : fits m ⟨k, n⟩) :
    fold step k n = foldN step m k n := by
  induction m generalizing k with
  | zero => exact absurd h Bool.false_ne_true
  | succ m ih =>
    rw [fold_eq]
    refine congrArg (step k n) (map_congr fun part hpart => ?_)
    exact ih (List.all_eq_true.mp h part hpart)

end Folding

section Nodes

/-- All nodes of a tree, each before its parts. -/
def nodes {k : κ} (n : N k) : List (Σ k, N k) :=
  fold (M := fun _ => List (Σ k, N k))
    (fun k n below => ⟨k, n⟩ :: (parts below).flatMap Sigma.snd) k n

theorem nodes_eq {k : κ} (n : N k) :
    nodes n = ⟨k, n⟩ :: (children n).flatMap fun c => nodes c.2 := by
  rw [nodes, fold_eq, parts_map, List.flatMap_map]
  rfl

theorem mem_nodes_self {k : κ} (n : N k) : ⟨k, n⟩ ∈ nodes n := by
  rw [nodes_eq]
  exact List.mem_cons_self

theorem mem_nodes_of_mem_children {k : κ} {n : N k} {c m : Σ k, N k} (hc : c ∈ children n)
    (hm : m ∈ nodes c.2) : m ∈ nodes n := by
  rw [nodes_eq]
  exact List.mem_cons_of_mem _ (List.mem_flatMap.mpr ⟨c, hc, hm⟩)

theorem mem_nodes_iff {k : κ} {n : N k} {m : Σ k, N k} :
    m ∈ nodes n ↔ m = ⟨k, n⟩ ∨ ∃ c ∈ children n, m ∈ nodes c.2 := by
  rw [nodes_eq, List.mem_cons, List.mem_flatMap]

theorem forall_nodes_iff {k : κ} {n : N k} {P : (Σ k, N k) → Prop} :
    (∀ m ∈ nodes n, P m) ↔ P ⟨k, n⟩ ∧ ∀ c ∈ children n, ∀ m ∈ nodes c.2, P m := by
  constructor
  · intro h
    exact ⟨h _ (mem_nodes_self n), fun c hc m hm => h m (mem_nodes_of_mem_children hc hm)⟩
  · rintro ⟨hself, hparts⟩ m hm
    rcases mem_nodes_iff.mp hm with rfl | ⟨c, hc, hm⟩
    · exact hself
    · exact hparts c hc m hm

theorem nodes_trans {k : κ} {n : N k} {c m : Σ k, N k} (hc : c ∈ nodes n) (hm : m ∈ nodes c.2) :
    m ∈ nodes n := by
  induction n using tree_induction with
  | step k n ih =>
    rcases mem_nodes_iff.mp hc with rfl | ⟨d, hd, hcd⟩
    · exact hm
    · exact mem_nodes_of_mem_children hd (ih d hd hcd)

end Nodes

section Places

/-- The node at the end of a way down, one index among the parts for each step. -/
def nodeAt : (Σ k, N k) → List Nat → Option (Σ k, N k)
  | n, [] => some n
  | n, i :: path => (children n.2)[i]?.bind fun c => nodeAt c path

end Places

section Depth
variable (weight : ∀ k, N k → Nat)

/-- A weight at each node, added up along the heaviest branch. -/
def depth (k : κ) (n : N k) : Nat :=
  fold (M := fun _ => Nat)
    (fun k n below => weight k n + ((parts below).map Sigma.snd).foldr max 0) k n

theorem depth_eq {k : κ} (n : N k) :
    depth weight k n =
      weight k n + ((children n).map fun c => depth weight c.1 c.2).foldr max 0 := by
  rw [depth, fold_eq, parts_map, List.map_map]
  rfl

private theorem foldr_max_le {α : Type} {f : α → Nat} {xs : List α} {b : Nat}
    (h : ∀ x ∈ xs, f x ≤ b) : (xs.map f).foldr max 0 ≤ b := by
  induction xs with
  | nil => exact Nat.zero_le _
  | cons y ys ih =>
    rw [List.map_cons, List.foldr_cons]
    exact Nat.max_le.mpr ⟨h y List.mem_cons_self, ih fun x hx => h x (List.mem_cons_of_mem _ hx)⟩

theorem depth_children {k : κ} {n : N k} {c : Σ k, N k} (hc : c ∈ children n) :
    weight k n + depth weight c.1 c.2 ≤ depth weight k n := by
  rw [depth_eq weight n]
  exact Nat.add_le_add_left (le_foldr_max (fun c => depth weight c.1 c.2) hc) _

theorem depth_le {k : κ} {n : N k} {b : Nat}
    (h : ∀ c ∈ children n, depth weight c.1 c.2 ≤ b) :
    depth weight k n ≤ weight k n + b := by
  rw [depth_eq]
  exact Nat.add_le_add_left (foldr_max_le h) _

theorem weight_le_depth {k : κ} (n : N k) : weight k n ≤ depth weight k n := by
  rw [depth_eq]
  exact Nat.le_add_right _ _

theorem depth_mono {k k' : κ} {n : N k} {n' : N k'} (hweight : weight k' n' ≤ weight k n)
    (h : ∀ c ∈ children n', ∃ c' ∈ children n, depth weight c.1 c.2 ≤ depth weight c'.1 c'.2) :
    depth weight k' n' ≤ depth weight k n := by
  have hle := weight_le_depth weight n
  have hparts : ∀ c ∈ children n', depth weight c.1 c.2 ≤ depth weight k n - weight k n := by
    intro c hc
    obtain ⟨c', hc', hdepth⟩ := h c hc
    have := depth_children weight hc'
    omega
  have := depth_le weight hparts
  omega

theorem depth_lt {k : κ} {n : N k} {c : Σ k, N k} (hpos : 0 < weight k n) (hc : c ∈ children n) :
    depth weight c.1 c.2 < depth weight k n := by
  have := depth_children weight hc
  omega

end Depth

section Visiting

/-- What a visitor makes of a node before it goes on to the parts of the outcome, with a
rank that falls on the way down. -/
structure Visitor {κ : Type} (N : κ → Type) {F : (κ → Type) → κ → Type} [Trees N F] where
  pre : ∀ k, N k → N k
  rank : ∀ k, N k → Nat
  rank_lt {k : κ} (n : N k) : ∀ c ∈ children (pre k n), rank c.1 c.2 < rank k n

/-- A visitor that brings no new parts in. -/
def Visitor.narrowing (pre : ∀ k, N k → N k)
    (hpre : ∀ k (n : N k), ∀ c ∈ children (pre k n), c ∈ children n) : Visitor N where
  pre := pre
  rank k n := height ⟨k, n⟩
  rank_lt n c hc := height_children n c (hpre _ n c hc)

variable (v : Visitor N)

def Visitor.visitN : Nat → ∀ k, N k → N k
  | 0, _, n => n
  | m + 1, k, n => roll (map (visitN m) (form (v.pre k n)))

/-- The tree after a visit: a node is changed first, then the parts of what it became. -/
def Visitor.visit (k : κ) (n : N k) : N k := v.visitN (v.rank k n + 1) k n

private theorem visitN_of_rank_lt {k : κ} (n : N k) :
    ∀ m m', v.rank k n < m → v.rank k n < m' → v.visitN m k n = v.visitN m' k n := by
  induction h : v.rank k n using Nat.strongRecOn generalizing k with
  | ind r ih =>
    subst h
    rintro (_ | m) (_ | m') hm hm'
    · exact absurd hm (Nat.not_lt_zero _)
    · exact absurd hm (Nat.not_lt_zero _)
    · exact absurd hm' (Nat.not_lt_zero _)
    · refine congrArg roll (map_congr fun part hpart => ?_)
      have hrank : v.rank part.1 part.2 < v.rank k n := v.rank_lt n part hpart
      exact ih _ hrank part.2 rfl m m' (Nat.lt_of_lt_of_le hrank (Nat.le_of_lt_succ hm))
        (Nat.lt_of_lt_of_le hrank (Nat.le_of_lt_succ hm'))

theorem Visitor.visit_eq {k : κ} (n : N k) :
    v.visit k n = roll (map v.visit (form (v.pre k n))) := by
  refine congrArg roll (map_congr fun part hpart => ?_)
  exact visitN_of_rank_lt v part.2 _ _ (v.rank_lt n part hpart) (Nat.lt_succ_self _)

theorem Visitor.children_visit {k : κ} (n : N k) :
    children (v.visit k n) = (children (v.pre k n)).map fun c => ⟨c.1, v.visit c.1 c.2⟩ := by
  rw [v.visit_eq, children_roll, parts_map]
  rfl

/-- A property of visits follows from the parts that the visitor goes on to. -/
theorem Visitor.visit_induction {P : ∀ k, N k → Prop}
    (step : ∀ k (n : N k), (∀ c ∈ children (v.pre k n), P c.1 c.2) → P k n) {k : κ} (n : N k) :
    P k n := by
  induction h : v.rank k n using Nat.strongRecOn generalizing k with
  | ind r ih => exact step k n fun c hc => ih _ (h ▸ v.rank_lt n c hc) c.2 rfl

/-- The visit's own way down is not longer than the bound. -/
def Visitor.fits : Nat → (Σ k, N k) → Bool
  | 0, _ => false
  | m + 1, n => (children (v.pre n.1 n.2)).all (fits m)

theorem Visitor.visit_eq_visitN {m : Nat} {k : κ} {n : N k} (h : v.fits m ⟨k, n⟩) :
    v.visit k n = v.visitN m k n := by
  induction m generalizing k with
  | zero => exact absurd h Bool.false_ne_true
  | succ m ih =>
    rw [v.visit_eq]
    refine congrArg roll (map_congr fun part hpart => ?_)
    exact ih (List.all_eq_true.mp h part hpart)

/-- The ways down of the visits one after the other are not longer than the bound. -/
def Visitor.fitsAll (m : Nat) {k : κ} : List (Visitor N) → N k → Bool
  | [], _ => true
  | v :: vs, n => v.fits m ⟨k, n⟩ && fitsAll m vs (v.visitN m k n)

theorem Visitor.foldl_visit_eq {m : Nat} {k : κ} {vs : List (Visitor N)} {n : N k}
    (h : Visitor.fitsAll m vs n) :
    vs.foldl (fun n v => v.visit k n) n = vs.foldl (fun n v => v.visitN m k n) n := by
  induction vs generalizing n with
  | nil => rfl
  | cons v vs ih =>
    obtain ⟨hself, hrest⟩ := Bool.and_eq_true_iff.mp h
    rw [List.foldl_cons, List.foldl_cons, v.visit_eq_visitN hself]
    exact ih hrest

/-- What holds of every node of a visited tree, if what the visitor counts on held of every
node before. -/
theorem Visitor.forall_nodes_visit {P Q : (Σ k, N k) → Prop}
    (hself : ∀ k (n : N k), (∀ m ∈ nodes n, P m) → Q ⟨k, v.visit k n⟩)
    (hparts : ∀ k (n : N k), (∀ m ∈ nodes n, P m) →
      ∀ c ∈ children (v.pre k n), ∀ m ∈ nodes c.2, P m) {k : κ} {n : N k}
    (h : ∀ m ∈ nodes n, P m) : ∀ m ∈ nodes (v.visit k n), Q m := by
  induction n using v.visit_induction with
  | step k n ih =>
    refine forall_nodes_iff.mpr ⟨hself k n h, fun c hc => ?_⟩
    rw [v.children_visit] at hc
    obtain ⟨d, hd, rfl⟩ := List.mem_map.mp hc
    exact ih d hd (hparts k n h d hd)

/-- What a visitor makes of every node, whatever the node was. -/
theorem Visitor.nodes_visit_of_forall {P : (Σ k, N k) → Prop}
    (hself : ∀ k (n : N k), P ⟨k, v.visit k n⟩) {k : κ} (n : N k) :
    ∀ m ∈ nodes (v.visit k n), P m :=
  v.forall_nodes_visit (P := fun _ => True) (fun k n _ => hself k n)
    (fun _ _ _ _ _ _ _ => trivial) fun _ _ => trivial

/-- A visitor without anything to do at any node does nothing. -/
theorem Visitor.visit_eq_self {k : κ} {n : N k}
    (h : ∀ m ∈ nodes n, v.pre m.1 m.2 = m.2) : v.visit k n = n := by
  induction n using tree_induction with
  | step k n ih =>
    obtain ⟨hself, hparts⟩ :=
      (forall_nodes_iff (P := fun m : Σ k, N k => v.pre m.1 m.2 = m.2)).mp h
    rw [v.visit_eq, hself]
    exact (congrArg roll ((map_congr fun part hpart => ih part hpart (hparts part hpart)).trans
      (map_id _))).trans (roll_form n)

section Marks
variable {v} {mark : (Σ k, N k) → Bool}

/-- Nodes that a visitor neither drops, nor copies, nor makes anew are there once for each
that was there before. -/
theorem Visitor.filter_nodes_visit (hself : ∀ k (n : N k), mark ⟨k, v.visit k n⟩ = mark ⟨k, n⟩)
    (hparts : ∀ k (n : N k),
      (((children (v.pre k n)).flatMap fun c => nodes c.2).filter mark).Perm
        (((children n).flatMap fun c => nodes c.2).filter mark)) {k : κ} (n : N k) :
    ((nodes (v.visit k n)).filter mark).Perm
      (((nodes n).filter mark).map fun m => ⟨m.1, v.visit m.1 m.2⟩) := by
  induction n using v.visit_induction with
  | step k n ih =>
    have hbelow : (((children (v.visit k n)).flatMap fun c => nodes c.2).filter mark).Perm
        ((((children n).flatMap fun c => nodes c.2).filter mark).map
          fun m => ⟨m.1, v.visit m.1 m.2⟩) := by
      refine List.Perm.trans ?_ ((hparts k n).map _)
      rw [v.children_visit, List.flatMap_map, List.filter_flatMap, List.filter_flatMap,
        List.map_flatMap]
      exact List.Perm.flatMap_left _ ih
    rw [nodes_eq, nodes_eq n, List.filter_cons, List.filter_cons, hself]
    split
    · exact hbelow.cons _
    · exact hbelow

end Marks

section Meanings
variable {M : κ → Type} [∀ k, Inhabited (M k)] (alg : ∀ k, F M k → M k)

/-- The meaning of a tree, put together from the meanings of the parts. -/
def interpret (k : κ) (n : N k) : M k := fold (fun k _ parts => alg k parts) k n

theorem interpret_eq {k : κ} (n : N k) :
    interpret alg k n = alg k (map (interpret alg) (form n)) :=
  fold_eq _ n

/-- A hook that keeps the meaning of every node it meets keeps the meaning of the tree. -/
theorem Visitor.interpret_visit {P : ∀ k, N k → Prop}
    (hpre : ∀ k n, P k n → interpret alg k (v.pre k n) = interpret alg k n)
    (hparts : ∀ k n, P k n → ∀ c ∈ children (v.pre k n), P c.1 c.2) {k : κ} {n : N k}
    (hn : P k n) : interpret alg k (v.visit k n) = interpret alg k n := by
  induction n using v.visit_induction with
  | step k n ih =>
    rw [← hpre k n hn, interpret_eq, v.visit_eq, form_roll, map_map, interpret_eq]
    exact congrArg (alg k) (map_congr fun part hpart => ih part hpart (hparts k n hn part hpart))

/-- What a hook keeps of the meaning of every node it meets, up to an agreement of meanings, it
keeps of the tree, if forms of agreeing parts agree. -/
theorem Visitor.interpret_visit_agree {P : ∀ k, N k → Prop} {R : ∀ k, M k → M k → Prop}
    (htrans : ∀ k (a b c : M k), R k a b → R k b c → R k a c)
    (hpre : ∀ k n, P k n → R k (interpret alg k (v.pre k n)) (interpret alg k n))
    (hparts : ∀ k n, P k n → ∀ c ∈ children (v.pre k n), P c.1 c.2)
    (halg : ∀ k n, P k n → ∀ f g : ∀ k, N k → M k,
      (∀ c ∈ children (v.pre k n), R c.1 (f c.1 c.2) (g c.1 c.2)) →
      R k (alg k (map f (form (v.pre k n)))) (alg k (map g (form (v.pre k n))))) {k : κ} {n : N k}
    (hn : P k n) : R k (interpret alg k (v.visit k n)) (interpret alg k n) := by
  induction n using v.visit_induction with
  | step k n ih =>
    refine htrans k _ _ _ ?_ (hpre k n hn)
    rw [interpret_eq, v.visit_eq, form_roll, map_map, interpret_eq]
    exact halg k n hn (fun k n => interpret alg k (v.visit k n)) (interpret alg)
      fun c hc => ih c hc (hparts k n hn c hc)

end Meanings

section Keeping
variable {v} (hkeep : ∀ k (n : N k), children (v.pre k n) = children n)
include hkeep

theorem Visitor.children_visit_of_keep {k : κ} (n : N k) :
    children (v.visit k n) = (children n).map fun c => ⟨c.1, v.visit c.1 c.2⟩ := by
  rw [v.children_visit, hkeep]

/-- A visitor that keeps the parts of every node changes each node where it stands. -/
theorem Visitor.nodes_visit {k : κ} (n : N k) :
    nodes (v.visit k n) = (nodes n).map fun m => ⟨m.1, v.visit m.1 m.2⟩ := by
  induction n using tree_induction with
  | step k n ih =>
    rw [nodes_eq, nodes_eq n, Visitor.children_visit_of_keep hkeep, List.flatMap_map,
      List.map_cons, List.map_flatMap]
    exact congrArg (_ :: ·) (List.flatMap_congr fun c hc => ih c hc)

theorem Visitor.nodeAt_visit (n : Σ k, N k) (path : List Nat) :
    nodeAt ⟨n.1, v.visit n.1 n.2⟩ path = (nodeAt n path).map fun m => ⟨m.1, v.visit m.1 m.2⟩ := by
  induction path generalizing n with
  | nil => rfl
  | cons i path ih =>
    rw [nodeAt, nodeAt, Visitor.children_visit_of_keep hkeep, List.getElem?_map]
    cases (children n.2)[i]? with
    | none => rfl
    | some c => exact ih c

theorem Visitor.depth_visit {weight : ∀ k, N k → Nat}
    (hweight : ∀ k n, weight k (v.visit k n) = weight k n) {k : κ} (n : N k) :
    depth weight k (v.visit k n) = depth weight k n := by
  induction n using tree_induction with
  | step k n ih =>
    rw [depth_eq, depth_eq weight n, Visitor.children_visit_of_keep hkeep, List.map_map, hweight]
    refine congrArg (_ + List.foldr max 0 ·) (List.map_congr_left fun c hc => ?_)
    exact ih c hc

end Keeping
end Visiting
end DatafusionPostgres.Library
