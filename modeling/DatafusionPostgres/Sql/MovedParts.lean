import DatafusionPostgres.Library.Ways
import DatafusionPostgres.Sql.Rewriting

/-! Where the visitors of the rules put the parts of a node. -/
namespace DatafusionPostgres.Sql
open DatafusionPostgres.Library

section Crossings

/-- The nodes with parts that some rule puts elsewhere, or may drop. -/
inductive Crossing
  | anyEqual
  | allNotEqual
  | collate
  | cast
  | other
  deriving DecidableEq

def crossing : (Σ k, Node k) → Crossing
  | ⟨.expr, .mk (.anyOp _ .eq _ _)⟩ => .anyEqual
  | ⟨.expr, .mk (.allOp _ .notEq _)⟩ => .allNotEqual
  | ⟨.expr, .mk (.collate _ _)⟩ => .collate
  | ⟨.expr, .mk (.cast _ _ _ _)⟩ => .cast
  | _ => .other

theorem crossing_map (f : ∀ k, Node k → Node k) (k : Kind) (n : Node k) :
    crossing ⟨k, Trees.roll (Forms.map f (Trees.form n))⟩ = crossing ⟨k, n⟩ := by
  obtain ⟨form⟩ := n
  cases form with
  | anyOp left op right isSome => cases op <;> rfl
  | allOp left op right => cases op <;> rfl
  | _ => rfl

variable {v : Visitor Node}

theorem crossing_visit {k : Kind} (n : Node k) :
    crossing ⟨k, v.visit k n⟩ = crossing ⟨k, v.pre k n⟩ := by
  rw [v.visit_eq]
  exact crossing_map _ _ _

/-- Only expressions have parts that move. -/
theorem crossing_of_ne_expr {k : Kind} (h : k ≠ .expr) (n n' : Node k) :
    crossing ⟨k, n⟩ = crossing ⟨k, n'⟩ := by
  have hother : ∀ n : Node k, crossing ⟨k, n⟩ = .other := by
    rintro ⟨form⟩
    cases form <;> first | rfl | exact absurd rfl h
  rw [hother, hother]

theorem crossing_eq_collate {n : Σ k, Node k} (h : crossing n = .collate) :
    ∃ inner collation, n = ⟨.expr, .mk (.collate inner collation)⟩ := by
  unfold crossing at h
  split at h <;> cases h
  exact ⟨_, _, rfl⟩

/-- A way down from one node of a statement to another. -/
abbrev PartWay : (Σ k, Node k) → List (Crossing × Nat) → (Σ k, Node k) → Prop := Way crossing

variable {n m : Σ k, Node k} {way : List (Crossing × Nat)}

/-- A hook that keeps the parts of every node keeps every way. -/
theorem PartWay.visit_of_keep (hcrossing : ∀ k (n : Node k),
      crossing ⟨k, v.pre k n⟩ = crossing ⟨k, n⟩)
    (hkeep : ∀ k (n : Node k), children (v.pre k n) = children n) (h : PartWay n way m) :
    PartWay ⟨n.1, v.visit n.1 n.2⟩ way ⟨m.1, v.visit m.1 m.2⟩ :=
  Way.visit (S := fun _ => True) crossing_map
    (fun n _ _ _ h => h.of_children (hcrossing n.1 n.2) (hkeep n.1 n.2)) (fun _ _ => trivial) h

/-- No way goes through a value. -/
theorem PartWay.eq_of_value {value : Value}
    (h : PartWay ⟨.expr, .mk (.value value)⟩ way m) : m = ⟨.expr, .mk (.value value)⟩ :=
  (Way.eq_of_leaf h rfl).symm

end Crossings

namespace PrependUnqualifiedPgTableName

private theorem crossing_pre (k : Kind) (n : Node k) :
    crossing ⟨k, visitor.pre k n⟩ = crossing ⟨k, n⟩ := by
  cases k with
  | tableFactor => exact crossing_of_ne_expr (by decide) _ _
  | _ => rfl

theorem partWay_visit {n m : Σ k, Node k} {way : List (Crossing × Nat)} (h : PartWay n way m) :
    PartWay ⟨n.1, visitor.visit n.1 n.2⟩ way ⟨m.1, visitor.visit m.1 m.2⟩ :=
  h.visit_of_keep crossing_pre fun _ => children_pre

end PrependUnqualifiedPgTableName

namespace StripCallableQualifier

private theorem crossing_pre (k : Kind) (n : Node k) :
    crossing ⟨k, visitor.pre k n⟩ = crossing ⟨k, n⟩ := by
  cases k with
  | tableFactor => exact crossing_of_ne_expr (by decide) _ _
  | expr =>
    change crossing ⟨.expr, preVisitExpr n⟩ = _
    unfold preVisitExpr
    split <;> rfl
  | _ => rfl

theorem partWay_visit {n m : Σ k, Node k} {way : List (Crossing × Nat)} (h : PartWay n way m) :
    PartWay ⟨n.1, visitor.visit n.1 n.2⟩ way ⟨m.1, visitor.visit m.1 m.2⟩ :=
  h.visit_of_keep crossing_pre fun _ => children_pre

end StripCallableQualifier

namespace CurrentUserVariableToSessionUserFunctionCall

private theorem crossing_pre (k : Kind) (n : Node k) :
    crossing ⟨k, visitor.pre k n⟩ = crossing ⟨k, n⟩ := by
  cases k with
  | expr =>
    have hwrap : crossing ⟨.expr, wrapIdentifier n⟩ = crossing ⟨.expr, n⟩ := by
      rcases wrapIdentifier_cases n with ⟨ident, target, rfl, -, -, he⟩ | he
      · rw [he]
        rfl
      · rw [he]
    change crossing ⟨.expr, renameFunction (wrapIdentifier n)⟩ = _
    rw [← hwrap]
    rcases renameFunction_cases (wrapIdentifier n) with ⟨call, target, hcall, -, he⟩ | he
    · rw [he, hcall]
      rfl
    · rw [he]
  | _ => rfl

theorem partWay_visit {n m : Σ k, Node k} {way : List (Crossing × Nat)} (h : PartWay n way m) :
    PartWay ⟨n.1, visitor.visit n.1 n.2⟩ way ⟨m.1, visitor.visit m.1 m.2⟩ :=
  h.visit_of_keep crossing_pre fun _ => children_pre

end CurrentUserVariableToSessionUserFunctionCall

namespace RewritePgCatalogOperator

private theorem crossing_pre (k : Kind) (n : Node k) :
    crossing ⟨k, visitor.pre k n⟩ = crossing ⟨k, n⟩ := by
  cases k with
  | expr =>
    change crossing ⟨.expr, preVisitExpr n⟩ = _
    unfold preVisitExpr
    split <;> rfl
  | _ => rfl

theorem partWay_visit {n m : Σ k, Node k} {way : List (Crossing × Nat)} (h : PartWay n way m) :
    PartWay ⟨n.1, visitor.visit n.1 n.2⟩ way ⟨m.1, visitor.visit m.1 m.2⟩ :=
  h.visit_of_keep crossing_pre fun _ => children_pre

end RewritePgCatalogOperator

namespace FixArrayLiteral

/-- Only the literal under a cast is replaced. -/
theorem partWay_visit {n m : Σ k, Node k} {way : List (Crossing × Nat)}
    (hm : ∀ value, m ≠ ⟨.expr, .mk (.value value)⟩) (h : PartWay n way m) :
    PartWay ⟨n.1, visitor.visit n.1 n.2⟩ way ⟨m.1, visitor.visit m.1 m.2⟩ := by
  refine Way.visit (S := fun _ => True) crossing_map ?_ (fun _ _ => trivial) h
  rintro ⟨k, n⟩ step way - h
  refine hooks_expr (P := fun k n n' => PartWay ⟨k, n⟩ (step :: way) m →
    PartWay ⟨k, n'⟩ (step :: way) m) (fun _ _ => id) ?_ k n h
  intro e h
  rcases preVisitExpr_cases e with ⟨text, arr, rest, rfl, he⟩ | he
  · rw [he]
    cases h with
    | @down _ _ _ i _ hc hway =>
      cases i with
      | zero =>
        cases hc
        exact absurd (PartWay.eq_of_value hway) (hm _)
      | succ i =>
        change PartWay _ ((.cast, i + 1) :: way) m
        exact .down hc hway
  · rwa [he]

end FixArrayLiteral

namespace RewriteRegCastToSubquery

/-- A cast that is replaced has a literal for its operand. -/
theorem partWay_visit {n m : Σ k, Node k} {way : List (Crossing × Nat)}
    (hm : ∀ value, m ≠ ⟨.expr, .mk (.value value)⟩)
    (hcast : ∀ step ∈ way, step.1 = .cast → step.2 = 0) (h : PartWay n way m) :
    PartWay ⟨n.1, visitor.visit n.1 n.2⟩ way ⟨m.1, visitor.visit m.1 m.2⟩ := by
  refine Way.visit (S := fun step => step.1 = .cast → step.2 = 0) crossing_map ?_ hcast h
  rintro ⟨k, n⟩ step way hstep h
  refine hooks_expr (P := fun k n n' => PartWay ⟨k, n⟩ (step :: way) m →
    PartWay ⟨k, n'⟩ (step :: way) m) (fun _ _ => id) ?_ k n h
  intro e h
  rcases preVisitExpr_cases e with ⟨kind, operand, dataType, rest, rfl, -⟩ | he
  · cases h with
    | @down _ _ _ i _ hc hway =>
      obtain rfl : i = 0 := hstep rfl
      cases hc
      exact absurd (PartWay.eq_of_value hway) (hm _)
  · rwa [he]

end RewriteRegCastToSubquery

namespace RewriteArrayAnyAllOperation

/-- The steps to an operand of a lowered comparison: the operands change places in the call,
and the call stands under a negation for `<> ALL`. -/
def lowerStep : Crossing × Nat → List (Crossing × Nat)
  | (.anyEqual, 0) => [(.other, 1)]
  | (.anyEqual, _) => [(.other, 0)]
  | (.allNotEqual, 0) => [(.other, 0), (.other, 1)]
  | (.allNotEqual, _) => [(.other, 0), (.other, 0)]
  | step => [step]

def lowerWay (way : List (Crossing × Nat)) : List (Crossing × Nat) := way.flatMap lowerStep

variable {left right : Expr} {n c m : Σ k, Node k} {i : Nat} {way : List (Crossing × Nat)}

private theorem partWay_left (h : PartWay ⟨.expr, visitor.visit .expr left⟩ way m) :
    PartWay ⟨.expr, visitor.visit .expr (anyToArrayContains left right)⟩ ((.other, 1) :: way) m := by
  have hpart : (children (visitor.pre .expr (anyToArrayContains left right)))[1]? =
      some ⟨.expr, left⟩ := rfl
  exact .cons (crossing_visit _) (Visitor.getElem_children_visit hpart) h

private theorem partWay_right
    (h : PartWay ⟨.expr, visitor.visit .expr (arrayOperand right)⟩ way m) :
    PartWay ⟨.expr, visitor.visit .expr (anyToArrayContains left right)⟩ ((.other, 0) :: way) m := by
  have hpart : (children (visitor.pre .expr (anyToArrayContains left right)))[0]? =
      some ⟨.expr, arrayOperand right⟩ := rfl
  exact .cons (crossing_visit _) (Visitor.getElem_children_visit hpart) h

private theorem partWay_keep (hpre : visitor.pre n.1 n.2 = n.2)
    (hstep : lowerStep (crossing n, i) = [(crossing n, i)]) (hc : (children n.2)[i]? = some c)
    (h : PartWay ⟨c.1, visitor.visit c.1 c.2⟩ (lowerWay way) m) :
    PartWay ⟨n.1, visitor.visit n.1 n.2⟩ (lowerWay ((crossing n, i) :: way)) m := by
  have hcrossing : crossing ⟨n.1, visitor.visit n.1 n.2⟩ = crossing n := by
    rw [crossing_visit, hpre]
  rw [lowerWay, List.flatMap_cons, hstep]
  exact .cons hcrossing (Visitor.getElem_children_visit (hpre.symm ▸ hc)) h

private theorem visit_anyEqual (isSome : Bool) :
    visitor.visit .expr (.mk (.anyOp left .eq right isSome)) =
      visitor.visit .expr (anyToArrayContains left right) := by
  rw [visitor.visit_eq, visitor.visit_eq (anyToArrayContains left right)]
  rfl

private theorem visit_allNotEqual :
    visitor.visit .expr (.mk (.allOp left .notEq right)) =
      .mk (.unaryOp .not (visitor.visit .expr (anyToArrayContains left right))) := by
  rw [visitor.visit_eq]
  rfl

private theorem partWay_not {e : Expr} (h : PartWay ⟨.expr, e⟩ way m) :
    PartWay ⟨.expr, .mk (.unaryOp .not e)⟩ ((.other, 0) :: way) m :=
  Way.down (c := ⟨.expr, e⟩) rfl h

private theorem partWay_arrayOperand (hm : ∀ value, m ≠ ⟨.expr, .mk (.value value)⟩)
    (h : PartWay ⟨.expr, right⟩ way m) : arrayOperand right = right := by
  rcases arrayOperand_cases right with ⟨text, rfl, -⟩ | hkeep
  · exact absurd (PartWay.eq_of_value h) (hm _)
  · exact hkeep

theorem partWay_visit (hm : ∀ value, m ≠ ⟨.expr, .mk (.value value)⟩) (h : PartWay n way m) :
    PartWay ⟨n.1, visitor.visit n.1 n.2⟩ (lowerWay way) ⟨m.1, visitor.visit m.1 m.2⟩ := by
  induction h with
  | here n => exact .here _
  | @down n c m i way hc hway ih =>
    replace ih := ih hm
    obtain ⟨k, ⟨form⟩⟩ := n
    cases form with
    | anyOp left op right isSome =>
      by_cases hop : op = .eq
      · subst hop
        rw [visit_anyEqual]
        match i with
        | 0 =>
          cases hc
          exact partWay_left ih
        | 1 =>
          cases hc
          refine partWay_right ?_
          rw [partWay_arrayOperand hm hway]
          exact ih
        | i + 2 => cases hc
      · refine partWay_keep ?_ ?_ hc ih
        · cases op <;> first | rfl | exact absurd rfl hop
        · cases op <;> first | rfl | exact absurd rfl hop
    | allOp left op right =>
      by_cases hop : op = .notEq
      · subst hop
        rw [visit_allNotEqual]
        match i with
        | 0 =>
          cases hc
          exact partWay_not (partWay_left ih)
        | 1 =>
          cases hc
          refine partWay_not (partWay_right ?_)
          rw [partWay_arrayOperand hm hway]
          exact ih
        | i + 2 => cases hc
      · refine partWay_keep ?_ ?_ hc ih
        · cases op <;> first | rfl | exact absurd rfl hop
        · cases op <;> first | rfl | exact absurd rfl hop
    | _ => exact partWay_keep rfl rfl hc ih

end RewriteArrayAnyAllOperation

namespace StripCollate

/-- The steps that are left: the one under a collation is taken out, and the visitor goes on to
the parts of what stood there. -/
def stripWay : List (Crossing × Nat) → List (Crossing × Nat)
  | [] => []
  | [(.collate, _)] => []
  | (.collate, _) :: step :: way => step :: stripWay way
  | step :: way => step :: stripWay way

theorem mem_stripWay {way : List (Crossing × Nat)} : ∀ step ∈ stripWay way, step ∈ way := by
  fun_induction stripWay with
  | case1 => exact fun _ => id
  | case2 i => exact nofun
  | case3 i step way ih => 
    intro step' h
    rcases List.mem_cons.mp h with rfl | h
    · exact List.mem_cons_of_mem _ List.mem_cons_self
    · exact List.mem_cons_of_mem _ (List.mem_cons_of_mem _ (ih step' h))
  | case4 step way _ _ ih =>
    intro step' h
    rcases List.mem_cons.mp h with rfl | h
    · exact List.mem_cons_self
    · exact List.mem_cons_of_mem _ (ih step' h)

variable {n m : Σ k, Node k} {way : List (Crossing × Nat)}

private theorem pre_of_not_collate (h : crossing n ≠ .collate) : visitor.pre n.1 n.2 = n.2 := by
  obtain ⟨k, ⟨form⟩⟩ := n
  cases form with
  | collate inner collation => exact absurd rfl h
  | _ => rfl

private theorem children_visit_collate {inner : Expr} {collation : ObjectName} {i : Nat}
    {c : Σ k, Node k} (hc : (children inner)[i]? = some c) :
    (children (visitor.visit .expr (.mk (.collate inner collation))))[i]? =
      some ⟨c.1, visitor.visit c.1 c.2⟩ :=
  Visitor.getElem_children_visit (v := visitor) (n := .mk (.collate inner collation)) hc

/-- A node without parts is found where the rest of the way leads. -/
theorem partWay_visit (hleaf : children m.2 = []) (hm : crossing m ≠ .collate)
    (h : PartWay n way m) : PartWay ⟨n.1, visitor.visit n.1 n.2⟩ (stripWay way) m := by
  fun_induction stripWay way generalizing n with
  | case1 =>
    cases h
    have hpre := pre_of_not_collate hm
    rw [Visitor.visit_of_leaf (hpre.symm ▸ hleaf), hpre]
    exact .here m
  | case2 i =>
    obtain ⟨hcollate, c, hc, hway⟩ := h.of_cons
    obtain ⟨inner, collation, rfl⟩ := crossing_eq_collate hcollate
    cases i with
    | zero =>
      cases hc
      cases hway
      rw [Visitor.visit_of_leaf (v := visitor) (n := .mk (.collate inner collation)) hleaf]
      exact .here _
    | succ i => cases hc
  | case3 i step way ih =>
    obtain ⟨hcollate, c, hc, hway⟩ := h.of_cons
    obtain ⟨inner, collation, rfl⟩ := crossing_eq_collate hcollate
    cases i with
    | zero =>
      cases hc
      obtain ⟨hstep, d, hd, hway⟩ := hway.of_cons
      exact .cons ((crossing_visit _).trans hstep) (children_visit_collate hd) (ih hway)
    | succ i => cases hc
  | case4 step way hnil hcons ih =>
    obtain ⟨hstep, c, hc, hway⟩ := h.of_cons
    have hcollate : crossing n ≠ .collate := by
      rw [hstep]
      intro hcollate
      obtain ⟨_, i⟩ := step
      cases hcollate
      cases way with
      | nil => exact hnil i rfl rfl
      | cons step' way => exact hcons i step' way rfl rfl
    have hpre := pre_of_not_collate hcollate
    have hvisit : crossing ⟨n.1, visitor.visit n.1 n.2⟩ = step.1 := by
      rw [crossing_visit, hpre, hstep]
    exact .cons hvisit (Visitor.getElem_children_visit (hpre.symm ▸ hc)) (ih hway)

end StripCollate

section Projections
variable {m : Σ k, Node k} {way : List (Crossing × Nat)}

private theorem getElem_replaced {α : Type} {before after : List α} {x z : α} {i : Nat} (y : α)
    (h : (before ++ x :: after)[i]? = some z) :
    (before ++ y :: after)[i]? = some z ∨ z = x ∧ (before ++ y :: after)[i]? = some y := by
  rcases Nat.lt_or_ge i before.length with hi | hi
  · rw [List.getElem?_append_left hi] at h ⊢
    exact .inl h
  · rw [List.getElem?_append_right hi] at h ⊢
    revert h
    cases i - before.length with
    | zero => exact fun h => .inr ⟨(Option.some.inj h).symm, rfl⟩
    | succ j => exact .inl

/-- A way to an expression stays when the body of a query is replaced by one of the same
parts. -/
theorem PartWay.of_body {fields : QueryFields Node} {body : SetExpr}
    (hbody : children body = children fields.body) (hm : m.1 = .expr)
    (h : PartWay ⟨.query, .mk (.query fields)⟩ way m) :
    PartWay ⟨.query, .mk (.query { fields with body := body })⟩ way m := by
  cases way with
  | nil =>
    cases h
    cases hm
  | cons step way =>
    obtain ⟨hstep, c, hc, hway⟩ := h.of_cons
    rcases getElem_replaced ⟨.setExpr, body⟩ hc with hkeep | ⟨rfl, hnew⟩
    · exact .cons hstep hkeep hway
    · refine .cons hstep hnew ?_
      cases way with
      | nil =>
        cases hway
        cases hm
      | cons step way =>
        exact hway.of_children (crossing_of_ne_expr (by decide) _ _) hbody

theorem children_mapProjection {f : SelectItem Node → SelectItem Node}
    (hf : ∀ item, Container.parts (f item) = Container.parts item) (body : SetExpr) :
    children (mapProjection f body) = children body := by
  obtain ⟨form⟩ := body
  cases form with
  | select select =>
    change Container.partsList (select.projection.map f) ++ _ = Container.partsList _ ++ _
    rw [Container.partsList, List.flatMap_map, List.flatMap_congr fun item _ => hf item]
    rfl
  | _ => rfl

end Projections

namespace FixVersionColumnName

/-- The expression of an item that gets a name stays where it is. -/
theorem partWay_visit {n m : Σ k, Node k} {way : List (Crossing × Nat)} (hm : m.1 = .expr)
    (h : PartWay n way m) :
    PartWay ⟨n.1, visitor.visit n.1 n.2⟩ way ⟨m.1, visitor.visit m.1 m.2⟩ := by
  refine Way.visit (S := fun _ => True) crossing_map ?_ (fun _ _ => trivial) h
  rintro ⟨k, n⟩ step way - h
  refine hooks_query (P := fun k n n' => PartWay ⟨k, n⟩ (step :: way) m →
    PartWay ⟨k, n'⟩ (step :: way) m) (fun _ _ => id) (fun q h => ?_) k n h
  obtain ⟨fields, rfl⟩ := query_eq_mk q
  exact h.of_body (children_mapProjection parts_nameItem fields.body) hm

end FixVersionColumnName
end DatafusionPostgres.Sql
