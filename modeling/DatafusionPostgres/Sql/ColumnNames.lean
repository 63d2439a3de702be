import DatafusionPostgres.Library.Ways
import DatafusionPostgres.Sql.Shapes

/-! The column references of a statement: no visitor brings in one of a name that the lookups of
the oid alias types do not use. -/
namespace DatafusionPostgres.Sql
open DatafusionPostgres.Library

section Columns

/-- The parts of a column reference. -/
def columnIdents? : (Σ k, Node k) → Option (List Ident)
  | ⟨.expr, .mk (.identifier ident)⟩ => some [ident]
  | ⟨.expr, .mk (.compoundIdentifier idents)⟩ => some idents
  | _ => none

/-- A reference to a column with such a name. -/
def namesColumn (p : Ident → Bool) (m : Σ k, Node k) : Bool :=
  ((columnIdents? m).bind List.getLast?).any p

variable {p : Ident → Bool} {k k' : Kind}

theorem namesColumn_eq_false {m : Σ k, Node k} (h : columnIdents? m = none) :
    namesColumn p m = false := by
  rw [namesColumn, h]
  rfl

theorem column_cases {m : Σ k, Node k} (h : namesColumn p m) :
    (∃ ident, m = ⟨.expr, .mk (.identifier ident)⟩) ∨
      ∃ idents, m = ⟨.expr, .mk (.compoundIdentifier idents)⟩ := by
  obtain ⟨k, ⟨form⟩⟩ := m
  cases form with
  | identifier ident => exact .inl ⟨ident, rfl⟩
  | compoundIdentifier idents => exact .inr ⟨idents, rfl⟩
  | _ => cases h

/-- A column reference has no parts that could change. -/
theorem map_column (f : ∀ k, Node k → Node k) {n : Node k}
    (h : namesColumn p ⟨k, Trees.roll (Forms.map f (Trees.form n))⟩) :
    Trees.roll (Forms.map f (Trees.form n)) = n := by
  obtain ⟨form⟩ := n
  cases form <;> first | rfl | cases h

/-- Every such column reference in the new tree is one of the old tree. -/
def NoNewColumn (p : Ident → Bool) (n : Node k) (n' : Node k') : Prop :=
  ∀ m ∈ nodes n', namesColumn p m → m ∈ nodes n

namespace NoNewColumn

theorem refl (n : Node k) : NoNewColumn p n n := fun _ hm _ => hm

theorem trans {k'' : Kind} {n : Node k} {n' : Node k'} {n'' : Node k''}
    (h : NoNewColumn p n n') (h' : NoNewColumn p n' n'') : NoNewColumn p n n'' :=
  fun m hm hp => h m (h' m hm hp) hp

theorem part {n : Node k} {c : Σ k, Node k} (hc : c ∈ children n) : NoNewColumn p n c.2 :=
  fun _ hm _ => mem_nodes_of_mem_children hc hm

theorem of_not_column {n : Node k} {n' : Node k'} (hself : columnIdents? ⟨k', n'⟩ = none)
    (hparts : ∀ c ∈ children n', NoNewColumn p n c.2) : NoNewColumn p n n' := by
  intro m hm hp
  rcases mem_nodes_iff.mp hm with rfl | ⟨c, hc, hm⟩
  · rw [namesColumn_eq_false hself] at hp
    cases hp
  · exact hparts c hc m hm hp

theorem value {n : Node k} (value : Value) : NoNewColumn p n (Node.mk (.value value)) :=
  of_not_column rfl nofun

theorem array {n : Node k} (values : List Value) (named : Bool) :
    NoNewColumn p n (Node.mk (.array (values.map fun value => .mk (.value value)) named)) := by
  refine of_not_column rfl fun c hc => ?_
  rw [children_array, List.map_map] at hc
  obtain ⟨value, -, rfl⟩ := List.mem_map.mp hc
  exact .value value

variable {v : Visitor Node}

theorem visit (hpre : ∀ k (n : Node k), NoNewColumn p n (v.pre k n)) (n : Node k) :
    NoNewColumn p n (v.visit k n) := by
  refine v.mem_nodes_of_visit (P := fun m => namesColumn p m) (fun k n hp => ?_) hpre n
  rw [v.visit_eq] at hp ⊢
  exact (map_column v.visit hp).symm

/-- A hook that keeps the parts of every node, and the column references. -/
theorem pre_of_keep (hkeep : ∀ k (n : Node k), children (v.pre k n) = children n)
    (hself : ∀ k (n : Node k), v.pre k n = n ∨ columnIdents? ⟨k, v.pre k n⟩ = none) (k : Kind)
    (n : Node k) : NoNewColumn p n (v.pre k n) := by
  rcases hself k n with h | h
  · rw [h]
    exact .refl n
  · refine .of_not_column h fun c hc => .part ?_
    rwa [hkeep] at hc

end NoNewColumn
end Columns

section Rules
variable (p : Ident → Bool) {k : Kind} (n : Node k)

namespace RewriteArrayAnyAllOperation

private theorem noNewColumn_arrayOperand (right : Expr) :
    NoNewColumn p right (arrayOperand right) := by
  rcases arrayOperand_cases right with ⟨text, rfl, he⟩ | he
  · rw [he]
    have helems := NoNewColumn.array (p := p) (n := Node.mk (.value (.singleQuotedString text)))
      ((arrayItems (trimMatches isWhitespace text.toList)).map .singleQuotedString) true
    rwa [List.map_map] at helems
  · rw [he]
    exact .refl right

private theorem noNewColumn_anyToArrayContains {e left right : Expr}
    (hleft : ⟨.expr, left⟩ ∈ children e) (hright : ⟨.expr, right⟩ ∈ children e) :
    NoNewColumn p e (anyToArrayContains left right) := by
  refine .of_not_column rfl fun c hc => ?_
  rw [anyToArrayContains, children_functionCall] at hc
  rcases List.mem_cons.mp hc with rfl | hc
  · exact (NoNewColumn.part hright).trans (noNewColumn_arrayOperand p right)
  · rw [List.mem_singleton.mp hc]
    exact .part hleft

theorem noNewColumn_visit : NoNewColumn p n (visitor.visit k n) := by
  refine .visit (hooks_expr (P := fun _ n n' => NoNewColumn p n n') (fun _ => .refl) ?_) n
  intro e
  rcases preVisitExpr_cases e with ⟨left, right, isSome, rfl, he⟩ | ⟨left, right, rfl, he⟩ | he
  · rw [he]
    exact noNewColumn_anyToArrayContains p List.mem_cons_self
      (List.mem_cons_of_mem _ List.mem_cons_self)
  · rw [he]
    refine .of_not_column rfl fun c hc => ?_
    rw [List.mem_singleton.mp hc]
    exact noNewColumn_anyToArrayContains p List.mem_cons_self
      (List.mem_cons_of_mem _ List.mem_cons_self)
  · rw [he]
    exact .refl e

end RewriteArrayAnyAllOperation

namespace PrependUnqualifiedPgTableName

theorem noNewColumn_visit : NoNewColumn p n (visitor.visit k n) := by
  refine .visit (.pre_of_keep (fun _ => children_pre) fun k n => ?_) n
  cases k with
  | tableFactor => exact .inr rfl
  | _ => exact .inl rfl

end PrependUnqualifiedPgTableName

namespace StripCallableQualifier

theorem noNewColumn_visit : NoNewColumn p n (visitor.visit k n) := by
  refine .visit (.pre_of_keep (fun _ => children_pre) fun k n => ?_) n
  cases k with
  | tableFactor => exact .inr rfl
  | expr =>
    change preVisitExpr n = n ∨ columnIdents? ⟨.expr, preVisitExpr n⟩ = none
    unfold preVisitExpr
    split
    · exact .inr rfl
    · exact .inl rfl
  | _ => exact .inl rfl

end StripCallableQualifier

namespace FixArrayLiteral

theorem noNewColumn_visit : NoNewColumn p n (visitor.visit k n) := by
  refine .visit (hooks_expr (P := fun _ n n' => NoNewColumn p n n') (fun _ => .refl) ?_) n
  intro e
  rcases preVisitExpr_cases e with ⟨text, arr, rest, rfl, he⟩ | he
  · rw [he]
    refine .of_not_column rfl fun c hc => ?_
    rcases List.mem_cons.mp hc with rfl | hc
    · have helems := NoNewColumn.array (p := p)
        (n := Node.mk (.cast .doubleColon (.mk (.value (.singleQuotedString text))) (.array arr) rest))
        ((arrayItems text.toList).map fun s =>
          if isText arr then .singleQuotedString s else .number s false) true
      rwa [List.map_map] at helems
    · exact .part (List.mem_cons_of_mem _ hc)
  · rw [he]
    exact .refl e

end FixArrayLiteral

namespace CurrentUserVariableToSessionUserFunctionCall

theorem noNewColumn_visit : NoNewColumn p n (visitor.visit k n) := by
  refine .visit (.pre_of_keep (fun _ => children_pre) fun k n => ?_) n
  cases k with
  | expr =>
    change renameFunction (wrapIdentifier n) = n ∨
      columnIdents? ⟨.expr, renameFunction (wrapIdentifier n)⟩ = none
    rcases renameFunction_cases (wrapIdentifier n) with ⟨call, target, -, -, he⟩ | he
    · rw [he]
      exact .inr rfl
    · rw [he]
      rcases wrapIdentifier_cases n with ⟨ident, target, -, -, -, he⟩ | he
      · rw [he]
        exact .inr rfl
      · exact .inl he
  | _ => exact .inl rfl

end CurrentUserVariableToSessionUserFunctionCall

namespace StripCollate

theorem noNewColumn_visit : NoNewColumn p n (visitor.visit k n) := by
  refine .visit (hooks_expr (P := fun _ n n' => NoNewColumn p n n') (fun _ => .refl) ?_) n
  intro e
  rcases preVisitExpr_cases e with ⟨inner, collation, rfl, he⟩ | he
  · rw [he]
    exact .part (c := ⟨.expr, inner⟩) (List.mem_singleton_self _)
  · rw [he]
    exact .refl e

end StripCollate

namespace RewritePgCatalogOperator

theorem noNewColumn_visit : NoNewColumn p n (visitor.visit k n) := by
  refine .visit (.pre_of_keep (fun _ => children_pre) fun k n => ?_) n
  cases k with
  | expr =>
    change preVisitExpr n = n ∨ columnIdents? ⟨.expr, preVisitExpr n⟩ = none
    unfold preVisitExpr
    split
    · exact .inr rfl
    · exact .inl rfl
  | _ => exact .inl rfl

end RewritePgCatalogOperator

namespace RewriteRegCastToSubquery
variable {p}

private theorem noNewColumn_createSubquery (template : Query) (operand : Value) :
    NoNewColumn p template (createSubquery template operand) := by
  refine .visit (.pre_of_keep (fun _ => children_replacePlaceholder operand) fun k n => ?_) template
  refine hooks_expr (P := fun k n n' => n' = n ∨ columnIdents? ⟨k, n'⟩ = none)
    (fun _ _ => .inl rfl) (fun e => ?_) k n
  rcases replacePlaceholder_cases operand e with ⟨name, -, he⟩ | he
  · rw [he]
    exact .inr rfl
  · exact .inl he

/-- The lookup queries refer to columns too, but to none of a name that they do not use. -/
theorem noNewColumn_visit (htemplates : ∀ template ∈ regCastSpecs.map Prod.snd,
    ∀ m ∈ nodes template, namesColumn p m = false) : NoNewColumn p n (visitor.visit k n) := by
  refine .visit (hooks_expr (P := fun _ n n' => NoNewColumn p n n') (fun _ => .refl) ?_) n
  intro e
  rcases preVisitExpr_cases e with ⟨kind, operand, dataType, rest, -, he⟩ | he
  · rcases nameCast_cases he with ⟨literal, hr⟩ | ⟨template, htemplate, hr⟩
    · rw [hr]
      exact .value literal
    · rw [hr]
      refine .of_not_column rfl fun c hc m hm hp => ?_
      rw [List.mem_singleton.mp hc] at hm
      have hold := noNewColumn_createSubquery template operand m hm hp
      exact absurd (htemplates template htemplate m hold ▸ hp) Bool.false_ne_true
  · rw [he]
    exact .refl e

end RewriteRegCastToSubquery

namespace RemoveSubqueryFromProjection

theorem noNewColumn_visit : NoNewColumn p n (visitor.visit k n) := by
  refine .visit (fun k n => ?_) n
  exact forall_nodes_pre (P := fun m => namesColumn p m → m ∈ nodes n) (fun _ => nofun)
    (fun _ => nofun) (fun _ => nofun) nofun nofun fun m hm _ => hm

end RemoveSubqueryFromProjection

namespace FixVersionColumnName

theorem noNewColumn_visit : NoNewColumn p n (visitor.visit k n) := by
  refine .visit (fun k n => ?_) n
  exact forall_nodes_pre (P := fun m => namesColumn p m → m ∈ nodes n) (fun _ => nofun)
    (fun _ => nofun) fun m hm _ => hm

end FixVersionColumnName
end Rules
end DatafusionPostgres.Sql
