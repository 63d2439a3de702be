import DatafusionPostgres.Sql.QuantifiedComparison

/-! Nodes at which a rule has nothing to do, and that no later rule makes one where it has. -/
namespace DatafusionPostgres.Sql
open DatafusionPostgres.Library

section Quiet

/-- The rules that look at a single node. -/
inductive LocalRule
  | comparison
  | table
  | callable
  | user
  | collate
  | operator
  deriving DecidableEq

open CurrentUserVariableToSessionUserFunctionCall in
/-- A bare name that stands for a function call. -/
def isBareFunction (ident : Ident) : Bool :=
  ident.quoteStyle.isNone && (bareIdentifierToFunction.lookup (toLowercase ident.value)).isSome

open CurrentUserVariableToSessionUserFunctionCall in
/-- A function that goes by another name. -/
def isRenamed (name : ObjectName) : Bool :=
  ((lastIdentLower name).bind (List.lookup · builtinFunctionRename)).isSome

/-- The rule has nothing to do at the node. -/
def quiet : LocalRule → (Σ k, Node k) → Bool
  | .comparison, m => !isLowered m
  | .table, ⟨.tableFactor, .mk (.table [ident] _ none _)⟩ =>
    !PrependUnqualifiedPgTableName.isPgCatalogTable ident.value
  | .callable, ⟨.tableFactor, .mk (.table name _ (some _) _)⟩ => decide (name.length ≤ 1)
  | .callable, ⟨.expr, .mk (.function call)⟩ => decide (call.name.length ≤ 1)
  | .user, ⟨.expr, .mk (.identifier ident)⟩ => !isBareFunction ident
  | .user, ⟨.expr, .mk (.function call)⟩ => !isRenamed call.name
  | .collate, ⟨.expr, .mk (.collate _ _)⟩ => false
  | .operator, ⟨.expr, .mk (.binaryOp _ op _)⟩ =>
    decide (RewritePgCatalogOperator.rewriteOperator op = op)
  | _, _ => true

theorem quiet_comparison_eq (m : Σ k, Node k) : quiet .comparison m = !isLowered m := rfl

theorem quiet_tableName (ident : Ident) (aliasName : Option TableAlias) (rest : Rest Node) :
    quiet .table ⟨.tableFactor, .mk (.table [ident] aliasName none rest)⟩ =
      !PrependUnqualifiedPgTableName.isPgCatalogTable ident.value := rfl

theorem quiet_identifier (ident : Ident) :
    quiet .user ⟨.expr, .mk (.identifier ident)⟩ = !isBareFunction ident := rfl

theorem quiet_function (call : Function Node) :
    quiet .user ⟨.expr, .mk (.function call)⟩ = !isRenamed call.name := rfl

theorem quiet_map (r : LocalRule) (f : ∀ k, Node k → Node k) {k : Kind} (n : Node k) :
    quiet r ⟨k, Trees.roll (Forms.map f (Trees.form n))⟩ = quiet r ⟨k, n⟩ := by
  obtain ⟨form⟩ := n
  cases r with
  | comparison => exact congrArg (!·) (congrArg (Option.any _) (quantified_map f (.mk form)))
  | table =>
    cases form with
    | table name aliasName args rest =>
      match name, args with
      | [], none => rfl
      | [], some _ => rfl
      | [_], none => rfl
      | [_], some _ => rfl
      | _ :: _ :: _, none => rfl
      | _ :: _ :: _, some _ => rfl
    | _ => rfl
  | callable =>
    cases form with
    | table name aliasName args rest => cases args <;> rfl
    | _ => rfl
  | user => cases form <;> rfl
  | collate => cases form <;> rfl
  | operator => cases form <;> rfl

/-- The rule has nothing to do in the whole tree. -/
def Quiet (r : LocalRule) {k : Kind} (n : Node k) : Prop := ∀ m ∈ nodes n, quiet r m

theorem Quiet.self {r : LocalRule} {k : Kind} {n : Node k} (h : Quiet r n) : quiet r ⟨k, n⟩ :=
  h _ (mem_nodes_self n)

theorem Quiet.part {r : LocalRule} {k : Kind} {n : Node k} (h : Quiet r n) {c : Σ k, Node k}
    (hc : c ∈ children n) : Quiet r c.2 :=
  fun m hm => h m (mem_nodes_of_mem_children hc hm)

theorem quiet_iff {r : LocalRule} {k : Kind} {n : Node k} :
    Quiet r n ↔ quiet r ⟨k, n⟩ ∧ ∀ c ∈ children n, Quiet r c.2 :=
  forall_nodes_iff

variable {v : Visitor Node} {r : LocalRule}

theorem quiet_visit (n : Σ k, Node k) :
    quiet r ⟨n.1, v.visit n.1 n.2⟩ = quiet r ⟨n.1, v.pre n.1 n.2⟩ := by
  rw [v.visit_eq]
  exact quiet_map r _ _

/-- What a hook leaves quiet, its visitor leaves quiet. -/
theorem Quiet.visit (hpre : ∀ k (n : Node k), Quiet r n → Quiet r (v.pre k n)) {k : Kind}
    {n : Node k} (h : Quiet r n) : Quiet r (v.visit k n) := by
  refine v.forall_nodes_visit ?_ ?_ h
  · intro k n h
    rw [quiet_visit ⟨k, n⟩]
    exact (hpre k n h).self
  · exact fun k n h c hc => (hpre k n h).part hc

theorem Quiet.pre_of_keep (hkeep : ∀ k (n : Node k), children (v.pre k n) = children n)
    (hself : ∀ k (n : Node k), quiet r ⟨k, n⟩ → quiet r ⟨k, v.pre k n⟩) (k : Kind) (n : Node k)
    (h : Quiet r n) : Quiet r (v.pre k n) := by
  refine quiet_iff.mpr ⟨hself k n h.self, fun c hc => h.part ?_⟩
  rwa [hkeep] at hc

theorem quiet_visit_of_pre (hpre : ∀ k (n : Node k), quiet r ⟨k, v.pre k n⟩) {k : Kind}
    (n : Node k) : Quiet r (v.visit k n) := by
  refine v.nodes_visit_of_forall (fun k n => ?_) n
  rw [quiet_visit ⟨k, n⟩]
  exact hpre k n

theorem quiet_value (value : Value) : Quiet r (Node.mk (.value value)) :=
  quiet_iff.mpr ⟨by cases r <;> rfl, nofun⟩

theorem quiet_arrayValues {α : Type} (f : α → Value) (items : List α) (named : Bool) :
    Quiet r (Node.mk (.array (items.map fun item => .mk (.value (f item))) named)) := by
  refine quiet_iff.mpr ⟨by cases r <;> rfl, fun c hc => ?_⟩
  rw [children_array, List.map_map] at hc
  obtain ⟨item, -, rfl⟩ := List.mem_map.mp hc
  exact quiet_value _

theorem quiet_call {call : Function Node} (hname : call.name.length ≤ 1)
    (hrenamed : isRenamed call.name = false) : quiet r ⟨.expr, .mk (.function call)⟩ := by
  cases r with
  | callable => exact decide_eq_true hname
  | user => rw [quiet_function, hrenamed]; rfl
  | _ => rfl

end Quiet

namespace RewriteArrayAnyAllOperation

theorem quiet_comparison {k : Kind} (n : Node k) : Quiet .comparison (visitor.visit k n) :=
  quiet_visit_of_pre (fun k n => by rw [quiet_comparison_eq, isLowered_pre]; rfl) n

theorem pre_of_quiet {k : Kind} {n : Node k} (h : quiet .comparison ⟨k, n⟩) :
    visitor.pre k n = n := by
  refine hooks_expr (P := fun k n n' => quiet .comparison ⟨k, n⟩ → n' = n) (fun _ _ _ => rfl) ?_
    k n h
  intro e h
  rcases preVisitExpr_cases e with ⟨left, right, isSome, rfl, -⟩ | ⟨left, right, rfl, -⟩ | he
  · exact absurd h Bool.false_ne_true
  · exact absurd h Bool.false_ne_true
  · exact he

end RewriteArrayAnyAllOperation

namespace PrependUnqualifiedPgTableName

private theorem quiet_pre {r : LocalRule} (k : Kind) (n : Node k) (h : quiet r ⟨k, n⟩) :
    quiet r ⟨k, visitor.pre k n⟩ := by
  cases k with
  | tableFactor =>
    change quiet r ⟨.tableFactor, preVisitTableFactor n⟩
    rcases preVisitTableFactor_cases n with ⟨ident, aliasName, rest, -, -, ht⟩ | ht
    · rw [ht]
      cases r <;> rfl
    · rwa [ht]
  | _ => exact h

theorem quiet_table {k : Kind} (n : Node k) : Quiet .table (visitor.visit k n) := by
  refine quiet_visit_of_pre (fun k n => ?_) n
  cases k with
  | tableFactor =>
    change quiet .table ⟨.tableFactor, preVisitTableFactor n⟩
    unfold preVisitTableFactor
    split
    · split
      · rfl
      · rename_i h
        rw [quiet_tableName, Bool.eq_false_iff.mpr h]
        rfl
    · rename_i h
      obtain ⟨form⟩ := n
      cases form with
      | table name aliasName args rest =>
        match name, args with
        | [], none => rfl
        | [], some _ => rfl
        | [ident], none => exact absurd rfl (h ident aliasName rest)
        | [_], some _ => rfl
        | _ :: _ :: _, none => rfl
        | _ :: _ :: _, some _ => rfl
      | _ => rfl
  | _ => rfl

theorem quiet_of_quiet {r : LocalRule} {k : Kind} {n : Node k} (h : Quiet r n) :
    Quiet r (visitor.visit k n) :=
  h.visit (Quiet.pre_of_keep (fun _ => children_pre) quiet_pre)

theorem pre_of_quiet {k : Kind} {n : Node k} (h : quiet .table ⟨k, n⟩) :
    visitor.pre k n = n := by
  cases k with
  | tableFactor =>
    rcases preVisitTableFactor_cases n with ⟨ident, aliasName, rest, rfl, htable, -⟩ | ht
    · rw [quiet_tableName, htable] at h
      exact absurd h Bool.false_ne_true
    · exact ht
  | _ => rfl

end PrependUnqualifiedPgTableName

namespace StripCallableQualifier

private theorem quiet_pre {r : LocalRule} (k : Kind) (n : Node k) (h : quiet r ⟨k, n⟩) :
    quiet r ⟨k, visitor.pre k n⟩ := by
  cases k with
  | tableFactor =>
    change quiet r ⟨.tableFactor, preVisitTableFactor n⟩
    unfold preVisitTableFactor
    split
    · rename_i name aliasName args rest
      cases r with
      | callable => exact decide_eq_true (length_lastIdent name)
      | table => cases hname : lastIdent name with
        | nil => rfl
        | cons ident idents => cases idents <;> rfl
      | _ => rfl
    · exact h
  | expr =>
    change quiet r ⟨.expr, preVisitExpr n⟩
    unfold preVisitExpr
    split
    · rename_i call
      cases r with
      | callable => exact decide_eq_true (length_lastIdent call.name)
      | user =>
        rw [quiet_function, isRenamed, CurrentUserVariableToSessionUserFunctionCall.lastIdentLower] at h ⊢
        rwa [getLast_lastIdent]
      | _ => rfl
    · exact h
  | _ => exact h

theorem quiet_callable {k : Kind} (n : Node k) : Quiet .callable (visitor.visit k n) := by
  refine quiet_visit_of_pre (fun k n => ?_) n
  cases k with
  | tableFactor =>
    change quiet .callable ⟨.tableFactor, preVisitTableFactor n⟩
    unfold preVisitTableFactor
    split
    · exact decide_eq_true (length_lastIdent _)
    · rename_i h
      obtain ⟨form⟩ := n
      cases form with
      | table name aliasName args rest =>
        cases args with
        | none => rfl
        | some args => exact absurd rfl (h name aliasName args rest)
      | _ => rfl
  | expr =>
    change quiet .callable ⟨.expr, preVisitExpr n⟩
    unfold preVisitExpr
    split
    · exact decide_eq_true (length_lastIdent _)
    · rename_i h
      obtain ⟨form⟩ := n
      cases form with
      | function call => exact absurd rfl (h call)
      | _ => rfl
  | _ => rfl

theorem quiet_of_quiet {r : LocalRule} {k : Kind} {n : Node k} (h : Quiet r n) :
    Quiet r (visitor.visit k n) :=
  h.visit (Quiet.pre_of_keep (fun _ => children_pre) quiet_pre)

theorem lastIdent_of_length_le {name : ObjectName} (h : name.length ≤ 1) :
    lastIdent name = name :=
  if_neg (Nat.not_lt.mpr h)

theorem pre_of_quiet {k : Kind} {n : Node k} (h : quiet .callable ⟨k, n⟩) :
    visitor.pre k n = n := by
  cases k with
  | tableFactor =>
    change preVisitTableFactor n = n
    unfold preVisitTableFactor
    split
    · rw [lastIdent_of_length_le (of_decide_eq_true h)]
    · rfl
  | expr =>
    change preVisitExpr n = n
    unfold preVisitExpr
    split
    · rw [lastIdent_of_length_le (of_decide_eq_true h)]
    · rfl
  | _ => rfl

end StripCallableQualifier

namespace FixArrayLiteral

private theorem quiet_pre {r : LocalRule} (k : Kind) (n : Node k) (h : Quiet r n) :
    Quiet r (visitor.pre k n) := by
  refine hooks_expr (P := fun _ n n' => Quiet r n → Quiet r n') (fun _ _ => id) ?_ k n h
  intro e h
  rcases preVisitExpr_cases e with ⟨text, arr, rest, rfl, he⟩ | he
  · rw [he]
    refine quiet_iff.mpr ⟨by cases r <;> rfl, fun c hc => ?_⟩
    rcases List.mem_cons.mp hc with rfl | hc
    · exact quiet_arrayValues _ _ _
    · exact h.part (List.mem_cons_of_mem _ hc)
  · rwa [he]

theorem quiet_of_quiet {r : LocalRule} {k : Kind} {n : Node k} (h : Quiet r n) :
    Quiet r (visitor.visit k n) :=
  h.visit quiet_pre

end FixArrayLiteral

namespace CurrentUserVariableToSessionUserFunctionCall

theorem lookup_values {specs : List (String × String)} {name target : String}
    (h : specs.lookup name = some target) : target ∈ specs.map Prod.snd := by
  obtain ⟨before, after, rfl, -⟩ := List.lookup_eq_some_iff.mp h
  simp

private theorem isRenamed_target {name target : String}
    (h : builtinFunctionRename.lookup name = some target) :
    isRenamed [Ident.new target] = false := by
  have htarget := lookup_values h
  simp only [builtinFunctionRename, List.map_cons, List.map_nil, List.mem_cons, List.not_mem_nil,
    or_false] at htarget
  rcases htarget with rfl | rfl <;> decide

private theorem isRenamed_bare {name target : String}
    (h : bareIdentifierToFunction.lookup name = some target) :
    isRenamed [Ident.new target] = false := by
  have htarget := lookup_values h
  rw [List.mem_singleton.mp htarget]
  decide

private theorem quiet_wrapIdentifier {r : LocalRule} {e : Expr} (h : quiet r ⟨.expr, e⟩) :
    quiet r ⟨.expr, wrapIdentifier e⟩ := by
  rcases wrapIdentifier_cases e with ⟨ident, target, -, -, htarget, he⟩ | he
  · rw [he]
    exact quiet_call (Nat.le_refl 1) (isRenamed_bare htarget)
  · rwa [he]

private theorem quiet_renameFunction {r : LocalRule} {e : Expr} (h : quiet r ⟨.expr, e⟩) :
    quiet r ⟨.expr, renameFunction e⟩ := by
  rcases renameFunction_cases e with ⟨call, target, -, htarget, he⟩ | he
  · obtain ⟨name, -, htarget⟩ := Option.bind_eq_some_iff.mp htarget
    rw [he]
    exact quiet_call (Nat.le_refl 1) (isRenamed_target htarget)
  · rwa [he]

private theorem quiet_pre {r : LocalRule} (k : Kind) (n : Node k) (h : quiet r ⟨k, n⟩) :
    quiet r ⟨k, visitor.pre k n⟩ :=
  hooks_expr (P := fun k n n' => quiet r ⟨k, n⟩ → quiet r ⟨k, n'⟩) (fun _ _ => id)
    (fun _ h => quiet_renameFunction (quiet_wrapIdentifier h)) k n h

theorem quiet_of_quiet {r : LocalRule} {k : Kind} {n : Node k} (h : Quiet r n) :
    Quiet r (visitor.visit k n) :=
  h.visit (Quiet.pre_of_keep (fun _ => children_pre) quiet_pre)

private theorem quiet_user_pre (e : Expr) : quiet .user ⟨.expr, preVisitExpr e⟩ := by
  obtain ⟨form⟩ := e
  cases form with
  | identifier ident =>
    rw [preVisitExpr, wrapIdentifier]
    split
    · rename_i htarget
      exact quiet_renameFunction (quiet_call (Nat.le_refl 1) (isRenamed_bare htarget))
    · rename_i hbare
      change !isBareFunction ident
      rw [Bool.not_eq_true', isBareFunction, Bool.and_eq_false_iff]
      cases hquote : ident.quoteStyle with
      | some quote => exact .inl rfl
      | none =>
        cases hlookup : bareIdentifierToFunction.lookup (toLowercase ident.value) with
        | none => exact .inr rfl
        | some target => exact absurd hlookup (hbare target hquote)
  | function call =>
    change quiet .user ⟨.expr, renameFunction (.mk (.function call))⟩
    rw [renameFunction]
    split
    · rename_i target htarget
      obtain ⟨name, -, htarget⟩ := Option.bind_eq_some_iff.mp htarget
      exact quiet_call (Nat.le_refl 1) (isRenamed_target htarget)
    · rename_i htarget
      rw [quiet_function, isRenamed, htarget]
      rfl
  | _ => rfl

theorem quiet_user {k : Kind} (n : Node k) : Quiet .user (visitor.visit k n) := by
  refine quiet_visit_of_pre (fun k n => ?_) n
  cases k with
  | expr => exact quiet_user_pre n
  | _ => rfl

theorem pre_of_quiet {k : Kind} {n : Node k} (h : quiet .user ⟨k, n⟩) :
    visitor.pre k n = n := by
  refine hooks_expr (P := fun k n n' => quiet .user ⟨k, n⟩ → n' = n) (fun _ _ _ => rfl) ?_ k n h
  intro e h
  have hwrap : wrapIdentifier e = e := by
    rcases wrapIdentifier_cases e with ⟨ident, target, rfl, hquote, htarget, -⟩ | he
    · rw [quiet_identifier, isBareFunction, hquote, htarget] at h
      exact absurd h Bool.false_ne_true
    · exact he
  rw [preVisitExpr, hwrap]
  rcases renameFunction_cases e with ⟨call, target, rfl, htarget, -⟩ | he
  · rw [quiet_function, isRenamed, htarget] at h
    exact absurd h Bool.false_ne_true
  · exact he

end CurrentUserVariableToSessionUserFunctionCall

namespace StripCollate

theorem pre_of_quiet {k : Kind} {n : Node k} (h : quiet .collate ⟨k, n⟩) :
    visitor.pre k n = n := by
  refine hooks_expr (P := fun k n n' => quiet .collate ⟨k, n⟩ → n' = n) (fun _ _ _ => rfl) ?_
    k n h
  intro e h
  rcases preVisitExpr_cases e with ⟨inner, collation, rfl, -⟩ | he
  · exact absurd h Bool.false_ne_true
  · exact he

private theorem quiet_pre {r : LocalRule} (k : Kind) (n : Node k) (h : Quiet r n) :
    Quiet r (visitor.pre k n) := by
  refine hooks_expr (P := fun _ n n' => Quiet r n → Quiet r n') (fun _ _ => id) ?_ k n h
  intro e h
  rcases preVisitExpr_cases e with ⟨inner, collation, rfl, he⟩ | he
  · rw [he]
    exact h.part (List.mem_singleton_self _)
  · rwa [he]

theorem quiet_of_quiet {r : LocalRule} {k : Kind} {n : Node k} (h : Quiet r n) :
    Quiet r (visitor.visit k n) :=
  h.visit quiet_pre

end StripCollate

namespace RewritePgCatalogOperator

theorem rewriteOperator_rewriteOperator (op : BinaryOperator) :
    rewriteOperator (rewriteOperator op) = rewriteOperator op := by
  cases op with
  | pgCustomBinaryOperator names =>
    rw [rewriteOperator]
    split
    · rename_i hcatalog
      cases hbuiltin : names.getLast?.bind builtinOperator with
      | none => rw [Option.getD_none, rewriteOperator, if_pos hcatalog, hbuiltin, Option.getD_none]
      | some op =>
        obtain ⟨name, -, hname⟩ := Option.bind_eq_some_iff.mp hbuiltin
        unfold builtinOperator at hname
        split at hname <;> cases hname <;> rfl
    · rename_i hcatalog
      rw [rewriteOperator, if_neg hcatalog]
  | _ => rfl

private theorem quiet_pre {r : LocalRule} (k : Kind) (n : Node k) (h : quiet r ⟨k, n⟩) :
    quiet r ⟨k, visitor.pre k n⟩ := by
  cases k with
  | expr =>
    change quiet r ⟨.expr, preVisitExpr n⟩
    unfold preVisitExpr
    split
    · cases r with
      | operator => exact decide_eq_true (rewriteOperator_rewriteOperator _)
      | _ => rfl
    · exact h
  | _ => exact h

theorem quiet_of_quiet {r : LocalRule} {k : Kind} {n : Node k} (h : Quiet r n) :
    Quiet r (visitor.visit k n) :=
  h.visit (Quiet.pre_of_keep (fun _ => children_pre) quiet_pre)

theorem quiet_operator {k : Kind} (n : Node k) : Quiet .operator (visitor.visit k n) := by
  refine quiet_visit_of_pre (fun k n => ?_) n
  cases k with
  | expr =>
    change quiet .operator ⟨.expr, preVisitExpr n⟩
    unfold preVisitExpr
    split
    · exact decide_eq_true (rewriteOperator_rewriteOperator _)
    · rename_i h
      obtain ⟨form⟩ := n
      cases form with
      | binaryOp left op right => exact absurd rfl (h left op right)
      | _ => rfl
  | _ => rfl

theorem pre_of_quiet {k : Kind} {n : Node k} (h : quiet .operator ⟨k, n⟩) :
    visitor.pre k n = n := by
  cases k with
  | expr =>
    change preVisitExpr n = n
    unfold preVisitExpr
    split
    · rw [of_decide_eq_true h]
    · rfl
  | _ => rfl

end RewritePgCatalogOperator

namespace RewriteRegCastToSubquery

private theorem quiet_replacePlaceholder {r : LocalRule} (operand : Value) (k : Kind) (n : Node k)
    (h : quiet r ⟨k, n⟩) : quiet r ⟨k, (placeholderReplacer operand).pre k n⟩ := by
  refine hooks_expr (P := fun k n n' => quiet r ⟨k, n⟩ → quiet r ⟨k, n'⟩) (fun _ _ => id) ?_ k n h
  intro e h
  rcases replacePlaceholder_cases operand e with ⟨name, -, he⟩ | he
  · rw [he]
    exact (quiet_value operand).self
  · rwa [he]

private theorem quiet_template (r : LocalRule) {template : Query}
    (h : template ∈ regCastSpecs.map Prod.snd) : Quiet r template := by
  have hall : (nodes template).all (quiet r) := by
    simp only [regCastSpecs, List.map_cons, List.map_nil, List.mem_cons, List.not_mem_nil,
      or_false] at h
    rcases h with rfl | rfl | rfl | rfl
    all_goals
      rw [nodes, fold_eq_foldN (m := 20) _ rfl]
      cases r <;> decide +kernel
  exact List.all_eq_true.mp hall

theorem quiet_createSubquery (r : LocalRule) {template : Query}
    (h : template ∈ regCastSpecs.map Prod.snd) (operand : Value) :
    Quiet r (createSubquery template operand) :=
  (quiet_template r h).visit (Quiet.pre_of_keep (fun _ => children_replacePlaceholder operand)
    (quiet_replacePlaceholder operand))

private theorem quiet_pre {r : LocalRule} (k : Kind) (n : Node k) (h : Quiet r n) :
    Quiet r (visitor.pre k n) := by
  refine hooks_expr (P := fun _ n n' => Quiet r n → Quiet r n') (fun _ _ => id) ?_ k n h
  intro e h
  rcases preVisitExpr_cases e with ⟨kind, operand, dataType, rest, -, he⟩ | he
  · rcases nameCast_cases he with ⟨literal, hr⟩ | ⟨template, htemplate, hr⟩
    · rw [hr]
      exact quiet_value literal
    · rw [hr]
      refine quiet_iff.mpr ⟨by cases r <;> rfl, fun c hc => ?_⟩
      rw [List.mem_singleton.mp hc]
      exact quiet_createSubquery r htemplate operand
  · rwa [he]

theorem quiet_of_quiet {r : LocalRule} {k : Kind} {n : Node k} (h : Quiet r n) :
    Quiet r (visitor.visit k n) :=
  h.visit quiet_pre

end RewriteRegCastToSubquery

section Projections
variable {P : (Σ k, Node k) → Prop}

/-- What holds of all nodes below a query, and does not look at set expressions, holds after a
change of the items that keeps it. -/
theorem forall_parts_mapItems (hbody : ∀ body : SetExpr, P ⟨.setExpr, body⟩)
    {f : SelectItem Node → SelectItem Node}
    (hf : ∀ item, (∀ c ∈ Container.parts item, ∀ m ∈ nodes c.2, P m) →
      ∀ c ∈ Container.parts (f item), ∀ m ∈ nodes c.2, P m) {q : Query}
    (h : ∀ c ∈ children q, ∀ m ∈ nodes c.2, P m) :
    ∀ c ∈ children (mapItems f q), ∀ m ∈ nodes c.2, P m := by
  obtain ⟨fields, rfl⟩ := query_eq_mk q
  intro c hc
  rcases mem_children_body hc with rfl | hc
  · have hold : ∀ m ∈ nodes fields.body, P m :=
      h ⟨.setExpr, fields.body⟩ (List.mem_append_right _ List.mem_cons_self)
    dsimp only
    unfold mapProjection
    split
    · rename_i select hselect
      rw [hselect] at hold
      have hparts := (forall_nodes_iff.mp hold).2
      refine forall_nodes_iff.mpr ⟨hbody _, fun c hc => ?_⟩
      rcases List.mem_append.mp hc with hprojection | hrest
      · obtain ⟨item', hitem', hc⟩ := List.mem_flatMap.mp hprojection
        obtain ⟨item, hitem, rfl⟩ := List.mem_map.mp hitem'
        refine hf item (fun c hc => hparts c ?_) c hc
        exact List.mem_append_left _ (List.mem_flatMap.mpr ⟨item, hitem, hc⟩)
      · exact hparts c (List.mem_append_right _ hrest)
    · exact hold
  · exact h c hc

theorem forall_nodes_mapItems (hquery : ∀ q : Query, P ⟨.query, q⟩)
    (hbody : ∀ body : SetExpr, P ⟨.setExpr, body⟩) {f : SelectItem Node → SelectItem Node}
    (hf : ∀ item, (∀ c ∈ Container.parts item, ∀ m ∈ nodes c.2, P m) →
      ∀ c ∈ Container.parts (f item), ∀ m ∈ nodes c.2, P m) {q : Query}
    (h : ∀ m ∈ nodes q, P m) : ∀ m ∈ nodes (mapItems f q), P m :=
  forall_nodes_iff.mpr ⟨hquery _, forall_parts_mapItems hbody hf (forall_nodes_iff.mp h).2⟩

end Projections

namespace RemoveSubqueryFromProjection
variable {P : (Σ k, Node k) → Prop}

/-- The nodes that the rule brings in are values, subqueries and queries. -/
theorem forall_nodes_pre (hquery : ∀ q : Query, P ⟨.query, q⟩)
    (hbody : ∀ body : SetExpr, P ⟨.setExpr, body⟩) (hsub : ∀ q, P ⟨.expr, .mk (.subquery q)⟩)
    (hnull : P ⟨.expr, .mk (.value .null)⟩) (hone : P ⟨.expr, .mk (.value (.number "1" false))⟩)
    {k : Kind} {n : Node k} (h : ∀ m ∈ nodes n, P m) : ∀ m ∈ nodes (visitor.pre k n), P m := by
  have htreat : ∀ e, (∀ m ∈ nodes e, P m) → ∀ m ∈ nodes (treatExpr e), P m := by
    intro e h
    rcases treatExpr_cases e with ⟨subquery, rfl, -, he⟩ | ⟨subquery, rfl, -, -, he⟩ | he
    · rw [he]
      exact forall_nodes_iff.mpr ⟨hnull, nofun⟩
    · rw [he]
      have hold := (forall_nodes_iff.mp h).2 ⟨.query, subquery⟩ (List.mem_singleton_self _)
      refine forall_nodes_iff.mpr ⟨hsub _, fun c hc => ?_⟩
      rw [List.mem_singleton.mp hc]
      refine forall_nodes_iff.mpr ⟨hquery _, fun c hc => ?_⟩
      rcases mem_children_addLimit hc with rfl | hc
      · exact forall_nodes_iff.mpr ⟨hone, nofun⟩
      · exact (forall_nodes_iff.mp hold).2 c hc
    · rwa [he]
  refine hooks_query (P := fun k n n' => (∀ m ∈ nodes n, P m) → ∀ m ∈ nodes n', P m)
    (fun _ _ => id) (fun q => forall_nodes_mapItems hquery hbody ?_) k n h
  intro item h c hc
  cases item with
  | unnamedExpr expr =>
    rw [List.mem_singleton.mp hc]
    exact htreat expr (h ⟨.expr, expr⟩ (List.mem_singleton_self _))
  | exprWithAlias expr aliasName =>
    rw [List.mem_singleton.mp hc]
    exact htreat expr (h ⟨.expr, expr⟩ (List.mem_singleton_self _))
  | _ => exact h c hc

theorem quiet_of_quiet {r : LocalRule} {k : Kind} {n : Node k} (h : Quiet r n) :
    Quiet r (visitor.visit k n) := by
  refine h.visit fun k n h => forall_nodes_pre (P := fun m => quiet r m) ?_ ?_ ?_
    (quiet_value _).self (quiet_value _).self h
  all_goals
    intro
    cases r <;> rfl

end RemoveSubqueryFromProjection

namespace FixVersionColumnName
variable {P : (Σ k, Node k) → Prop}

theorem forall_parts_pre (hbody : ∀ body : SetExpr, P ⟨.setExpr, body⟩) {k : Kind} {n : Node k}
    (h : ∀ m ∈ nodes n, P m) : ∀ c ∈ children (visitor.pre k n), ∀ m ∈ nodes c.2, P m := by
  refine hooks_query (P := fun _ n n' => (∀ c ∈ children n, ∀ m ∈ nodes c.2, P m) →
    ∀ c ∈ children n', ∀ m ∈ nodes c.2, P m) (fun _ _ => id)
    (fun q => forall_parts_mapItems hbody ?_) k n (forall_nodes_iff.mp h).2
  intro item h c hc
  rw [parts_nameItem] at hc
  exact h c hc

theorem forall_nodes_pre (hquery : ∀ q : Query, P ⟨.query, q⟩)
    (hbody : ∀ body : SetExpr, P ⟨.setExpr, body⟩) {k : Kind} {n : Node k}
    (h : ∀ m ∈ nodes n, P m) : ∀ m ∈ nodes (visitor.pre k n), P m := by
  refine hooks_query (P := fun k n n' => (∀ m ∈ nodes n, P m) → ∀ m ∈ nodes n', P m)
    (fun _ _ => id) (fun q => forall_nodes_mapItems hquery hbody ?_) k n h
  intro item h c hc
  rw [parts_nameItem] at hc
  exact h c hc

theorem quiet_of_quiet {r : LocalRule} {k : Kind} {n : Node k} (h : Quiet r n) :
    Quiet r (visitor.visit k n) := by
  refine h.visit fun k n h => forall_nodes_pre (P := fun m => quiet r m) ?_ ?_ h
  all_goals
    intro
    cases r <;> rfl

end FixVersionColumnName
end DatafusionPostgres.Sql
