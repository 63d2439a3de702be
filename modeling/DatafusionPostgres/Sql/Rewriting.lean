import DatafusionPostgres.Sql.Rules

/-! The visitors of the rules reach an end, and the rules run in their order. -/
namespace DatafusionPostgres.Sql
open DatafusionPostgres.Library

section Hooks

/-- What holds of a kept node and of a hook's outcome holds of what the visitor makes. -/
theorem hooks_expr {P : ∀ k, Node k → Node k → Prop} {f : Expr → Expr}
    (hkeep : ∀ k n, P k n n) (hf : ∀ e, P .expr e (f e)) (k : Kind) (n : Node k) :
    P k n (hooks id id f k n) := by
  cases k with
  | expr => exact hf n
  | _ => exact hkeep _ n

theorem hooks_query {P : ∀ k, Node k → Node k → Prop} {f : Query → Query}
    (hkeep : ∀ k n, P k n n) (hf : ∀ q, P .query q (f q)) (k : Kind) (n : Node k) :
    P k n (hooks f id id k n) := by
  cases k with
  | query => exact hf n
  | _ => exact hkeep _ n

theorem children_array (elem : List Expr) (named : Bool) :
    children (Node.mk (.array elem named)) = elem.map (Sigma.mk Kind.expr) :=
  List.flatMap_pure_eq_map _ _

theorem children_functionCall (name : String) (args : List Expr) :
    children (functionCall name args) = args.map (Sigma.mk Kind.expr) := by
  change Container.partsList (args.map FunctionArg.unnamed) ++ [] ++ [] = _
  rw [Container.partsList, List.flatMap_map, List.append_nil, List.append_nil]
  exact List.flatMap_pure_eq_map _ _

theorem visit_functionCall {v : Visitor Node} {name : String} {args : List Expr}
    (h : v.pre .expr (functionCall name args) = functionCall name args) :
    v.visit .expr (functionCall name args) = functionCall name (args.map (v.visit .expr)) := by
  rw [v.visit_eq, h]
  refine congrArg (fun args => Node.mk (.function ⟨[Ident.new name], .list args .none, .none⟩)) ?_
  change (args.map FunctionArg.unnamed).map (Container.map v.visit) = _
  rw [List.map_map, List.map_map]
  rfl

theorem depth_value (weight : ∀ k, Node k → Nat) (v : Value) :
    depth weight .expr (.mk (.value v)) = weight .expr (.mk (.value v)) := by
  rw [depth_eq, children_mk]
  rfl

/-- A hook for expressions leaves parts of smaller depth if it does where it changes something. -/
theorem depth_lt_hooks {weight : ∀ k, Node k → Nat} (hpos : ∀ k n, 0 < weight k n) {f : Expr → Expr}
    (hf : ∀ e, f e = e ∨ ∀ c ∈ children (f e), depth weight c.1 c.2 < depth weight .expr e)
    {k : Kind} (n : Node k) :
    ∀ c ∈ children (hooks id id f k n), depth weight c.1 c.2 < depth weight k n := by
  have hkeep : ∀ k (n : Node k), ∀ c ∈ children n, depth weight c.1 c.2 < depth weight k n :=
    fun k n c hc => depth_lt weight (hpos k n) hc
  refine hooks_expr (P := fun k n n' =>
    ∀ c ∈ children n', depth weight c.1 c.2 < depth weight k n) hkeep ?_ k n
  intro e
  rcases hf e with he | hlt
  · rw [he]
    exact hkeep .expr e
  · exact hlt

end Hooks

namespace RewriteArrayAnyAllOperation

theorem arrayOperand_cases (right : Expr) :
    (∃ text, right = .mk (.value (.singleQuotedString text)) ∧
      arrayOperand right = .mk (.array
        ((arrayItems (trimMatches isWhitespace text.toList)).map fun s =>
          .mk (.value (.singleQuotedString s))) true)) ∨
      arrayOperand right = right := by
  unfold arrayOperand
  split
  · rename_i text
    dsimp only
    split
    · exact .inl ⟨text, rfl, rfl⟩
    · exact .inr rfl
  · exact .inr rfl

theorem preVisitExpr_cases (e : Expr) :
    (∃ left right isSome, e = .mk (.anyOp left .eq right isSome) ∧
      preVisitExpr e = anyToArrayContains left right) ∨
    (∃ left right, e = .mk (.allOp left .notEq right) ∧
      preVisitExpr e = .mk (.unaryOp .not (anyToArrayContains left right))) ∨
    preVisitExpr e = e := by
  unfold preVisitExpr
  split
  · exact .inl ⟨_, _, _, rfl, rfl⟩
  · exact .inr (.inl ⟨_, _, rfl, rfl⟩)
  · exact .inr (.inr rfl)

/-- Room for the array of literals and for the negation that a lowered node turns into. -/
def weight : ∀ k, Node k → Nat
  | .expr, .mk (.anyOp _ _ _ _) => 3
  | .expr, .mk (.allOp _ _ _) => 3
  | _, _ => 1

private theorem weight_pos (k : Kind) (n : Node k) : 0 < weight k n := by
  unfold weight
  split <;> decide

private theorem depth_arrayOperand (right : Expr) :
    depth weight .expr (arrayOperand right) ≤ depth weight .expr right + 1 := by
  rcases arrayOperand_cases right with ⟨text, rfl, harray⟩ | hkeep
  · have hliteral : ∀ v, depth weight .expr (.mk (.value v)) = 1 := depth_value weight
    rw [harray, hliteral]
    refine depth_le weight (b := 1) fun c hc => ?_
    rw [children_array, List.map_map] at hc
    obtain ⟨s, -, rfl⟩ := List.mem_map.mp hc
    exact Nat.le_of_eq (hliteral _)
  · rw [hkeep]
    exact Nat.le_succ _

private theorem depth_anyToArrayContains (left right : Expr) {b : Nat}
    (hleft : depth weight .expr left ≤ b) (hright : depth weight .expr right + 1 ≤ b) :
    depth weight .expr (anyToArrayContains left right) ≤ 1 + b := by
  refine depth_le weight fun c hc => ?_
  rw [anyToArrayContains, children_functionCall] at hc
  simp only [List.map_cons, List.map_nil, List.mem_cons, List.not_mem_nil, or_false] at hc
  rcases hc with rfl | rfl
  · exact Nat.le_trans (depth_arrayOperand right) hright
  · exact hleft

private theorem rank_lt {k : Kind} (n : Node k) :
    ∀ c ∈ children (hooks id id preVisitExpr k n),
      depth weight c.1 c.2 < depth weight k n := by
  refine depth_lt_hooks weight_pos (fun e => ?_) n
  rcases preVisitExpr_cases e with ⟨left, right, isSome, rfl, he⟩ | ⟨left, right, rfl, he⟩ | he
  · refine .inr fun c hc => ?_
    have hleft := depth_children weight (n := Node.mk (.anyOp left .eq right isSome))
      (c := ⟨.expr, left⟩) List.mem_cons_self
    have hright := depth_children weight (n := Node.mk (.anyOp left .eq right isSome))
      (c := ⟨.expr, right⟩) (List.mem_cons_of_mem _ List.mem_cons_self)
    have harray := depth_arrayOperand right
    rw [he, anyToArrayContains, children_functionCall] at hc
    simp only [List.map_cons, List.map_nil, List.mem_cons, List.not_mem_nil, or_false] at hc
    simp only [weight] at hleft hright
    rcases hc with rfl | rfl
    · dsimp only
      omega
    · dsimp only
      omega
  · refine .inr fun c hc => ?_
    have hleft := depth_children weight (n := Node.mk (.allOp left .notEq right))
      (c := ⟨.expr, left⟩) List.mem_cons_self
    have hright := depth_children weight (n := Node.mk (.allOp left .notEq right))
      (c := ⟨.expr, right⟩) (List.mem_cons_of_mem _ List.mem_cons_self)
    simp only [weight] at hleft hright
    rw [he] at hc
    rw [List.mem_singleton.mp hc]
    have hcall := depth_anyToArrayContains left right
      (b := depth weight .expr (.mk (.allOp left .notEq right)) - 2) (by omega) (by omega)
    dsimp only
    omega
  · exact .inl he

def visitor : Visitor Node where
  pre := hooks id id preVisitExpr
  rank := depth weight
  rank_lt := rank_lt

def rewrite (s : Statement) : Statement := visitor.visit .statement s

end RewriteArrayAnyAllOperation
namespace PrependUnqualifiedPgTableName

theorem preVisitTableFactor_cases (t : TableFactor) :
    (∃ ident aliasName rest, t = .mk (.table [ident] aliasName none rest) ∧
      isPgCatalogTable ident.value ∧ preVisitTableFactor t =
        .mk (.table [Ident.new "pg_catalog", ident] aliasName none rest)) ∨
    preVisitTableFactor t = t := by
  unfold preVisitTableFactor
  split
  · split
    · exact .inl ⟨_, _, _, rfl, ‹_›, rfl⟩
    · exact .inr rfl
  · exact .inr rfl

theorem children_preVisitTableFactor (t : TableFactor) :
    children (preVisitTableFactor t) = children t := by
  rcases preVisitTableFactor_cases t with ⟨ident, aliasName, rest, rfl, -, ht⟩ | ht
  · rw [ht]
    rfl
  · rw [ht]

theorem children_pre {k : Kind} (n : Node k) :
    children (hooks id preVisitTableFactor id k n) = children n := by
  cases k with
  | tableFactor => exact children_preVisitTableFactor n
  | _ => rfl

def visitor : Visitor Node :=
  .narrowing (hooks id preVisitTableFactor id) fun _ n _ hc => children_pre n ▸ hc

def rewrite (s : Statement) : Statement := visitor.visit .statement s

end PrependUnqualifiedPgTableName

namespace StripCallableQualifier

theorem children_pre {k : Kind} (n : Node k) :
    children (hooks id preVisitTableFactor preVisitExpr k n) = children n := by
  cases k with
  | tableFactor =>
    change children (preVisitTableFactor n) = children n
    unfold preVisitTableFactor
    split <;> rfl
  | expr =>
    change children (preVisitExpr n) = children n
    unfold preVisitExpr
    split <;> rfl
  | _ => rfl

def visitor : Visitor Node :=
  .narrowing (hooks id preVisitTableFactor preVisitExpr) fun _ n _ hc => children_pre n ▸ hc

def rewrite (s : Statement) : Statement := visitor.visit .statement s

end StripCallableQualifier

namespace FixArrayLiteral

theorem preVisitExpr_cases (e : Expr) :
    (∃ text arr rest,
      e = .mk (.cast .doubleColon (.mk (.value (.singleQuotedString text))) (.array arr) rest) ∧
      preVisitExpr e = .mk (.cast .doubleColon
        (.mk (.array ((arrayItems text.toList).map (arrayElem arr)) true)) (.array arr) rest)) ∨
    preVisitExpr e = e := by
  unfold preVisitExpr
  split
  · exact .inl ⟨_, _, _, rfl, rfl⟩
  · exact .inr rfl

/-- Room for the array of literals. -/
def weight : ∀ k, Node k → Nat
  | .expr, .mk (.cast _ _ _ _) => 3
  | _, _ => 1

private theorem weight_pos (k : Kind) (n : Node k) : 0 < weight k n := by
  unfold weight
  split <;> decide

private theorem rank_lt {k : Kind} (n : Node k) :
    ∀ c ∈ children (hooks id id preVisitExpr k n),
      depth weight c.1 c.2 < depth weight k n := by
  refine depth_lt_hooks weight_pos (fun e => ?_) n
  rcases preVisitExpr_cases e with ⟨text, arr, rest, rfl, he⟩ | he
  · refine .inr fun c hc => ?_
    rw [he] at hc
    rcases List.mem_cons.mp hc with rfl | hrest
    · have hcast := weight_le_depth weight
        (Node.mk (.cast .doubleColon (.mk (.value (.singleQuotedString text))) (.array arr) rest))
      refine Nat.lt_of_lt_of_le (Nat.lt_succ_of_le (depth_le weight (b := 1) fun c hc => ?_)) hcast
      rw [children_array, List.map_map] at hc
      obtain ⟨s, -, rfl⟩ := List.mem_map.mp hc
      exact Nat.le_of_eq (depth_value weight _)
    · exact depth_lt weight (weight_pos _ _) (List.mem_cons_of_mem _ hrest)
  · exact .inl he

def visitor : Visitor Node where
  pre := hooks id id preVisitExpr
  rank := depth weight
  rank_lt := rank_lt

def rewrite (s : Statement) : Statement := visitor.visit .statement s

end FixArrayLiteral

namespace CurrentUserVariableToSessionUserFunctionCall

theorem wrapIdentifier_cases (e : Expr) :
    (∃ ident target, e = .mk (.identifier ident) ∧ ident.quoteStyle = none ∧
      bareIdentifierToFunction.lookup (toLowercase ident.value) = some target ∧
      wrapIdentifier e = functionCall target []) ∨
    wrapIdentifier e = e := by
  unfold wrapIdentifier
  split
  · split
    · exact .inl ⟨_, _, rfl, ‹_›, ‹_›, rfl⟩
    · exact .inr rfl
  · exact .inr rfl

theorem renameFunction_cases (e : Expr) :
    (∃ call target, e = .mk (.function call) ∧
      (lastIdentLower call.name).bind (List.lookup · builtinFunctionRename) = some target ∧
      renameFunction e =
        .mk (.function ⟨[Ident.new target], callArgs target call.args, call.rest⟩)) ∨
    renameFunction e = e := by
  unfold renameFunction
  split
  · split
    · exact .inl ⟨_, _, rfl, ‹_›, rfl⟩
    · exact .inr rfl
  · exact .inr rfl

theorem parts_callArgs (target : String) (args : FunctionArguments Node) :
    Container.parts (callArgs target args) = Container.parts args := by
  unfold callArgs
  split
  · split <;> rfl
  · rfl

theorem children_preVisitExpr (e : Expr) : children (preVisitExpr e) = children e := by
  have hwrap : children (wrapIdentifier e) = children e := by
    rcases wrapIdentifier_cases e with ⟨ident, target, rfl, -, -, he⟩ | he
    · rw [he, children_functionCall]
      rfl
    · rw [he]
  rw [← hwrap, preVisitExpr]
  rcases renameFunction_cases (wrapIdentifier e) with ⟨call, target, hcall, -, he⟩ | he
  · rw [he, hcall]
    exact congrArg (· ++ _) (parts_callArgs target call.args)
  · rw [he]

theorem children_pre {k : Kind} (n : Node k) :
    children (hooks id id preVisitExpr k n) = children n := by
  cases k with
  | expr => exact children_preVisitExpr n
  | _ => rfl

def visitor : Visitor Node :=
  .narrowing (hooks id id preVisitExpr) fun _ n _ hc => children_pre n ▸ hc

def rewrite (s : Statement) : Statement := visitor.visit .statement s

end CurrentUserVariableToSessionUserFunctionCall

namespace StripCollate

theorem preVisitExpr_cases (e : Expr) :
    (∃ inner collation, e = .mk (.collate inner collation) ∧ preVisitExpr e = inner) ∨
    preVisitExpr e = e := by
  unfold preVisitExpr
  split
  · exact .inl ⟨_, _, rfl, rfl⟩
  · exact .inr rfl

private theorem rank_lt {k : Kind} (n : Node k) :
    ∀ c ∈ children (hooks id id preVisitExpr k n), height c < height ⟨k, n⟩ := by
  refine hooks_expr (P := fun k n n' => ∀ c ∈ children n', height c < height ⟨k, n⟩) ?_ ?_ k n
  · exact fun k n => height_children n
  intro e c hc
  rcases preVisitExpr_cases e with ⟨inner, collation, rfl, he⟩ | he
  · rw [he] at hc
    have hinner := height_children (Node.mk (.collate inner collation)) ⟨.expr, inner⟩
      List.mem_cons_self
    exact Nat.lt_trans (height_children inner c hc) hinner
  · rw [he] at hc
    exact height_children e c hc

def visitor : Visitor Node where
  pre := hooks id id preVisitExpr
  rank k n := height ⟨k, n⟩
  rank_lt := rank_lt

def rewrite (s : Statement) : Statement := visitor.visit .statement s

end StripCollate

namespace RewritePgCatalogOperator

theorem children_pre {k : Kind} (n : Node k) :
    children (hooks id id preVisitExpr k n) = children n := by
  cases k with
  | expr =>
    change children (preVisitExpr n) = children n
    unfold preVisitExpr
    split <;> rfl
  | _ => rfl

def visitor : Visitor Node :=
  .narrowing (hooks id id preVisitExpr) fun _ n _ hc => children_pre n ▸ hc

def rewrite (s : Statement) : Statement := visitor.visit .statement s

end RewritePgCatalogOperator

namespace RewriteRegCastToSubquery

theorem replacePlaceholder_cases (operand : Value) (e : Expr) :
    (∃ name, e = .mk (.value (.placeholder name)) ∧
      replacePlaceholder operand e = .mk (.value operand)) ∨
    replacePlaceholder operand e = e := by
  unfold replacePlaceholder
  split
  · exact .inl ⟨_, rfl, rfl⟩
  · exact .inr rfl

theorem children_replacePlaceholder (operand : Value) {k : Kind} (n : Node k) :
    children (hooks id id (replacePlaceholder operand) k n) = children n := by
  refine hooks_expr (P := fun k n n' => children n' = children n) (fun _ _ => rfl) ?_ k n
  intro e
  rcases replacePlaceholder_cases operand e with ⟨name, rfl, he⟩ | he
  · rw [he]
    rfl
  · rw [he]

def placeholderReplacer (operand : Value) : Visitor Node :=
  .narrowing (hooks id id (replacePlaceholder operand)) fun _ n _ hc =>
    children_replacePlaceholder operand n ▸ hc

def createSubquery (template : Query) (operand : Value) : Query :=
  (placeholderReplacer operand).visit .query template

/-- What the cast of a name turns into. -/
def nameCast (operand : Value) (dataType : DataType) : Option Expr :=
  match regCastSpecs.lookup (normalizeTypeName dataType) with
  | some template =>
    if isNameOperand operand then
      match numericStringToLiteral operand with
      | some literal => some (.mk (.value literal))
      | none => some (.mk (.subquery (createSubquery template operand)))
    else none
  | none => none

def preVisitExpr : Expr → Expr
  | .mk (.cast kind (.mk (.value operand)) dataType rest) =>
    (nameCast operand dataType).getD (.mk (.cast kind (.mk (.value operand)) dataType rest))
  | e => e

theorem preVisitExpr_cases (e : Expr) :
    (∃ kind operand dataType rest,
      e = .mk (.cast kind (.mk (.value operand)) dataType rest) ∧
      nameCast operand dataType = some (preVisitExpr e)) ∨
    preVisitExpr e = e := by
  unfold preVisitExpr
  split
  · rename_i kind operand dataType rest
    cases h : nameCast operand dataType with
    | none => exact .inr rfl
    | some r => exact .inl ⟨kind, operand, dataType, rest, rfl, h⟩
  · exact .inr rfl

theorem nameCast_cases {operand : Value} {dataType : DataType} {r : Expr}
    (h : nameCast operand dataType = some r) :
    (∃ literal, r = .mk (.value literal)) ∨
    ∃ template ∈ regCastSpecs.map Prod.snd,
      r = .mk (.subquery (createSubquery template operand)) := by
  unfold nameCast at h
  split at h
  · rename_i template hlookup
    obtain ⟨before, after, hspecs, -⟩ := List.lookup_eq_some_iff.mp hlookup
    have hmem : template ∈ regCastSpecs.map Prod.snd := by
      rw [hspecs]
      simp
    split at h
    · split at h
      · exact .inl ⟨_, (Option.some.inj h).symm⟩
      · exact .inr ⟨template, hmem, (Option.some.inj h).symm⟩
    · exact absurd h nofun
  · exact absurd h nofun

/-- Room for the lookup that the cast of a name turns into. -/
def weight : ∀ k, Node k → Nat
  | .expr, .mk (.cast _ _ dataType _) =>
    if (regCastSpecs.lookup (normalizeTypeName dataType)).isSome then 20 else 1
  | _, _ => 1

private theorem weight_pos (k : Kind) (n : Node k) : 0 < weight k n := by
  unfold weight
  split
  · split <;> decide
  · decide

private theorem weight_roll (f : ∀ k, Node k → Node k) (k : Kind) (n : Node k) :
    weight k (.mk (Forms.map f n.form)) = weight k n := by
  obtain ⟨form⟩ := n
  cases form <;> rfl

private theorem weight_replacePlaceholder (operand : Value) (k : Kind) (n : Node k) :
    weight k ((placeholderReplacer operand).visit k n) = weight k n := by
  rw [Visitor.visit_eq]
  refine (weight_roll _ k _).trans ?_
  refine hooks_expr (P := fun k n n' => weight k n' = weight k n) (fun _ _ => rfl) ?_ k n
  intro e
  rcases replacePlaceholder_cases operand e with ⟨name, rfl, he⟩ | he
  · rw [he]
    rfl
  · rw [he]

private theorem depth_template {template : Query} (h : template ∈ regCastSpecs.map Prod.snd) :
    depth weight .query template < 20 := by
  simp only [regCastSpecs, List.map_cons, List.map_nil, List.mem_cons, List.not_mem_nil,
    or_false] at h
  rcases h with rfl | rfl | rfl | rfl
  all_goals
    rw [depth, fold_eq_foldN (m := 20) _ rfl]
    decide +kernel

private theorem depth_createSubquery {template : Query} (h : template ∈ regCastSpecs.map Prod.snd)
    (operand : Value) : depth weight .query (createSubquery template operand) < 20 := by
  rw [createSubquery, Visitor.depth_visit (fun _ => children_replacePlaceholder operand)
    (weight_replacePlaceholder operand)]
  exact depth_template h

theorem lookup_of_nameCast {operand : Value} {dataType : DataType} {r : Expr}
    (h : nameCast operand dataType = some r) :
    (regCastSpecs.lookup (normalizeTypeName dataType)).isSome := by
  unfold nameCast at h
  split at h
  · rename_i hlookup
    rw [hlookup]
    rfl
  · exact absurd h nofun

private theorem rank_lt {k : Kind} (n : Node k) :
    ∀ c ∈ children (hooks id id preVisitExpr k n),
      depth weight c.1 c.2 < depth weight k n := by
  refine depth_lt_hooks weight_pos (fun e => ?_) n
  rcases preVisitExpr_cases e with ⟨kind, operand, dataType, rest, rfl, he⟩ | he
  · refine .inr fun c hc => ?_
    rcases nameCast_cases he with ⟨literal, hr⟩ | ⟨template, htemplate, hr⟩
    · rw [hr] at hc
      exact absurd hc List.not_mem_nil
    · rw [hr] at hc
      rw [List.mem_singleton.mp hc]
      have hcast := weight_le_depth weight
        (Node.mk (.cast kind (.mk (.value operand)) dataType rest))
      rw [weight, if_pos (lookup_of_nameCast he)] at hcast
      exact Nat.lt_of_lt_of_le (depth_createSubquery htemplate operand) hcast
  · exact .inl he

def visitor : Visitor Node where
  pre := hooks id id preVisitExpr
  rank := depth weight
  rank_lt := rank_lt

def rewrite (s : Statement) : Statement := visitor.visit .statement s

end RewriteRegCastToSubquery
section Projections

/-- The depth of a tree with every node of the same weight. -/
abbrev level (k : Kind) (n : Node k) : Nat := depth (fun _ _ => 1) k n

private theorem level_lt {k : Kind} {n : Node k} {c : Σ k, Node k} (hc : c ∈ children n) :
    level c.1 c.2 < level k n :=
  depth_lt (fun _ _ => 1) Nat.zero_lt_one hc

theorem mem_children_body {fields : QueryFields Node} {body : SetExpr} {c : Σ k, Node k}
    (h : c ∈ children (Node.mk (.query { fields with body := body }))) :
    c = ⟨.setExpr, body⟩ ∨ c ∈ children (Node.mk (.query fields)) := by
  simp only [children_mk, Form.parts, Container.parts, List.mem_append, List.mem_cons] at h ⊢
  tauto

theorem level_mapProjection {f : SelectItem Node → SelectItem Node}
    (hf : ∀ item, ∀ c ∈ Container.parts (f item),
      ∃ c' ∈ Container.parts item, level c.1 c.2 ≤ level c'.1 c'.2) (body : SetExpr) :
    level .setExpr (mapProjection f body) ≤ level .setExpr body := by
  unfold mapProjection
  split
  · rename_i select
    refine depth_mono _ (Nat.le_refl _) fun c hc => ?_
    rcases List.mem_append.mp hc with hprojection | hrest
    · obtain ⟨item', hitem', hc⟩ := List.mem_flatMap.mp hprojection
      obtain ⟨item, hitem, rfl⟩ := List.mem_map.mp hitem'
      obtain ⟨c', hc', hle⟩ := hf item c hc
      exact ⟨c', List.mem_append_left _ (List.mem_flatMap.mpr ⟨item, hitem, hc'⟩), hle⟩
    · exact ⟨c, List.mem_append_right _ hrest, Nat.le_refl _⟩
  · exact Nat.le_refl _

/-- A visitor that changes the items of every single `SELECT`, by items of no more depth. -/
def projectionVisitor (f : SelectItem Node → SelectItem Node)
    (hf : ∀ item, ∀ c ∈ Container.parts (f item),
      ∃ c' ∈ Container.parts item, level c.1 c.2 ≤ level c'.1 c'.2) : Visitor Node where
  pre := hooks (mapItems f) id id
  rank := level
  rank_lt {k} n := by
    refine hooks_query (P := fun k n n' => ∀ c ∈ children n', level c.1 c.2 < level k n) ?_ ?_ k n
    · exact fun k n c hc => level_lt hc
    intro query c hc
    obtain ⟨fields, rfl⟩ := query_eq_mk query
    rcases mem_children_body hc with rfl | hc
    · have hbody : ⟨.setExpr, fields.body⟩ ∈ children (Node.mk (.query fields)) :=
        List.mem_append_right _ List.mem_cons_self
      exact Nat.lt_of_le_of_lt (level_mapProjection hf fields.body)
        (level_lt hbody)
    · exact level_lt hc

end Projections

namespace RemoveSubqueryFromProjection

theorem treatExpr_cases (e : Expr) :
    (∃ subquery, e = .mk (.subquery subquery) ∧ hasCorrelation subquery ∧
      treatExpr e = .mk (.value .null)) ∨
    (∃ subquery, e = .mk (.subquery subquery) ∧ hasCorrelation subquery = false ∧
      hasLimit subquery = false ∧ treatExpr e = .mk (.subquery (addLimit subquery))) ∨
    treatExpr e = e := by
  unfold treatExpr
  split
  · split
    · exact .inl ⟨_, rfl, ‹_›, rfl⟩
    · rename_i subquery hcorrelation
      split
      · rename_i hlimit
        exact .inr (.inl ⟨_, rfl, eq_false_of_ne_true hcorrelation,
          (Bool.not_eq_true' _).mp hlimit, rfl⟩)
      · exact .inr (.inr rfl)
  · exact .inr (.inr rfl)

theorem mem_children_addLimit {query : Query} {c : Σ k, Node k}
    (h : c ∈ children (addLimit query)) :
    c = ⟨.expr, .mk (.value (.number "1" false))⟩ ∨ c ∈ children query := by
  obtain ⟨fields, rfl⟩ := query_eq_mk query
  have hone : Container.partsOption (some limitOne) =
      [⟨.expr, .mk (.value (.number "1" false))⟩] := rfl
  simp only [addLimit, children_mk, Form.parts, Container.parts, List.mem_append, List.mem_cons,
    hone, List.not_mem_nil, or_false] at h ⊢
  tauto

private theorem level_addLimit (query : Query) :
    level .query (addLimit query) ≤ level .query query := by
  obtain ⟨fields, rfl⟩ := query_eq_mk query
  refine depth_mono _ (Nat.le_refl _) fun c hc => ?_
  rcases mem_children_addLimit hc with rfl | hc
  · refine ⟨⟨.setExpr, fields.body⟩, List.mem_append_right _ List.mem_cons_self, ?_⟩
    exact Nat.le_trans (Nat.le_of_eq (depth_value _ _)) (weight_le_depth (fun _ _ => 1) _)
  · exact ⟨c, hc, Nat.le_refl _⟩

private theorem level_treatExpr (e : Expr) : level .expr (treatExpr e) ≤ level .expr e := by
  rcases treatExpr_cases e with ⟨subquery, rfl, -, he⟩ | ⟨subquery, rfl, -, -, he⟩ | he
  · rw [he]
    exact Nat.le_trans (Nat.le_of_eq (depth_value _ _)) (weight_le_depth (fun _ _ => 1) _)
  · rw [he]
    refine depth_mono _ (Nat.le_refl _) fun c hc => ⟨_, List.mem_cons_self, ?_⟩
    rw [List.mem_singleton.mp hc]
    exact level_addLimit subquery
  · exact Nat.le_of_eq (congrArg _ he)

private theorem parts_treatItem (item : SelectItem Node) :
    ∀ c ∈ Container.parts (treatItem item),
      ∃ c' ∈ Container.parts item, level c.1 c.2 ≤ level c'.1 c'.2 := by
  intro c hc
  cases item with
  | unnamedExpr expr =>
    rw [List.mem_singleton.mp hc]
    exact ⟨_, List.mem_cons_self, level_treatExpr expr⟩
  | exprWithAlias expr aliasName =>
    rw [List.mem_singleton.mp hc]
    exact ⟨_, List.mem_cons_self, level_treatExpr expr⟩
  | _ => exact ⟨c, hc, Nat.le_refl _⟩

def visitor : Visitor Node := projectionVisitor treatItem parts_treatItem

def rewrite (s : Statement) : Statement := visitor.visit .statement s

end RemoveSubqueryFromProjection

namespace FixVersionColumnName

theorem parts_nameItem (item : SelectItem Node) :
    Container.parts (nameItem item) = Container.parts item := by
  unfold nameItem
  split
  · split <;> rfl
  · rfl

def visitor : Visitor Node :=
  projectionVisitor nameItem fun item c hc => ⟨c, parts_nameItem item ▸ hc, Nat.le_refl _⟩

def rewrite (s : Statement) : Statement := visitor.visit .statement s

end FixVersionColumnName

namespace PostgresCompatibilityParser

def rewriteRules : List (Statement → Statement) :=
  [AliasDuplicatedProjectionRewrite.rewrite,
    ResolveUnqualifiedIdentifier.rewrite,
    RewriteArrayAnyAllOperation.rewrite,
    PrependUnqualifiedPgTableName.rewrite,
    StripCallableQualifier.rewrite,
    FixArrayLiteral.rewrite,
    CurrentUserVariableToSessionUserFunctionCall.rewrite,
    StripCollate.rewrite,
    RewritePgCatalogOperator.rewrite,
    RewriteRegCastToSubquery.rewrite,
    RemoveSubqueryFromProjection.rewrite,
    FixVersionColumnName.rewrite]

def rewrite (s : Statement) : Statement := rewriteRules.foldl (fun s rule => rule s) s

end PostgresCompatibilityParser
end DatafusionPostgres.Sql
