import DatafusionPostgres.Sql.QuantifiedComparison

/-! Comparisons with some or every row of a subquery: what the lowering for arrays makes of
them. -/
namespace DatafusionPostgres.Sql
open DatafusionPostgres.Library

/-- A comparison with the rows of a query that the rule lowers. -/
inductive RowComparison : Quantifier → Expr → Query → Expr → Prop
  | any (left : Expr) (query : Query) (isSome : Bool) :
    RowComparison .any left query (.mk (.anyOp left .eq (.mk (.subquery query)) isSome))
  | all (left : Expr) (query : Query) :
    RowComparison .all left query (.mk (.allOp left .notEq (.mk (.subquery query))))

section Types

/-- The types of expressions, and what types the other kinds of nodes have. -/
structure Typing (T : Kind → Type) where
  bool : T .expr
  IsList : T .expr → Prop
  call : Function T → T .expr
  call_arrayContains (arr x : T .expr) :
    call ⟨[Ident.new "array_contains"], .list [.unnamed arr, .unnamed x] .none, .none⟩ = bool
  other : ∀ k, Form T k → T k

namespace Typing
variable {T : Kind → Type} [∀ k, Inhabited (T k)] (typing : Typing T)

def algebra : ∀ k, Form T k → T k
  | .expr, .anyOp _ _ _ _ => typing.bool
  | .expr, .allOp _ _ _ => typing.bool
  | .expr, .unaryOp .not _ => typing.bool
  | .expr, .function f => typing.call f
  | k, form => typing.other k form

def typeOf (k : Kind) (n : Node k) : T k := interpret typing.algebra k n

/-- The query's only column is of a type that is no list. -/
def ScalarColumn (query : Query) : Prop :=
  ¬ typing.IsList (typing.typeOf .expr (.mk (.subquery query)))

theorem typeOf_eq {k : Kind} (n : Node k) :
    typing.typeOf k n = typing.algebra k (Forms.map typing.typeOf (Trees.form n)) :=
  interpret_eq typing.algebra n

private theorem typeOf_anyToArrayContains (left right : Expr) :
    typing.typeOf .expr (RewriteArrayAnyAllOperation.anyToArrayContains left right) =
      typing.bool := by
  rw [typeOf_eq]
  exact typing.call_arrayContains _ _

private theorem typeOf_preVisitExpr (e : Expr) :
    typing.typeOf .expr (RewriteArrayAnyAllOperation.preVisitExpr e) =
      typing.typeOf .expr e := by
  rcases RewriteArrayAnyAllOperation.preVisitExpr_cases e with
    ⟨left, right, isSome, rfl, he⟩ | ⟨left, right, rfl, he⟩ | he
  · rw [he, typeOf_anyToArrayContains, typeOf_eq]
    rfl
  · rw [he, typeOf_eq, typeOf_eq]
    rfl
  · rw [he]

/-- The rule leaves every type as it is. -/
theorem typeOf_visit {k : Kind} (n : Node k) :
    typing.typeOf k (RewriteArrayAnyAllOperation.visitor.visit k n) = typing.typeOf k n := by
  refine RewriteArrayAnyAllOperation.visitor.interpret_visit typing.algebra
    (P := fun _ _ => True) (fun k n _ => ?_) (fun _ _ _ _ _ => trivial) trivial
  cases k with
  | expr => exact typing.typeOf_preVisitExpr n
  | _ => rfl

end Typing

/-- What statements give over one database without missing values: the values of expressions
and the rows of queries, unless the statement is refused. -/
structure Evaluation {T : Kind → Type} [∀ k, Inhabited (T k)] (typing : Typing T)
    (Env V : Type) where
  ofBool : Bool → V
  equal : V → V → Bool
  value : Expr → Env → Option V
  rows : Query → Env → Option (List V)
  value_not {e : Expr} {env : Env} :
    value e env = none → value (.mk (.unaryOp .not e)) env = none
  value_arrayContains {arr x : Expr} {env : Env} :
    ¬ typing.IsList (typing.typeOf .expr arr) →
    value (functionCall "array_contains" [arr, x]) env = none

end Types

section Comparisons
variable {T : Kind → Type} [∀ k, Inhabited (T k)] {typing : Typing T} {Env V : Type}
variable (m : Evaluation typing Env V)

/-- Some row is equal, or none is. -/
def Evaluation.test (quantifier : Quantifier) (x : V) (rows : List V) : Bool :=
  match quantifier with
  | .any => rows.any (m.equal x)
  | .all => rows.all fun row => !m.equal x row

/-- The expression tests the left operand for membership among the rows, or for the lack of
it. -/
def Evaluation.TestsRows (quantifier : Quantifier) (left : Expr) (query : Query) (env : Env)
    (e : Expr) : Prop :=
  ∃ x rows, m.value left env = some x ∧ m.rows query env = some rows ∧
    m.value e env = some (m.ofBool (m.test quantifier x rows))

end Comparisons

namespace RewriteArrayAnyAllOperation

section Places

private theorem mem_nodes_arrayOperand {right : Expr} {m : Σ k, Node k} (hm : m ∈ nodes right)
    (hq : (quantified? m).isSome) : m ∈ nodes (arrayOperand right) := by
  rcases arrayOperand_cases right with ⟨text, rfl, -⟩ | hkeep
  · rcases mem_nodes_iff.mp hm with rfl | ⟨c, hc, -⟩
    · cases hq
    · cases hc
  · rw [hkeep]
    exact hm

private theorem mem_nodes_anyToArrayContains {left right : Expr} {m : Σ k, Node k}
    (hm : m ∈ nodes left ∨ m ∈ nodes right) (hq : (quantified? m).isSome) :
    ∃ c ∈ children (anyToArrayContains left right), m ∈ nodes c.2 := by
  rw [anyToArrayContains, children_functionCall]
  rcases hm with hm | hm
  · exact ⟨⟨.expr, left⟩, List.mem_cons_of_mem _ List.mem_cons_self, hm⟩
  · exact ⟨⟨.expr, arrayOperand right⟩, List.mem_cons_self, mem_nodes_arrayOperand hm hq⟩

private theorem mem_nodes_of_children {k : Kind} {n : Node k} {left right : Expr}
    (hn : children n = [⟨.expr, left⟩, ⟨.expr, right⟩]) {c m : Σ k, Node k}
    (hc : c ∈ children n) (hm : m ∈ nodes c.2) : m ∈ nodes left ∨ m ∈ nodes right := by
  rw [hn] at hc
  rcases List.mem_cons.mp hc with rfl | hc
  · exact .inl hm
  · rw [List.mem_singleton.mp hc] at hm
    exact .inr hm

private theorem exists_child_pre {k : Kind} (n : Node k) : ∀ c ∈ children n, ∀ m ∈ nodes c.2,
    (quantified? m).isSome → ∃ d ∈ children (visitor.pre k n), m ∈ nodes d.2 := by
  refine hooks_expr (P := fun k n n' => ∀ c ∈ children n, ∀ m ∈ nodes c.2,
    (quantified? m).isSome → ∃ d ∈ children n', m ∈ nodes d.2)
    (fun _ _ c hc m hm _ => ⟨c, hc, hm⟩) ?_ k n
  intro e c hc m hm hq
  rcases preVisitExpr_cases e with ⟨left, right, isSome, rfl, he⟩ | ⟨left, right, rfl, he⟩ | he
  · rw [he]
    exact mem_nodes_anyToArrayContains (mem_nodes_of_children rfl hc hm) hq
  · rw [he]
    obtain ⟨d, hd, hm⟩ := mem_nodes_anyToArrayContains (mem_nodes_of_children rfl hc hm) hq
    exact ⟨⟨.expr, anyToArrayContains left right⟩, List.mem_cons_self,
      mem_nodes_of_mem_children hd hm⟩
  · rw [he]
    exact ⟨c, hc, hm⟩

/-- What a quantified comparison becomes is there after the visit. -/
theorem visit_mem_nodes {k : Kind} (n : Node k) : ∀ m ∈ nodes n, (quantified? m).isSome →
    ⟨m.1, visitor.visit m.1 m.2⟩ ∈ nodes (visitor.visit k n) := by
  induction n using visitor.visit_induction with
  | step k n ih =>
    intro m hm hq
    rcases mem_nodes_iff.mp hm with rfl | ⟨c, hc, hm⟩
    · exact mem_nodes_self _
    · obtain ⟨d, hd, hm⟩ := exists_child_pre n c hc m hm hq
      refine mem_nodes_of_mem_children (c := ⟨d.1, visitor.visit d.1 d.2⟩) ?_ (ih d hd m hm hq)
      rw [visitor.children_visit]
      exact List.mem_map_of_mem hd

end Places

section Rows
variable {quantifier : Quantifier} {left : Expr} {query : Query} {e : Expr}

/-- A comparison with rows becomes a search in the query's only value. -/
theorem visit_rowComparison (h : RowComparison quantifier left query e) :
    let call := functionCall "array_contains"
      [visitor.visit .expr (.mk (.subquery query)), visitor.visit .expr left]
    visitor.visit .expr e = call ∨ visitor.visit .expr e = .mk (.unaryOp .not call) := by
  cases h with
  | any isSome =>
    left
    rw [visitor.visit_eq]
    rfl
  | all =>
    right
    have hcall : visitor.visit .expr (functionCall "array_contains" [.mk (.subquery query), left]) =
        functionCall "array_contains" [visitor.visit .expr (.mk (.subquery query)),
          visitor.visit .expr left] := visit_functionCall rfl
    rw [visitor.visit_eq]
    exact congrArg (fun e => Node.mk (.unaryOp .not e)) hcall

end Rows
end RewriteArrayAnyAllOperation

section Refused
open RewriteArrayAnyAllOperation
variable {T : Kind → Type} [∀ k, Inhabited (T k)] {typing : Typing T} {Env V : Type}
variable (m : Evaluation typing Env V)

theorem Evaluation.value_rowComparison {quantifier : Quantifier} {left : Expr} {query : Query}
    {e : Expr} (h : RowComparison quantifier left query e) (hscalar : typing.ScalarColumn query)
    (env : Env) : m.value (visitor.visit .expr e) env = none := by
  have hcall : m.value (functionCall "array_contains"
      [visitor.visit .expr (.mk (.subquery query)), visitor.visit .expr left]) env = none := by
    refine m.value_arrayContains ?_
    rw [typing.typeOf_visit]
    exact hscalar
  rcases visit_rowComparison h with he | he
  · rw [he, hcall]
  · rw [he, m.value_not hcall]

/-- No comparison with the rows of a query is a test for membership after the rule. -/
theorem rowComparison_refused {s : Statement} {quantifier : Quantifier} {left : Expr}
    {query : Query} {e : Expr} (h : RowComparison quantifier left query e)
    (he : ⟨.expr, e⟩ ∈ nodes s) (hscalar : typing.ScalarColumn query) :
    ⟨.expr, visitor.visit .expr e⟩ ∈ nodes (rewrite s) ∧
      ∀ env, ¬ m.TestsRows quantifier left query env (visitor.visit .expr e) := by
  refine ⟨visit_mem_nodes s ⟨.expr, e⟩ he (by cases h <;> rfl), ?_⟩
  rintro env ⟨x, rows, -, -, hvalue⟩
  rw [m.value_rowComparison h hscalar] at hvalue
  cases hvalue

end Refused

section Numbers
open RewriteRegCastToSubquery (number selectQuery)

inductive NumberValue
  | bool (b : Bool)
  | number (digits : String)
  deriving DecidableEq

def numberLiteral? : Expr → Option NumberValue
  | .mk (.value (.number digits _)) => some (.number digits)
  | _ => none

/-- The row of a `SELECT` of one number. -/
def numberRows? : Query → Option (List NumberValue)
  | .mk (.query { body := .mk (.select { projection := [.unnamedExpr e], .. }), .. }) =>
    (numberLiteral? e).map ([·])
  | _ => none

/-- Numbers, and a number among the rows of a query. -/
def numberValue? : Expr → Option NumberValue
  | .mk (.anyOp left .eq (.mk (.subquery query)) _) => do
    let x ← numberLiteral? left
    let rows ← numberRows? query
    return .bool (rows.any (x == ·))
  | e => numberLiteral? e

/-- Arrays are lists, and nothing else that matters here is. -/
def numberTyping : Typing (fun _ => Bool) where
  bool := false
  IsList b := b
  call _ := false
  call_arrayContains _ _ := rfl
  other
    | .expr, .array _ _ => true
    | _, _ => false

def numberEvaluation : Evaluation numberTyping Unit NumberValue where
  ofBool := .bool
  equal x y := x == y
  value e _ := numberValue? e
  rows query _ := numberRows? query
  value_not _ := rfl
  value_arrayContains _ := rfl

def oneQuery : Query := selectQuery (.unnamedExpr (number "1")) [] none

def oneAmongOne : Expr := .mk (.anyOp (number "1") .eq (.mk (.subquery oneQuery)) false)

/-- `SELECT 1 = ANY (SELECT 1)` -/
def oneAmongOneStatement : Statement :=
  .mk (.statementQuery (selectQuery (.unnamedExpr oneAmongOne) [] none))

private theorem oneQuery_scalar : numberTyping.ScalarColumn oneQuery := by
  rw [Typing.ScalarColumn, Typing.typeOf_eq]
  exact Bool.false_ne_true

private theorem oneAmongOne_rows : RowComparison .any (number "1") oneQuery oneAmongOne :=
  .any _ _ _

/-- `1 = ANY (SELECT 1)` is true, and refused after the rule. -/
theorem oneAmongOne_refused :
    numberEvaluation.TestsRows .any (number "1") oneQuery () oneAmongOne ∧
      ¬ numberEvaluation.TestsRows .any (number "1") oneQuery ()
        (RewriteArrayAnyAllOperation.visitor.visit .expr oneAmongOne) := by
  refine ⟨⟨.number "1", [.number "1"], rfl, rfl, rfl⟩, ?_⟩
  rintro ⟨x, rows, -, -, hvalue⟩
  rw [numberEvaluation.value_rowComparison oneAmongOne_rows oneQuery_scalar] at hvalue
  cases hvalue

theorem oneAmongOneStatement_refused :
    ⟨.expr, RewriteArrayAnyAllOperation.visitor.visit .expr oneAmongOne⟩ ∈
        nodes (RewriteArrayAnyAllOperation.rewrite oneAmongOneStatement) ∧
      ∀ env, ¬ numberEvaluation.TestsRows .any (number "1") oneQuery env
        (RewriteArrayAnyAllOperation.visitor.visit .expr oneAmongOne) := by
  refine rowComparison_refused numberEvaluation oneAmongOne_rows ?_ oneQuery_scalar
  have hbody : ⟨.expr, oneAmongOne⟩ ∈ nodes
      (Node.mk (.select ⟨[.unnamedExpr oneAmongOne], [], none, .none⟩) : SetExpr) :=
    mem_nodes_of_mem_children List.mem_cons_self (mem_nodes_self oneAmongOne)
  have hquery : ⟨.expr, oneAmongOne⟩ ∈ nodes (selectQuery (.unnamedExpr oneAmongOne) [] none) :=
    mem_nodes_of_mem_children List.mem_cons_self hbody
  exact mem_nodes_of_mem_children List.mem_cons_self hquery

end Numbers
end DatafusionPostgres.Sql
