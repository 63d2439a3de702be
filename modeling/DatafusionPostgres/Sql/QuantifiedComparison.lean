import DatafusionPostgres.Sql.ArrayText
import DatafusionPostgres.Sql.Rewriting

/-! Comparisons with some or every element of an array: what the lowering removes, what it
leaves, and that nothing changes its meaning. -/
namespace DatafusionPostgres.Sql
open DatafusionPostgres.Library

section Occurrences

inductive Quantifier
  | any
  | all
  deriving DecidableEq

/-- The quantifier and the operator of a quantified comparison. -/
def quantified? : (Σ k, Node k) → Option (Quantifier × BinaryOperator)
  | ⟨.expr, .mk (.anyOp _ op _ _)⟩ => some (.any, op)
  | ⟨.expr, .mk (.allOp _ op _)⟩ => some (.all, op)
  | _ => none

def loweredForms : List (Quantifier × BinaryOperator) := [(.any, .eq), (.all, .notEq)]

def isLowered (m : Σ k, Node k) : Bool :=
  (quantified? m).any fun q => loweredForms.contains q

/-- The quantified comparisons that the rule leaves alone. -/
def isKept (m : Σ k, Node k) : Bool :=
  (quantified? m).any fun q => !loweredForms.contains q

theorem quantified_map (f : ∀ k, Node k → Node k) {k : Kind} (n : Node k) :
    quantified? ⟨k, Trees.roll (Forms.map f (Trees.form n))⟩ = quantified? ⟨k, n⟩ := by
  obtain ⟨form⟩ := n
  cases form <;> rfl

end Occurrences

namespace RewriteArrayAnyAllOperation

theorem quantified_visit {k : Kind} (n : Node k) :
    quantified? ⟨k, visitor.visit k n⟩ = quantified? ⟨k, visitor.pre k n⟩ := by
  rw [visitor.visit_eq]
  exact quantified_map _ _

private theorem isLowered_preVisitExpr (e : Expr) :
    isLowered ⟨.expr, preVisitExpr e⟩ = false := by
  unfold preVisitExpr
  split
  · rfl
  · rfl
  · rename_i hany hall
    obtain ⟨form⟩ := e
    cases form with
    | anyOp left op right isSome =>
      cases op
      case eq => exact absurd rfl (hany left right isSome)
      all_goals rfl
    | allOp left op right =>
      cases op
      case notEq => exact absurd rfl (hall left right)
      all_goals rfl
    | _ => rfl

theorem isLowered_pre {k : Kind} (n : Node k) : isLowered ⟨k, visitor.pre k n⟩ = false := by
  cases k with
  | expr => exact isLowered_preVisitExpr n
  | _ => rfl

theorem isLowered_visit {k : Kind} (n : Node k) :
    ∀ m ∈ nodes (visitor.visit k n), isLowered m = false := by
  induction n using visitor.visit_induction with
  | step k n ih =>
    intro m hm
    rcases mem_nodes_iff.mp hm with rfl | ⟨c, hc, hm⟩
    · rw [isLowered, quantified_visit]
      exact isLowered_pre n
    · rw [visitor.children_visit] at hc
      obtain ⟨d, hd, rfl⟩ := List.mem_map.mp hc
      exact ih d hd m hm

theorem isKept_visit {k : Kind} (n : Node k) :
    isKept ⟨k, visitor.visit k n⟩ = isKept ⟨k, n⟩ := by
  rw [isKept, quantified_visit]
  refine hooks_expr (P := fun k n n' => isKept ⟨k, n'⟩ = isKept ⟨k, n⟩) (fun _ _ => rfl) ?_ k n
  intro e
  rcases preVisitExpr_cases e with ⟨left, right, isSome, rfl, he⟩ | ⟨left, right, rfl, he⟩ | he
  · rw [he]
    rfl
  · rw [he]
    rfl
  · rw [he]

theorem quantified_visit_kept {n : Σ k, Node k} (h : isKept n) :
    quantified? ⟨n.1, visitor.visit n.1 n.2⟩ = quantified? n := by
  rw [quantified_visit]
  refine hooks_expr (P := fun k n n' => isKept ⟨k, n⟩ → quantified? ⟨k, n'⟩ = quantified? ⟨k, n⟩)
    (fun _ _ _ => rfl) ?_ n.1 n.2 h
  intro e h
  rcases preVisitExpr_cases e with ⟨left, right, isSome, rfl, -⟩ | ⟨left, right, rfl, -⟩ | he
  · exact absurd h Bool.false_ne_true
  · exact absurd h Bool.false_ne_true
  · rw [he]

private theorem kept_arrayOperand (right : Expr) :
    (nodes (arrayOperand right)).filter isKept = (nodes right).filter isKept := by
  rcases arrayOperand_cases right with ⟨text, rfl, harray⟩ | hkeep
  · have hliteral : ∀ v : Value, (nodes (Node.mk (.value v))).filter isKept = [] := by
      intro v
      rw [nodes_eq]
      rfl
    rw [harray, hliteral, nodes_eq, children_array, List.map_map, List.flatMap_map]
    refine (List.filter_cons_of_neg Bool.false_ne_true).trans ?_
    rw [List.filter_flatMap, List.flatMap_eq_nil_iff]
    exact fun s _ => hliteral _
  · rw [hkeep]

private theorem kept_operands (left right : Expr) :
    ((nodes (arrayOperand right) ++ nodes left).filter isKept).Perm
      ((nodes left ++ nodes right).filter isKept) := by
  rw [List.filter_append, kept_arrayOperand, List.filter_append]
  exact List.perm_append_comm

private theorem flatMap_pair (left right : Expr) :
    [(⟨.expr, left⟩ : Σ k, Node k), ⟨.expr, right⟩].flatMap (fun c => nodes c.2) =
      nodes left ++ nodes right := by
  rw [List.flatMap_cons, List.flatMap_singleton]

private theorem kept_parts {k : Kind} (n : Node k) :
    (((children (visitor.pre k n)).flatMap fun c => nodes c.2).filter isKept).Perm
      (((children n).flatMap fun c => nodes c.2).filter isKept) := by
  refine hooks_expr (P := fun k n n' =>
    (((children n').flatMap fun c => nodes c.2).filter isKept).Perm
      (((children n).flatMap fun c => nodes c.2).filter isKept)) (fun _ _ => .refl _) ?_ k n
  intro e
  rcases preVisitExpr_cases e with ⟨left, right, isSome, rfl, he⟩ | ⟨left, right, rfl, he⟩ | he
  · rw [he, anyToArrayContains, children_functionCall, children_mk, Form.parts]
    simp only [List.map_cons, List.map_nil, flatMap_pair]
    exact kept_operands left right
  · have hnot : children (Node.mk (.unaryOp .not (anyToArrayContains left right))) =
        [⟨.expr, anyToArrayContains left right⟩] := rfl
    rw [he, hnot, List.flatMap_singleton, nodes_eq,
      List.filter_cons_of_neg Bool.false_ne_true, anyToArrayContains, children_functionCall,
      children_mk, Form.parts]
    simp only [List.map_cons, List.map_nil, flatMap_pair]
    exact kept_operands left right
  · rw [he]

theorem kept_visit {k : Kind} (n : Node k) :
    ((nodes (visitor.visit k n)).filter isKept).Perm
      (((nodes n).filter isKept).map fun m => ⟨m.1, visitor.visit m.1 m.2⟩) :=
  Visitor.filter_nodes_visit (fun _ => isKept_visit) (fun _ => kept_parts) n

private theorem quantified_arrayOperand {right : Expr} {m : Σ k, Node k}
    (hm : m ∈ nodes (arrayOperand right)) (hq : (quantified? m).isSome) : m ∈ nodes right := by
  rcases arrayOperand_cases right with ⟨text, rfl, harray⟩ | hkeep
  · rw [harray] at hm
    rcases mem_nodes_iff.mp hm with rfl | ⟨c, hc, hm⟩
    · exact absurd hq Bool.false_ne_true
    rw [children_array, List.map_map] at hc
    obtain ⟨s, -, rfl⟩ := List.mem_map.mp hc
    rcases mem_nodes_iff.mp hm with rfl | ⟨c, hc, -⟩
    · exact absurd hq Bool.false_ne_true
    · exact absurd hc List.not_mem_nil
  · rwa [hkeep] at hm

private theorem quantified_operands {left right : Expr} {m : Σ k, Node k}
    (hm : m ∈ nodes (anyToArrayContains left right)) (hq : (quantified? m).isSome) :
    m ∈ nodes left ∨ m ∈ nodes right := by
  rcases mem_nodes_iff.mp hm with rfl | ⟨c, hc, hm⟩
  · exact absurd hq Bool.false_ne_true
  rw [anyToArrayContains, children_functionCall] at hc
  simp only [List.map_cons, List.map_nil, List.mem_cons, List.not_mem_nil, or_false] at hc
  rcases hc with rfl | rfl
  · exact .inr (quantified_arrayOperand hm hq)
  · exact .inl hm

private theorem mem_nodes_operands {k : Kind} {n : Node k} {left right : Expr}
    (hn : children n = [⟨.expr, left⟩, ⟨.expr, right⟩]) {m : Σ k, Node k}
    (hm : m ∈ nodes left ∨ m ∈ nodes right) : m ∈ nodes n := by
  rcases hm with hm | hm
  · exact mem_nodes_of_mem_children (hn ▸ List.mem_cons_self) hm
  · exact mem_nodes_of_mem_children (hn ▸ List.mem_cons_of_mem _ List.mem_cons_self) hm

/-- The quantified comparisons that the visitor goes on to were there before. -/
theorem quantified_pre {k : Kind} (n : Node k) :
    ∀ c ∈ children (visitor.pre k n), ∀ m ∈ nodes c.2, (quantified? m).isSome → m ∈ nodes n := by
  refine hooks_expr (P := fun k n n' =>
    ∀ c ∈ children n', ∀ m ∈ nodes c.2, (quantified? m).isSome → m ∈ nodes n)
    (fun _ _ c hc m hm _ => mem_nodes_of_mem_children hc hm) ?_ k n
  intro e c hc m hm hq
  rcases preVisitExpr_cases e with ⟨left, right, isSome, rfl, he⟩ | ⟨left, right, rfl, he⟩ | he
  · rw [he] at hc
    exact mem_nodes_operands rfl (quantified_operands (mem_nodes_of_mem_children hc hm) hq)
  · rw [he] at hc
    rw [List.mem_singleton.mp hc] at hm
    exact mem_nodes_operands rfl (quantified_operands hm hq)
  · rw [he] at hc
    exact mem_nodes_of_mem_children hc hm

end RewriteArrayAnyAllOperation

section Valuations
variable {Env V : Type} {S : Kind → Type} [Inhabited V] [∀ k, Inhabited (S k)]

/-- An expression's value at each valuation, and what a comparison with some or every one of
its elements ranges over: the rows of a query, the elements of an array. -/
structure Operand (Env V : Type) where
  value : Env → V
  elements : Env → List V

instance : Inhabited (Operand Env V) := ⟨⟨fun _ => default, fun _ => []⟩⟩

/-- What nodes mean: expressions are operands, the other kinds are left open. -/
def Meaning (Env V : Type) (S : Kind → Type) : Kind → Type
  | .expr => Operand Env V
  | k => S k

instance : ∀ k, Inhabited (Meaning Env V S k)
  | .expr => inferInstanceAs (Inhabited (Operand Env V))
  | .query => inferInstanceAs (Inhabited (S .query))
  | .setExpr => inferInstanceAs (Inhabited (S .setExpr))
  | .tableFactor => inferInstanceAs (Inhabited (S .tableFactor))
  | .statement => inferInstanceAs (Inhabited (S .statement))

/-- The values of a database without missing ones, and what its other forms mean. -/
structure Model (Env V : Type) (S : Kind → Type) where
  ofBool : Bool → V
  isTrue : V → Bool
  isTrue_ofBool (b : Bool) : isTrue (ofBool b) = b
  array : List V → V
  elements : V → List V
  elements_array (values : List V) : elements (array values) = values
  text : String → V
  arrayLiteral : String → List V
  arrayLiteral_eq {s : String} {items : List (List Char)} :
    ArrayText s.toList items → arrayLiteral s = items.map fun item => text (String.ofList item)
  compare : BinaryOperator → V → V → Bool
  compare_eq_comm (x y : V) : compare .eq x y = compare .eq y x
  compare_notEq (x y : V) : compare .notEq x y = !compare .eq x y
  call : Function (Meaning Env V S) → Env → V
  call_arrayContains (arr x : Meaning Env V S .expr) (env : Env) :
    call ⟨[Ident.new "array_contains"], .list [.unnamed arr, .unnamed x] .none, .none⟩ env =
      ofBool ((elements (Operand.value arr env)).any fun e => compare .eq e (Operand.value x env))
  other : ∀ k, Form (Meaning Env V S) k → Meaning Env V S k

namespace Model
variable (m : Model Env V S)

/-- An expression that is no query ranges over the elements of its value. -/
def operand (value : Env → V) : Operand Env V := ⟨value, fun env => m.elements (value env)⟩

def algebra : ∀ k, Form (Meaning Env V S) k → Meaning Env V S k
  | .expr, .value (.singleQuotedString s) => ⟨fun _ => m.text s, fun _ => m.arrayLiteral s⟩
  | .expr, .anyOp left op right _ => m.operand fun env =>
    m.ofBool ((Operand.elements right env).any (m.compare op (Operand.value left env)))
  | .expr, .allOp left op right => m.operand fun env =>
    m.ofBool ((Operand.elements right env).all (m.compare op (Operand.value left env)))
  | .expr, .unaryOp .not e => m.operand fun env => m.ofBool (!m.isTrue (Operand.value e env))
  | .expr, .array elem _ => m.operand fun env => m.array (elem.map (Operand.value · env))
  | .expr, .function f => m.operand (m.call f)
  | k, form => m.other k form

/-- What a node means. -/
def meaning (k : Kind) (n : Node k) : Meaning Env V S k := interpret m.algebra k n

def value (e : Expr) : Env → V := Operand.value (m.meaning .expr e)

def elementsOf (e : Expr) : Env → List V := Operand.elements (m.meaning .expr e)

/-- A text that stands for an array of simple elements, or an expression with an array for its
value: not a query, which ranges over its rows. -/
def ArrayOperand : Expr → Prop
  | .mk (.value (.singleQuotedString s)) => ∃ items, ArrayText s.toList items
  | e => ∀ env, m.elementsOf e env = m.elements (m.value e env)

/-- Every comparison that the rule lowers has an array for its right operand. -/
def ArrayOperands {k : Kind} (n : Node k) : Prop :=
  ∀ left right, (∀ isSome, ⟨.expr, .mk (.anyOp left .eq right isSome)⟩ ∈ nodes n →
    m.ArrayOperand right) ∧
    (⟨.expr, .mk (.allOp left .notEq right)⟩ ∈ nodes n → m.ArrayOperand right)

theorem ArrayOperands.part {k : Kind} {n : Node k} (h : m.ArrayOperands n) {c : Σ k, Node k}
    (hc : c ∈ nodes n) : m.ArrayOperands c.2 :=
  fun left right => ⟨fun isSome hm => (h left right).1 isSome (nodes_trans hc hm),
    fun hm => (h left right).2 (nodes_trans hc hm)⟩

theorem meaning_eq {k : Kind} (n : Node k) :
    m.meaning k n = m.algebra k (Forms.map m.meaning (Trees.form n)) :=
  interpret_eq m.algebra n

theorem meaning_arrayContains (arr x : Expr) :
    m.meaning .expr (functionCall "array_contains" [arr, x]) = m.operand fun env =>
      m.ofBool ((m.elements (m.value arr env)).any fun e => m.compare .eq e (m.value x env)) := by
  rw [meaning_eq]
  exact congrArg m.operand (funext fun env => m.call_arrayContains _ _ env)

theorem value_text (s : String) (env : Env) :
    m.value (.mk (.value (.singleQuotedString s))) env = m.text s := by
  rw [value, meaning_eq]
  rfl

theorem elementsOf_text (s : String) (env : Env) :
    m.elementsOf (.mk (.value (.singleQuotedString s))) env = m.arrayLiteral s := by
  rw [elementsOf, meaning_eq]
  rfl

theorem value_array (elem : List Expr) (named : Bool) (env : Env) :
    m.value (.mk (.array elem named)) env = m.array (elem.map fun e => m.value e env) := by
  rw [value, meaning_eq]
  exact congrArg m.array (List.map_map (f := m.meaning .expr) (g := (Operand.value · env)))

/-- The right operand of a lowered comparison has the elements that it ranged over. -/
theorem elements_arrayOperand {right : Expr} (h : m.ArrayOperand right) (env : Env) :
    m.elements (m.value (RewriteArrayAnyAllOperation.arrayOperand right) env) =
      m.elementsOf right env := by
  unfold ArrayOperand at h
  split at h
  · rename_i s
    obtain ⟨items, hitems⟩ := h
    obtain ⟨body, hbody, htrim⟩ := trim_arrayText hitems
    have harray : RewriteArrayAnyAllOperation.arrayOperand (.mk (.value (.singleQuotedString s))) =
        .mk (.array (items.map fun item =>
          .mk (.value (.singleQuotedString (String.ofList item)))) true) := by
      rw [RewriteArrayAnyAllOperation.arrayOperand, htrim, arrayItems_body hbody hitems.simple,
        List.map_map]
      exact if_pos ⟨rfl, List.getLast?_concat (l := '{' :: body)⟩
    rw [harray, value_array, elementsOf_text, m.elements_array, m.arrayLiteral_eq hitems,
      List.map_map]
    exact List.map_congr_left fun item _ => m.value_text _ env
  · rename_i hliteral
    have hkeep : RewriteArrayAnyAllOperation.arrayOperand right = right := by
      rcases RewriteArrayAnyAllOperation.arrayOperand_cases right with ⟨s, rfl, -⟩ | hkeep
      · exact absurd rfl (hliteral s)
      · exact hkeep
    rw [hkeep]
    exact (h env).symm

theorem meaning_anyToArrayContains (left : Expr) {right : Expr} (h : m.ArrayOperand right) :
    m.meaning .expr (RewriteArrayAnyAllOperation.anyToArrayContains left right) =
      m.operand fun env =>
        m.ofBool ((m.elementsOf right env).any (m.compare .eq (m.value left env))) := by
  rw [RewriteArrayAnyAllOperation.anyToArrayContains, meaning_arrayContains]
  refine congrArg m.operand (funext fun env => congrArg m.ofBool ?_)
  rw [m.elements_arrayOperand h]
  exact congrArg _ (funext fun e => m.compare_eq_comm e _)

omit [Inhabited V] [∀ k, Inhabited (S k)] in
private theorem not_any (x : V) (ys : List V) :
    (!ys.any (m.compare .eq x)) = ys.all (m.compare .notEq x) := by
  rw [List.not_any_eq_all_not]
  exact congrArg _ (funext fun y => (m.compare_notEq x y).symm)

theorem meaning_preVisitExpr {e : Expr} (h : m.ArrayOperands e) :
    m.meaning .expr (RewriteArrayAnyAllOperation.preVisitExpr e) = m.meaning .expr e := by
  rcases RewriteArrayAnyAllOperation.preVisitExpr_cases e with
    ⟨left, right, isSome, rfl, he⟩ | ⟨left, right, rfl, he⟩ | he
  · have hright := (h left right).1 isSome (mem_nodes_self _)
    have hany : m.meaning .expr (.mk (.anyOp left .eq right isSome)) = m.operand fun env =>
        m.ofBool ((m.elementsOf right env).any (m.compare .eq (m.value left env))) :=
      m.meaning_eq _
    rw [he, hany, m.meaning_anyToArrayContains left hright]
  · have hright := (h left right).2 (mem_nodes_self _)
    have hcall := m.meaning_anyToArrayContains left hright
    have hnot : m.meaning .expr
        (.mk (.unaryOp .not (RewriteArrayAnyAllOperation.anyToArrayContains left right))) =
        m.operand fun env => m.ofBool
          (!m.isTrue (m.value (RewriteArrayAnyAllOperation.anyToArrayContains left right) env)) :=
      m.meaning_eq _
    have hall : m.meaning .expr (.mk (.allOp left .notEq right)) = m.operand fun env =>
        m.ofBool ((m.elementsOf right env).all (m.compare .notEq (m.value left env))) :=
      m.meaning_eq _
    rw [he, hnot, hall]
    refine congrArg m.operand (funext fun env => congrArg m.ofBool ?_)
    rw [value, hcall, ← m.not_any]
    exact congrArg (!·) (m.isTrue_ofBool _)
  · rw [he]

theorem meaning_visit {k : Kind} {n : Node k} (h : m.ArrayOperands n) :
    m.meaning k (RewriteArrayAnyAllOperation.visitor.visit k n) = m.meaning k n := by
  refine RewriteArrayAnyAllOperation.visitor.interpret_visit m.algebra
    (P := fun _ n => m.ArrayOperands n) ?_ ?_ h
  · intro k n h
    cases k with
    | expr => exact m.meaning_preVisitExpr h
    | _ => rfl
  · intro k n h c hc left right
    refine ⟨fun isSome hm => (h left right).1 isSome ?_, fun hm => (h left right).2 ?_⟩
    · exact RewriteArrayAnyAllOperation.quantified_pre n c hc _ hm rfl
    · exact RewriteArrayAnyAllOperation.quantified_pre n c hc _ hm rfl

end Model

/-- The lowering leaves no comparison that it is for, keeps every other one with its operator,
and changes no meaning where the operands are arrays. -/
theorem arrayOperation_lowered (s : Statement) :
    (∀ n ∈ nodes (RewriteArrayAnyAllOperation.rewrite s), isLowered n = false) ∧
    (((nodes (RewriteArrayAnyAllOperation.rewrite s)).filter isKept).map quantified?).Perm
      (((nodes s).filter isKept).map quantified?) ∧
    ∀ {Env V : Type} {S : Kind → Type} [Inhabited V] [∀ k, Inhabited (S k)]
      (m : Model Env V S), m.ArrayOperands s → ∀ n ∈ nodes s,
      m.meaning n.1 (RewriteArrayAnyAllOperation.visitor.visit n.1 n.2) = m.meaning n.1 n.2 := by
  refine ⟨RewriteArrayAnyAllOperation.isLowered_visit s, ?_, fun m h n hn =>
    m.meaning_visit (h.part m hn)⟩
  have hkept := (RewriteArrayAnyAllOperation.kept_visit s).map quantified?
  rw [List.map_map] at hkept
  refine hkept.trans (List.Perm.of_eq (List.map_congr_left fun n hn => ?_))
  exact RewriteArrayAnyAllOperation.quantified_visit_kept (List.mem_filter.mp hn).2

end Valuations

section Reference

/-- Truth values, texts and arrays. -/
inductive PlainValue
  | bool (b : Bool)
  | text (s : String)
  | array (values : List PlainValue)

instance : Inhabited PlainValue := ⟨.bool false⟩

namespace PlainValue

mutual

def equal : PlainValue → PlainValue → Bool
  | bool a, bool b => a == b
  | text s, text t => s == t
  | array xs, array ys => equalAll xs ys
  | _, _ => false

def equalAll : List PlainValue → List PlainValue → Bool
  | [], [] => true
  | x :: xs, y :: ys => equal x y && equalAll xs ys
  | _, _ => false

end

mutual

theorem equal_comm : ∀ x y, equal x y = equal y x
  | bool a, bool b => Bool.beq_comm
  | text s, text t => by rw [equal, equal, Bool.beq_comm]
  | array xs, array ys => by rw [equal, equal, equalAll_comm xs ys]
  | bool _, text _ => rfl
  | bool _, array _ => rfl
  | text _, bool _ => rfl
  | text _, array _ => rfl
  | array _, bool _ => rfl
  | array _, text _ => rfl

theorem equalAll_comm : ∀ xs ys, equalAll xs ys = equalAll ys xs
  | [], [] => rfl
  | [], _ :: _ => rfl
  | _ :: _, [] => rfl
  | x :: xs, y :: ys => by rw [equalAll, equalAll, equal_comm x y, equalAll_comm xs ys]

end

def isTrue : PlainValue → Bool
  | bool b => b
  | _ => false

def elements : PlainValue → List PlainValue
  | array values => values
  | _ => []

def compare : BinaryOperator → PlainValue → PlainValue → Bool
  | .eq, x, y => equal x y
  | .notEq, x, y => !equal x y
  | _, _, _ => false

def call {S : Kind → Type} (f : Function (Meaning (String → PlainValue) PlainValue S))
    (env : String → PlainValue) : PlainValue :=
  match f.name, f.args with
  | [⟨"array_contains", none⟩], .list [.unnamed arr, .unnamed x] _ =>
    bool ((elements (Operand.value arr env)).any fun e => compare .eq e (Operand.value x env))
  | _, _ => default

/-- Columns are read from the valuation. -/
def other {S : Kind → Type} [∀ k, Inhabited (S k)] :
    ∀ k, Form (Meaning (String → PlainValue) PlainValue S) k →
      Meaning (String → PlainValue) PlainValue S k
  | .expr, .identifier ident => ⟨fun env => env ident.value, fun env => elements (env ident.value)⟩
  | .expr, _ => (default : Operand (String → PlainValue) PlainValue)
  | k, _ => (inferInstance : Inhabited (Meaning (String → PlainValue) PlainValue S k)).default

end PlainValue

def plainModel : Model (String → PlainValue) PlainValue (fun _ => Unit) where
  ofBool := .bool
  isTrue := PlainValue.isTrue
  isTrue_ofBool _ := rfl
  array := .array
  elements := PlainValue.elements
  elements_array _ := rfl
  text := .text
  arrayLiteral s := (arrayItems (trimMatches isWhitespace s.toList)).map .text
  arrayLiteral_eq h := by
    obtain ⟨body, hbody, htrim⟩ := trim_arrayText h
    rw [htrim, arrayItems_body hbody h.simple, List.map_map]
    rfl
  compare := PlainValue.compare
  compare_eq_comm := PlainValue.equal_comm
  compare_notEq _ _ := rfl
  call := PlainValue.call
  call_arrayContains _ _ _ := rfl
  other := PlainValue.other

/-- `NOT x = ANY('{a, b}')` over `x <> ALL(y)` as the operand of a comparison that stays. -/
def quantifiedStatement : Statement :=
  let x : Expr := .mk (.identifier (Ident.new "x"))
  let y : Expr := .mk (.identifier (Ident.new "y"))
  let some : Expr := .mk (.anyOp x .eq (.mk (.value (.singleQuotedString "{a, b}"))) false)
  let every : Expr := .mk (.allOp (.mk (.unaryOp .not some)) .notEq y)
  .mk (.otherStatement ⟨"", [⟨.expr, .mk (.allOp every .eq y)⟩]⟩)

private theorem hblank : Blank [' '] := fun c hc => by rw [List.mem_singleton.mp hc]; decide

theorem simpleElement_letter {c : Char} (hplain : c ∉ [',', '{', '}', '"', '\\', Char.ofNat 39])
    (hblank : isWhitespace c = false) : SimpleElement [c] where
  plain d hd := by
    rw [List.mem_singleton.mp hd]
    exact hplain
  notNull h := by
    have hlength : 1 = 4 := congrArg List.length h
    exact absurd hlength (by decide)
  head := ⟨c, rfl, hblank⟩
  last := ⟨c, rfl, hblank⟩

theorem arrayText_ab : ArrayText "{a, b}".toList [['a'], ['b']] where
  simple := by
    intro element helement
    simp only [List.mem_cons, List.not_mem_nil, or_false] at helement
    rcases helement with rfl | rfl
    · exact simpleElement_letter (by decide) (by decide)
    · exact simpleElement_letter (by decide) (by decide)
  shape := by
    have hbody : ArrayBody ([','].intercalate [['a'], [' ', 'b']]) [['a'], ['b']] :=
      .elements (List.cons_ne_nil _ _)
        (.cons ⟨[], [], nofun, nofun, rfl⟩ (.cons ⟨[' '], [], hblank, nofun, rfl⟩ .nil))
    exact ⟨[], "a, b".toList, [], nofun, nofun, hbody, rfl⟩

/-- `NOT x = ANY('{a, b}')` and what is around it mean the same after the lowering. -/
theorem quantifiedStatement_lowered :
    plainModel.ArrayOperands quantifiedStatement ∧
      ∀ n ∈ nodes quantifiedStatement,
        plainModel.meaning n.1 (RewriteArrayAnyAllOperation.visitor.visit n.1 n.2) =
          plainModel.meaning n.1 n.2 := by
  have harray : plainModel.ArrayOperands quantifiedStatement := by
    intro left right
    simp only [quantifiedStatement, nodes_mk, Form.parts, Container.parts,
      List.flatMap_cons, List.flatMap_nil, List.append_nil, List.cons_append, List.nil_append,
      List.mem_cons, List.not_mem_nil, Sigma.mk.injEq, heq_eq_eq, Node.mk.injEq, Form.anyOp.injEq,
      Form.allOp.injEq, reduceCtorEq, and_false, false_and, true_and, or_false, false_or]
    refine ⟨?_, ?_⟩
    · rintro isSome ⟨rfl, rfl, rfl⟩
      exact ⟨_, arrayText_ab⟩
    · rintro ⟨rfl, rfl⟩ env
      rfl
  exact ⟨harray, (arrayOperation_lowered quantifiedStatement).2.2 plainModel harray⟩

end Reference
end DatafusionPostgres.Sql
