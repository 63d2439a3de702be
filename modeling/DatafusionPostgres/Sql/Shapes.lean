import DatafusionPostgres.Sql.Settled

/-! Expressions as far as the rules look into them: down through binary operators, casts and
collations. -/
namespace DatafusionPostgres.Sql
open DatafusionPostgres.Library

section Shapes

/-- A call of `version` without arguments, under whatever qualifier. -/
def callsVersion {ν : Kind → Type} (call : Function ν) : Bool :=
  match call.args with
  | .list [] _ => call.name.getLast?.any fun ident => ident.value == "version"
  | _ => false

theorem callsVersion_map {ν μ : Kind → Type} (f : ∀ k, ν k → μ k) (call : Function ν) :
    callsVersion (Container.map f call) = callsVersion call := by
  obtain ⟨name, args, rest⟩ := call
  cases args with
  | list args rest => cases args <;> rfl
  | _ => rfl

/-- What the rules can tell of an expression. A name is a text or a placeholder. -/
inductive Shape
  | identifier (ident : Ident)
  | compoundIdentifier (idents : List Ident)
  | name (operand : Value)
  | versionCall
  | binaryOp (left right : Shape)
  | cast (kind : CastKind) (expr : Shape) (dataType : DataType)
  | collate (expr : Shape)
  | other

instance : Inhabited Shape := ⟨.other⟩

namespace Shape

def ofValue (value : Value) : Shape :=
  if RewriteRegCastToSubquery.isNameOperand value then .name value else .other

def algebra : ∀ k, Form (fun _ => Shape) k → Shape
  | _, .identifier ident => .identifier ident
  | _, .compoundIdentifier idents => .compoundIdentifier idents
  | _, .value value => ofValue value
  | _, .function call => if callsVersion call then .versionCall else .other
  | _, .binaryOp left _ right => .binaryOp left right
  | _, .cast kind expr dataType _ => .cast kind expr dataType
  | _, .collate expr _ => .collate expr
  | _, _ => .other

/-- A change of every part of a shape, the inner ones first. -/
def bottomUp (r : Shape → Shape) : Shape → Shape
  | .binaryOp left right => r (.binaryOp (bottomUp r left) (bottomUp r right))
  | .cast kind expr dataType => r (.cast kind (bottomUp r expr) dataType)
  | .collate expr => r (.collate (bottomUp r expr))
  | s => r s

theorem bottomUp_ofValue (r : Shape → Shape) (value : Value) :
    bottomUp r (ofValue value) = r (ofValue value) := by
  unfold ofValue
  split <;> rfl

theorem bottomUp_algebra (r : Shape → Shape) {k : Kind} (form : Form (fun _ => Shape) k) :
    bottomUp r (algebra k form) = r (algebra k (Forms.map (fun _ => bottomUp r) form)) := by
  cases form with
  | value value => exact bottomUp_ofValue r value
  | function call =>
    change bottomUp r (if _ then _ else _) = r (if _ then _ else _)
    rw [callsVersion_map]
    split <;> rfl
  | _ => rfl

end Shape

def shape (k : Kind) (n : Node k) : Shape := interpret (M := fun _ => Shape) Shape.algebra k n

theorem shape_eq {k : Kind} (n : Node k) :
    shape k n = Shape.algebra k (Forms.map shape (Trees.form n)) :=
  interpret_eq _ n

variable {v : Visitor Node}

/-- A visitor does to the shapes what it does to one shape, if that is what its hook does and it
leaves no shape that it would change. -/
theorem shape_visit {r : Shape → Shape} {P : ∀ k, Node k → Prop}
    (hpre : ∀ k n, P k n → Shape.bottomUp r (shape k (v.pre k n)) = Shape.bottomUp r (shape k n))
    (hroot : ∀ k n, P k n → r (shape k (v.visit k n)) = shape k (v.visit k n))
    (hparts : ∀ k n, P k n → ∀ c ∈ children (v.pre k n), P c.1 c.2) {k : Kind} {n : Node k}
    (hn : P k n) : shape k (v.visit k n) = Shape.bottomUp r (shape k n) := by
  induction n using v.visit_induction with
  | step k n ih =>
    have hvisit : shape k (v.visit k n) =
        Shape.algebra k (Forms.map (fun k part => Shape.bottomUp r (shape k part))
          (Trees.form (v.pre k n))) := by
      rw [v.visit_eq, shape_eq, Trees.form_roll, Forms.map_map]
      exact congrArg _ (Forms.map_congr fun part hpart => ih part hpart (hparts k n hn part hpart))
    rw [← hpre k n hn, ← hroot k n hn, hvisit, shape_eq (v.pre k n), Shape.bottomUp_algebra,
      Forms.map_map]

theorem bottomUp_hooks {r : Shape → Shape} {f : Expr → Expr}
    (hf : ∀ e, Shape.bottomUp r (shape .expr (f e)) = Shape.bottomUp r (shape .expr e)) (k : Kind)
    (n : Node k) : Shape.bottomUp r (shape k (hooks id id f k n)) = Shape.bottomUp r (shape k n) :=
  hooks_expr (P := fun k n n' => Shape.bottomUp r (shape k n') = Shape.bottomUp r (shape k n))
    (fun _ _ => rfl) hf k n

/-- A visitor with a hook for expressions that shapes do not notice, and that leaves nothing to do
at any root. -/
theorem shape_visit_of_hooks {r : Shape → Shape} {f : Expr → Expr}
    (hv : ∀ k (n : Node k), v.pre k n = hooks id id f k n)
    (hf : ∀ e, Shape.bottomUp r (shape .expr (f e)) = Shape.bottomUp r (shape .expr e))
    (hroot : ∀ k (n : Node k), r (shape k (v.visit k n)) = shape k (v.visit k n)) {k : Kind}
    (n : Node k) : shape k (v.visit k n) = Shape.bottomUp r (shape k n) := by
  refine shape_visit (P := fun _ _ => True) (fun k n _ => ?_) (fun k n _ => hroot k n)
    (fun _ _ _ _ _ => trivial) trivial
  rw [hv]
  exact bottomUp_hooks hf k n

theorem shape_visit_of_pre (hpre : ∀ k (n : Node k), shape k (v.pre k n) = shape k n) {k : Kind}
    (n : Node k) : shape k (v.visit k n) = shape k n :=
  v.interpret_visit (M := fun _ => Shape) Shape.algebra (P := fun _ _ => True)
    (fun k n _ => hpre k n) (fun _ _ _ _ _ => trivial) trivial

/-- Every shape in the tree has the property. -/
def Shaped (p : Shape → Prop) {k : Kind} (n : Node k) : Prop := ∀ m ∈ nodes n, p (shape m.1 m.2)

theorem shape_mk {k : Kind} (form : Form Node k) :
    shape k (.mk form) = Shape.algebra k (Forms.map shape form) :=
  shape_eq _

theorem shape_of_ne_expr {k : Kind} (h : k ≠ .expr) (n : Node k) : shape k n = .other := by
  obtain ⟨form⟩ := n
  rw [shape_mk]
  cases form <;> first | rfl | exact absurd rfl h

theorem fixed_of_expr {r : Shape → Shape} (hother : r .other = .other)
    {f : ∀ k, Node k → Node k}
    (hexpr : ∀ e, r (shape .expr (f .expr e)) = shape .expr (f .expr e)) (k : Kind) (n : Node k) :
    r (shape k (f k n)) = shape k (f k n) := by
  by_cases hk : k = .expr
  · cases hk
    exact hexpr n
  · rw [shape_of_ne_expr hk, hother]

theorem shape_function (call : Function Node) :
    shape .expr (.mk (.function call)) = if callsVersion call then .versionCall else .other := by
  rw [shape_mk, ← callsVersion_map shape call]
  rfl

theorem shape_value (value : Value) : shape .expr (.mk (.value value)) = .ofValue value :=
  shape_mk _

theorem shape_functionCall {name : String} {args : List Expr}
    (h : callsVersion (ν := Node) ⟨[Ident.new name], .list (args.map .unnamed) .none, .none⟩ = false) :
    shape .expr (functionCall name args) = .other := by
  rw [functionCall, shape_function, h]
  rfl

theorem shape_eq_name {e : Expr} {operand : Value} (h : shape .expr e = .name operand) :
    e = .mk (.value operand) := by
  obtain ⟨form⟩ := e
  rw [shape_mk] at h
  cases form with
  | value value =>
    change Shape.ofValue value = _ at h
    unfold Shape.ofValue at h
    split at h <;> cases h
    rfl
  | function call =>
    change (if _ then _ else _) = _ at h
    split at h <;> cases h
  | _ => cases h

theorem shape_eq_cast {e : Expr} {kind : CastKind} {s : Shape} {dataType : DataType}
    (h : shape .expr e = .cast kind s dataType) :
    ∃ inner rest, e = .mk (.cast kind inner dataType rest) ∧ shape .expr inner = s := by
  obtain ⟨form⟩ := e
  rw [shape_mk] at h
  cases form with
  | cast kind inner dataType rest =>
    cases h
    exact ⟨inner, rest, rfl, rfl⟩
  | value value =>
    change Shape.ofValue value = _ at h
    unfold Shape.ofValue at h
    split at h <;> cases h
  | function call =>
    change (if _ then _ else _) = _ at h
    split at h <;> cases h
  | _ => cases h

theorem shape_eq_identifier {e : Expr} {ident : Ident} (h : shape .expr e = .identifier ident) :
    e = .mk (.identifier ident) := by
  obtain ⟨form⟩ := e
  rw [shape_mk] at h
  cases form with
  | identifier name =>
    cases h
    rfl
  | value value =>
    change Shape.ofValue value = _ at h
    unfold Shape.ofValue at h
    split at h <;> cases h
  | function call =>
    change (if _ then _ else _) = _ at h
    split at h <;> cases h
  | _ => cases h

theorem shape_eq_collate {e : Expr} {s : Shape} (h : shape .expr e = .collate s) :
    ∃ inner collation, e = .mk (.collate inner collation) ∧ shape .expr inner = s := by
  obtain ⟨form⟩ := e
  rw [shape_mk] at h
  cases form with
  | collate inner collation =>
    cases h
    exact ⟨inner, collation, rfl, rfl⟩
  | value value =>
    change Shape.ofValue value = _ at h
    unfold Shape.ofValue at h
    split at h <;> cases h
  | function call =>
    change (if _ then _ else _) = _ at h
    split at h <;> cases h
  | _ => cases h

theorem shape_eq_versionCall {e : Expr} (h : shape .expr e = .versionCall) :
    ∃ call, e = .mk (.function call) ∧ callsVersion call := by
  obtain ⟨form⟩ := e
  cases form with
  | function call =>
    rw [shape_function] at h
    split at h
    · exact ⟨call, rfl, ‹_›⟩
    · cases h
  | value value =>
    rw [shape_value] at h
    unfold Shape.ofValue at h
    split at h <;> cases h
  | _ =>
    rw [shape_mk] at h
    cases h

theorem shape_eq_binaryOp {e : Expr} {s t : Shape} (h : shape .expr e = .binaryOp s t) :
    ∃ left op right, e = .mk (.binaryOp left op right) ∧ shape .expr left = s ∧
      shape .expr right = t := by
  obtain ⟨form⟩ := e
  rw [shape_mk] at h
  cases form with
  | binaryOp left op right =>
    cases h
    exact ⟨left, op, right, rfl, rfl, rfl⟩
  | value value =>
    change Shape.ofValue value = _ at h
    unfold Shape.ofValue at h
    split at h <;> cases h
  | function call =>
    change (if _ then _ else _) = _ at h
    split at h <;> cases h
  | _ => cases h

theorem shaped_iff {p : Shape → Prop} {k : Kind} {n : Node k} :
    Shaped p n ↔ p (shape k n) ∧ ∀ c ∈ children n, Shaped p c.2 :=
  forall_nodes_iff

theorem Shaped.visit {p q : Shape → Prop}
    (hparts : ∀ k (n : Node k), Shaped p n → ∀ c ∈ children (v.pre k n), Shaped p c.2)
    (hself : ∀ k (n : Node k), Shaped p n → q (shape k (v.visit k n))) {k : Kind} {n : Node k}
    (h : Shaped p n) : Shaped q (v.visit k n) :=
  v.forall_nodes_visit (P := fun m => p (shape m.1 m.2)) (Q := fun m => q (shape m.1 m.2)) hself
    hparts h

theorem Shaped.parts_of_keep (hkeep : ∀ k (n : Node k), children (v.pre k n) = children n)
    {p : Shape → Prop} (k : Kind) (n : Node k) (h : Shaped p n) :
    ∀ c ∈ children (v.pre k n), Shaped p c.2 := by
  intro c hc
  rw [hkeep] at hc
  exact (shaped_iff.mp h).2 c hc

theorem shaped_value {p : Shape → Prop} (hother : p .other) (hname : ∀ value, p (.name value))
    (value : Value) : Shaped p (Node.mk (.value value)) := by
  refine shaped_iff.mpr ⟨?_, nofun⟩
  rw [shape_value, Shape.ofValue]
  split
  · exact hname value
  · exact hother

theorem shaped_arrayValues {p : Shape → Prop} (hother : p .other) (hname : ∀ value, p (.name value))
    {α : Type} (f : α → Value) (items : List α) (named : Bool) :
    Shaped p (Node.mk (.array (items.map fun item => .mk (.value (f item))) named)) := by
  refine shaped_iff.mpr ⟨by rw [shape_mk]; exact hother, fun c hc => ?_⟩
  rw [children_array, List.map_map] at hc
  obtain ⟨item, -, rfl⟩ := List.mem_map.mp hc
  exact shaped_value hother hname _

theorem pre_of_visit_value {e : Expr} {value : Value}
    (h : v.visit .expr e = .mk (.value value)) : v.pre .expr e = .mk (.value value) := by
  rw [v.visit_eq] at h
  cases hpre : v.pre .expr e with
  | mk form =>
    rw [hpre] at h
    cases form <;> cases h
    rfl

theorem pre_of_visit_cast {e inner : Expr} {kind : CastKind} {dataType : DataType}
    {rest : Rest Node} (h : v.visit .expr e = .mk (.cast kind inner dataType rest)) :
    ∃ inner' rest', v.pre .expr e = .mk (.cast kind inner' dataType rest') ∧
      v.visit .expr inner' = inner := by
  rw [v.visit_eq] at h
  cases hpre : v.pre .expr e with
  | mk form =>
    rw [hpre] at h
    cases form <;> cases h
    exact ⟨_, _, rfl, rfl⟩

end Shapes

namespace RewriteArrayAnyAllOperation

theorem shape_visitor {k : Kind} (n : Node k) : shape k (visitor.visit k n) = shape k n := by
  refine shape_visit_of_pre (fun k n => ?_) n
  refine hooks_expr (P := fun k n n' => shape k n' = shape k n) (fun _ _ => rfl) ?_ k n
  intro e
  rcases preVisitExpr_cases e with ⟨left, right, isSome, rfl, he⟩ | ⟨left, right, rfl, he⟩ | he
  · rw [he, anyToArrayContains, shape_functionCall rfl, shape_mk]
    rfl
  · rw [he, shape_mk, shape_mk]
    rfl
  · rw [he]

theorem shaped_parts {p : Shape → Prop} (hother : p .other) (hname : ∀ value, p (.name value))
    (k : Kind) (n : Node k) (h : Shaped p n) :
    ∀ c ∈ children (visitor.pre k n), Shaped p c.2 := by
  have hcall : ∀ left right, (∀ c ∈ [(⟨.expr, left⟩ : Σ k, Node k), ⟨.expr, right⟩], Shaped p c.2) →
      ∀ c ∈ children (anyToArrayContains left right), Shaped p c.2 := by
    intro left right hparts c hc
    obtain ⟨hleft, hright⟩ := List.forall_mem_cons.mp hparts
    replace hright := hright _ (List.mem_singleton_self _)
    rw [anyToArrayContains, children_functionCall] at hc
    simp only [List.map_cons, List.map_nil, List.mem_cons, List.not_mem_nil, or_false] at hc
    rcases hc with rfl | rfl
    · rcases arrayOperand_cases right with ⟨text, rfl, harray⟩ | hkeep
      · rw [harray]
        exact shaped_arrayValues hother hname _ _ _
      · rwa [hkeep]
    · exact hleft
  refine hooks_expr (P := fun _ n n' => Shaped p n → ∀ c ∈ children n', Shaped p c.2)
    (fun _ _ h => (shaped_iff.mp h).2) ?_ k n h
  intro e h c hc
  rcases preVisitExpr_cases e with ⟨left, right, isSome, rfl, he⟩ | ⟨left, right, rfl, he⟩ | he
  · rw [he] at hc
    exact hcall left right (shaped_iff.mp h).2 c hc
  · rw [he] at hc
    rw [List.mem_singleton.mp hc]
    refine shaped_iff.mpr ⟨?_, hcall left right (shaped_iff.mp h).2⟩
    rw [anyToArrayContains, shape_functionCall rfl]
    exact hother
  · rw [he] at hc
    exact (shaped_iff.mp h).2 c hc

end RewriteArrayAnyAllOperation

namespace PrependUnqualifiedPgTableName

theorem shape_visitor {k : Kind} (n : Node k) : shape k (visitor.visit k n) = shape k n := by
  refine shape_visit_of_pre (fun k n => ?_) n
  cases k with
  | tableFactor =>
    change shape .tableFactor (preVisitTableFactor n) = shape .tableFactor n
    rw [shape_of_ne_expr (k := .tableFactor) nofun, shape_of_ne_expr (k := .tableFactor) nofun]
  | _ => rfl

end PrependUnqualifiedPgTableName

namespace StripCallableQualifier

theorem shape_visitor {k : Kind} (n : Node k) : shape k (visitor.visit k n) = shape k n := by
  refine shape_visit_of_pre (fun k n => ?_) n
  cases k with
  | tableFactor =>
    change shape .tableFactor (preVisitTableFactor n) = shape .tableFactor n
    rw [shape_of_ne_expr (k := .tableFactor) nofun, shape_of_ne_expr (k := .tableFactor) nofun]
  | expr =>
    change shape .expr (preVisitExpr n) = shape .expr n
    unfold preVisitExpr
    split
    · rename_i call
      rw [shape_function, shape_function, callsVersion, callsVersion, getLast_lastIdent]
    · rfl
  | _ => rfl

end StripCallableQualifier

namespace FixArrayLiteral

/-- What the rule does to a shape. -/
def onShape : Shape → Shape
  | .cast .doubleColon (.name (.singleQuotedString _)) (.array elem) =>
    .cast .doubleColon .other (.array elem)
  | s => s

theorem onShape_cases (s : Shape) :
    (∃ text elem, s = .cast .doubleColon (.name (.singleQuotedString text)) (.array elem)) ∨
    onShape s = s := by
  unfold onShape
  split
  · exact .inl ⟨_, _, rfl⟩
  · exact .inr rfl

theorem preVisitExpr_of_onShape {e : Expr} (h : onShape (shape .expr e) = shape .expr e) :
    preVisitExpr e = e := by
  rcases preVisitExpr_cases e with ⟨text, arr, rest, rfl, -⟩ | he
  · rw [shape_mk] at h
    cases h
  · exact he

theorem pre_of_onShape {k : Kind} {n : Node k} (h : onShape (shape k n) = shape k n) :
    visitor.pre k n = n := by
  cases k with
  | expr => exact preVisitExpr_of_onShape h
  | _ => rfl

theorem onShape_visit (k : Kind) (n : Node k) :
    onShape (shape k (visitor.visit k n)) = shape k (visitor.visit k n) := by
  refine fixed_of_expr rfl (fun e => ?_) k n
  rcases onShape_cases (shape .expr (visitor.visit .expr e)) with ⟨text, elem, h⟩ | h
  · obtain ⟨inner, rest, hvisit, hinner⟩ := shape_eq_cast h
    obtain ⟨inner', rest', hpre, hvisit'⟩ := pre_of_visit_cast hvisit
    rw [shape_eq_name hinner] at hvisit'
    have hvalue : preVisitExpr inner' = _ := pre_of_visit_value hvisit'
    have hcast : preVisitExpr e = _ := hpre
    rcases preVisitExpr_cases inner' with ⟨text, arr, rest, -, he⟩ | he
    · cases he.symm.trans hvalue
    · cases he.symm.trans hvalue
      rcases preVisitExpr_cases e with ⟨text, arr, rest, -, he⟩ | he
      · cases he.symm.trans hcast
      · cases he.symm.trans hcast
        cases he
  · exact h

theorem shape_visitor {k : Kind} (n : Node k) :
    shape k (visitor.visit k n) = Shape.bottomUp onShape (shape k n) := by
  refine shape_visit_of_hooks (fun _ _ => rfl) (fun e => ?_) onShape_visit n
  rcases preVisitExpr_cases e with ⟨text, arr, rest, rfl, he⟩ | he
  · rw [he, shape_mk, shape_mk]
    change onShape (.cast .doubleColon (Shape.bottomUp onShape (shape .expr _)) _) =
      onShape (.cast .doubleColon (Shape.bottomUp onShape (shape .expr _)) _)
    rw [shape_value, shape_mk]
    rfl
  · rw [he]

theorem shaped_parts {p : Shape → Prop} (hother : p .other) (hname : ∀ value, p (.name value))
    (k : Kind) (n : Node k) (h : Shaped p n) :
    ∀ c ∈ children (visitor.pre k n), Shaped p c.2 := by
  refine hooks_expr (P := fun _ n n' => Shaped p n → ∀ c ∈ children n', Shaped p c.2)
    (fun _ _ h => (shaped_iff.mp h).2) ?_ k n h
  intro e h c hc
  rcases preVisitExpr_cases e with ⟨text, arr, rest, rfl, he⟩ | he
  · rw [he] at hc
    rcases List.mem_cons.mp hc with rfl | hc
    · exact shaped_arrayValues hother hname _ _ _
    · exact (shaped_iff.mp h).2 c (List.mem_cons_of_mem _ hc)
  · rw [he] at hc
    exact (shaped_iff.mp h).2 c hc

end FixArrayLiteral

namespace CurrentUserVariableToSessionUserFunctionCall

def onShape : Shape → Shape
  | .identifier ident => if isBareFunction ident then .other else .identifier ident
  | s => s

theorem onShape_cases (s : Shape) :
    (∃ ident, s = .identifier ident ∧ isBareFunction ident) ∨ onShape s = s := by
  unfold onShape
  split
  · split
    · exact .inl ⟨_, rfl, ‹_›⟩
    · exact .inr rfl
  · exact .inr rfl

theorem onShape_visit (k : Kind) (n : Node k) :
    onShape (shape k (visitor.visit k n)) = shape k (visitor.visit k n) := by
  refine fixed_of_expr rfl (fun e => ?_) k n
  rcases onShape_cases (shape .expr (visitor.visit .expr e)) with ⟨ident, h, hbare⟩ | h
  · have hquiet := (quiet_user e).self
    rw [shape_eq_identifier h, quiet_identifier, hbare] at hquiet
    exact absurd hquiet Bool.false_ne_true
  · exact h

private theorem onShape_wrapIdentifier (e : Expr) :
    Shape.bottomUp onShape (shape .expr (wrapIdentifier e)) =
      Shape.bottomUp onShape (shape .expr e) := by
  rcases wrapIdentifier_cases e with ⟨ident, target, rfl, hquote, htarget, he⟩ | he
  · have hbare : isBareFunction ident := by
      rw [isBareFunction, hquote, htarget]
      rfl
    have hcall : target = "current_schema" := List.mem_singleton.mp (lookup_values htarget)
    rw [he, shape_functionCall (hcall ▸ by decide), shape_mk]
    exact (if_pos hbare).symm
  · rw [he]

private theorem callsVersion_of_renamed {call : Function Node} {target : String}
    (h : (lastIdentLower call.name).bind (List.lookup · builtinFunctionRename) = some target) :
    callsVersion call = false := by
  rw [callsVersion]
  split
  · rw [lastIdentLower] at h
    cases hname : call.name.getLast? with
    | none => rfl
    | some ident =>
      refine Bool.eq_false_iff.mpr fun hversion => ?_
      have hvalue : ident.value = "version" := eq_of_beq hversion
      have hlookup : builtinFunctionRename.lookup (toLowercase "version") = none := by decide
      rw [hname, Option.map_some, Option.bind_some, hvalue, hlookup] at h
      cases h
  · rfl

private theorem callsVersion_target {name target : String}
    (h : builtinFunctionRename.lookup name = some target) (args : FunctionArguments Node)
    (rest : Rest Node) : callsVersion ⟨[Ident.new target], args, rest⟩ = false := by
  have htarget := lookup_values h
  rw [callsVersion]
  split
  · simp only [builtinFunctionRename, List.map_cons, List.map_nil, List.mem_cons,
      List.not_mem_nil, or_false] at htarget
    rcases htarget with rfl | rfl <;> rfl
  · rfl

private theorem shape_renameFunction (e : Expr) :
    shape .expr (renameFunction e) = shape .expr e := by
  rcases renameFunction_cases e with ⟨call, target, rfl, htarget, he⟩ | he
  · obtain ⟨name, -, hname⟩ := Option.bind_eq_some_iff.mp htarget
    rw [he, shape_function, shape_function, callsVersion_of_renamed htarget,
      callsVersion_target hname]
  · rw [he]

theorem shape_visitor {k : Kind} (n : Node k) :
    shape k (visitor.visit k n) = Shape.bottomUp onShape (shape k n) := by
  refine shape_visit_of_hooks (fun _ _ => rfl) (fun e => ?_) onShape_visit n
  rw [preVisitExpr, shape_renameFunction, onShape_wrapIdentifier]

end CurrentUserVariableToSessionUserFunctionCall

namespace StripCollate

def onShape : Shape → Shape
  | .collate s => s
  | s => s

/-- One collation right under another. -/
def isDoubled : Shape → Bool
  | .collate (.collate _) => true
  | _ => false

theorem onShape_cases (s : Shape) : (∃ inner, s = .collate inner) ∨ onShape s = s := by
  cases s with
  | collate inner => exact .inl ⟨inner, rfl⟩
  | _ => exact .inr rfl

theorem onShape_of_quiet {k : Kind} {n : Node k} (h : quiet .collate ⟨k, n⟩) :
    onShape (shape k n) = shape k n := by
  rcases onShape_cases (shape k n) with ⟨inner, hshape⟩ | hshape
  · by_cases hk : k = .expr
    · cases hk
      obtain ⟨e, collation, rfl, -⟩ := shape_eq_collate hshape
      exact absurd h Bool.false_ne_true
    · cases (shape_of_ne_expr hk n).symm.trans hshape
  · exact hshape

theorem mem_nodes_of_pre {k : Kind} {n : Node k} {c m : Σ k, Node k}
    (hc : c ∈ children (visitor.pre k n)) (hm : m ∈ nodes c.2) : m ∈ nodes n := by
  have hpre : m ∈ nodes (visitor.pre k n) := mem_nodes_of_mem_children hc hm
  refine hooks_expr (P := fun _ n n' => m ∈ nodes n' → m ∈ nodes n) (fun _ _ => id) ?_ k n hpre
  intro e hpre
  rcases preVisitExpr_cases e with ⟨inner, collation, rfl, he⟩ | he
  · rw [he] at hpre
    exact mem_nodes_of_mem_children (List.mem_singleton_self _) hpre
  · rwa [he] at hpre

theorem quiet_pre_of_not_doubled {k : Kind} {n : Node k} (h : isDoubled (shape k n) = false) :
    quiet .collate ⟨k, visitor.pre k n⟩ := by
  cases k with
  | expr =>
    obtain ⟨form⟩ := n
    cases form with
    | collate inner collation =>
      obtain ⟨form⟩ := inner
      cases form with
      | collate inner collation =>
        rw [shape_mk] at h
        change isDoubled (.collate (shape .expr _)) = false at h
        rw [shape_mk] at h
        cases h
      | _ => rfl
    | _ => rfl
  | _ => rfl

theorem quiet_collate {k : Kind} {n : Node k} (h : Shaped (isDoubled · = false) n) :
    Quiet .collate (visitor.visit k n) := by
  refine visitor.forall_nodes_visit (fun k n h => ?_) (fun k n h c hc m hm => h m ?_) h
  · rw [quiet_visit ⟨k, n⟩]
    exact quiet_pre_of_not_doubled (h _ (mem_nodes_self n))
  · exact mem_nodes_of_pre hc hm

theorem bottomUp_pre (k : Kind) (n : Node k) :
    Shape.bottomUp onShape (shape k (visitor.pre k n)) = Shape.bottomUp onShape (shape k n) := by
  refine bottomUp_hooks (fun e => ?_) k n
  rcases preVisitExpr_cases e with ⟨inner, collation, rfl, he⟩ | he
  · rw [he, shape_mk]
    change _ = onShape (.collate (Shape.bottomUp onShape (shape .expr inner)))
    rfl
  · rw [he]

theorem shape_visitor {k : Kind} {n : Node k} (h : Shaped (isDoubled · = false) n) :
    shape k (visitor.visit k n) = Shape.bottomUp onShape (shape k n) :=
  shape_visit (P := fun _ n => Shaped (isDoubled · = false) n) (fun k n _ => bottomUp_pre k n)
    (fun _ _ h => onShape_of_quiet (quiet_collate h).self)
    (fun _ _ h _ hc m hm => h m (mem_nodes_of_pre hc hm)) h

end StripCollate

namespace RewritePgCatalogOperator

theorem shape_visitor {k : Kind} (n : Node k) : shape k (visitor.visit k n) = shape k n := by
  refine shape_visit_of_pre (fun k n => ?_) n
  cases k with
  | expr =>
    change shape .expr (preVisitExpr n) = shape .expr n
    unfold preVisitExpr
    split
    · rw [shape_mk, shape_mk]
      rfl
    · rfl
  | _ => rfl

end RewritePgCatalogOperator

namespace RewriteRegCastToSubquery

def onShape : Shape → Shape
  | .cast kind (.name operand) dataType =>
    if (nameCast operand dataType).isSome then .other else .cast kind (.name operand) dataType
  | s => s

theorem onShape_cases (s : Shape) :
    (∃ kind operand dataType r, s = .cast kind (.name operand) dataType ∧
      nameCast operand dataType = some r) ∨ onShape s = s := by
  unfold onShape
  split
  · split
    · obtain ⟨r, hr⟩ := Option.isSome_iff_exists.mp ‹_›
      exact .inl ⟨_, _, _, r, rfl, hr⟩
    · exact .inr rfl
  · exact .inr rfl

private theorem shape_nameCast {operand : Value} {dataType : DataType} {r : Expr}
    (h : nameCast operand dataType = some r) :
    shape .expr r = .other ∧ isNameOperand operand := by
  unfold nameCast at h
  split at h
  · split at h
    · rename_i hname
      split at h
      · rename_i literal hliteral
        cases h
        refine ⟨?_, hname⟩
        unfold numericStringToLiteral at hliteral
        split at hliteral
        · split at hliteral <;> cases hliteral
          exact shape_value _
        · cases hliteral
      · cases h
        exact ⟨shape_mk _, hname⟩
    · cases h
  · cases h

private theorem shape_castName {operand : Value} (h : isNameOperand operand) (kind : CastKind)
    (dataType : DataType) (rest : Rest Node) :
    shape .expr (.mk (.cast kind (.mk (.value operand)) dataType rest)) =
      .cast kind (.name operand) dataType := by
  rw [shape_mk]
  change Shape.cast kind (shape .expr _) dataType = _
  rw [shape_value, Shape.ofValue, if_pos h]

theorem preVisitExpr_of_onShape {e : Expr} (h : onShape (shape .expr e) = shape .expr e) :
    preVisitExpr e = e := by
  rcases preVisitExpr_cases e with ⟨kind, operand, dataType, rest, rfl, he⟩ | he
  · obtain ⟨-, hname⟩ := shape_nameCast he
    rw [shape_castName hname, onShape, if_pos (Option.isSome_iff_exists.mpr ⟨_, he⟩)] at h
    cases h
  · exact he

theorem pre_of_onShape {k : Kind} {n : Node k} (h : onShape (shape k n) = shape k n) :
    visitor.pre k n = n := by
  cases k with
  | expr => exact preVisitExpr_of_onShape h
  | _ => rfl

theorem onShape_visit (k : Kind) (n : Node k) :
    onShape (shape k (visitor.visit k n)) = shape k (visitor.visit k n) := by
  refine fixed_of_expr rfl (fun e => ?_) k n
  rcases onShape_cases (shape .expr (visitor.visit .expr e)) with
    ⟨kind, operand, dataType, r, h, hcast⟩ | h
  · obtain ⟨inner, rest, hvisit, hinner⟩ := shape_eq_cast h
    obtain ⟨inner', rest', hpre, hvisit'⟩ := pre_of_visit_cast hvisit
    rw [shape_eq_name hinner] at hvisit'
    have hvalue : preVisitExpr inner' = _ := pre_of_visit_value hvisit'
    have he : preVisitExpr e = _ := hpre
    have hinner' : inner' = .mk (.value operand) := by
      rcases preVisitExpr_cases inner' with ⟨kind, operand', dataType, rest, -, hr⟩ | hkeep
      · have hother := (shape_nameCast hr).1
        rw [hvalue, shape_value, Shape.ofValue, if_pos (shape_nameCast hcast).2] at hother
        cases hother
      · rw [← hkeep, hvalue]
    rw [hinner'] at he
    rcases preVisitExpr_cases e with ⟨kind, operand', dataType, rest, -, hr⟩ | hkeep
    · have hother := (shape_nameCast hr).1
      rw [he, shape_mk] at hother
      cases hother
    · rw [hkeep] at he
      rw [he, preVisitExpr, hcast] at hkeep
      have hother := (shape_nameCast hcast).1
      rw [Option.getD_some] at hkeep
      rw [hkeep, shape_mk] at hother
      cases hother
  · exact h

theorem shape_visitor {k : Kind} (n : Node k) :
    shape k (visitor.visit k n) = Shape.bottomUp onShape (shape k n) := by
  refine shape_visit_of_hooks (fun _ _ => rfl) (fun e => ?_) onShape_visit n
  rcases preVisitExpr_cases e with ⟨kind, operand, dataType, rest, rfl, he⟩ | he
  · obtain ⟨hother, hname⟩ := shape_nameCast he
    have hinner : Shape.bottomUp onShape (.name operand) = .name operand := rfl
    rw [hother, shape_castName hname, Shape.bottomUp, hinner, onShape,
      if_pos (Option.isSome_iff_exists.mpr ⟨_, he⟩)]
    rfl
  · rw [he]

/-- A cast to an array type. -/
def isArrayCast : (Σ k, Node k) → Bool
  | ⟨.expr, .mk (.cast _ _ (.array _) _)⟩ => true
  | _ => false

private theorem isArrayCast_map (f : ∀ k, Node k → Node k) {k : Kind} (n : Node k) :
    isArrayCast ⟨k, Trees.roll (Forms.map f (Trees.form n))⟩ = isArrayCast ⟨k, n⟩ := by
  obtain ⟨form⟩ := n
  cases form with
  | cast kind e dataType rest => cases dataType <;> rfl
  | _ => rfl

private theorem isArrayCast_visit (operand : Value) {k : Kind} (n : Node k) :
    isArrayCast ⟨k, (placeholderReplacer operand).visit k n⟩ = isArrayCast ⟨k, n⟩ := by
  rw [Visitor.visit_eq]
  refine (isArrayCast_map _ _).trans ?_
  refine hooks_expr (P := fun k n n' => isArrayCast ⟨k, n'⟩ = isArrayCast ⟨k, n⟩) (fun _ _ => rfl)
    ?_ k n
  intro e
  rcases replacePlaceholder_cases operand e with ⟨name, rfl, he⟩ | he
  · rw [he]
    rfl
  · rw [he]

private theorem isArrayCast_createSubquery {template : Query}
    (h : template ∈ regCastSpecs.map Prod.snd) (operand : Value) :
    ∀ m ∈ nodes (createSubquery template operand), isArrayCast m = false := by
  have hall : (nodes template).all (fun m => !isArrayCast m) := by
    simp only [regCastSpecs, List.map_cons, List.map_nil, List.mem_cons, List.not_mem_nil,
      or_false] at h
    rcases h with rfl | rfl | rfl | rfl
    all_goals
      rw [nodes, fold_eq_foldN (m := 20) _ rfl]
      decide +kernel
  intro m hm
  rw [createSubquery, Visitor.nodes_visit (fun _ => children_replacePlaceholder operand)] at hm
  obtain ⟨n, hn, rfl⟩ := List.mem_map.mp hm
  rw [isArrayCast_visit]
  exact (Bool.not_eq_true' _).mp (List.all_eq_true.mp hall n hn)

private theorem array_fixed {k : Kind} {n : Node k} (h : isArrayCast ⟨k, n⟩ = false) :
    FixArrayLiteral.onShape (shape k n) = shape k n := by
  by_cases hk : k = .expr
  · cases hk
    rcases FixArrayLiteral.onShape_cases (shape .expr n) with ⟨text, elem, hshape⟩ | hshape
    · obtain ⟨inner, rest, rfl, -⟩ := shape_eq_cast hshape
      cases h
    · exact hshape
  · rw [shape_of_ne_expr hk]
    rfl

theorem shaped_parts (k : Kind) (n : Node k)
    (h : Shaped (fun s => FixArrayLiteral.onShape s = s) n) :
    ∀ c ∈ children (visitor.pre k n), Shaped (fun s => FixArrayLiteral.onShape s = s) c.2 := by
  refine hooks_expr (P := fun _ n n' => Shaped (fun s => FixArrayLiteral.onShape s = s) n →
    ∀ c ∈ children n', Shaped (fun s => FixArrayLiteral.onShape s = s) c.2)
    (fun _ _ h => (shaped_iff.mp h).2) ?_ k n h
  intro e h c hc
  rcases preVisitExpr_cases e with ⟨kind, operand, dataType, rest, -, he⟩ | he
  · rcases nameCast_cases he with ⟨literal, hr⟩ | ⟨template, htemplate, hr⟩
    · rw [hr] at hc
      exact absurd hc List.not_mem_nil
    · rw [hr] at hc
      rw [List.mem_singleton.mp hc]
      exact fun m hm => array_fixed (isArrayCast_createSubquery htemplate operand m hm)
  · rw [he] at hc
    exact (shaped_iff.mp h).2 c hc

end RewriteRegCastToSubquery

theorem shape_projectionVisitor {f : SelectItem Node → SelectItem Node}
    {hf : ∀ item, ∀ c ∈ Container.parts (f item),
      ∃ c' ∈ Container.parts item, level c.1 c.2 ≤ level c'.1 c'.2} {k : Kind} (n : Node k) :
    shape k ((projectionVisitor f hf).visit k n) = shape k n := by
  refine shape_visit_of_pre (fun k n => ?_) n
  refine hooks_query (P := fun k n n' => shape k n' = shape k n) (fun _ _ => rfl) (fun q => ?_) k n
  rw [shape_of_ne_expr (k := .query) nofun, shape_of_ne_expr (k := .query) nofun]

namespace RemoveSubqueryFromProjection

theorem shaped_parts {p : Shape → Prop} (hother : p .other) (hname : ∀ value, p (.name value))
    (k : Kind) (n : Node k) (h : Shaped p n) :
    ∀ c ∈ children (visitor.pre k n), Shaped p c.2 := by
  refine fun c hc m hm => forall_nodes_pre (P := fun m => p (shape m.1 m.2)) (fun q => ?_)
    (fun body => ?_) (fun q => ?_) ?_ ?_ h m (mem_nodes_of_mem_children hc hm)
  · rw [shape_of_ne_expr (k := .query) nofun]
    exact hother
  · rw [shape_of_ne_expr (k := .setExpr) nofun]
    exact hother
  · rw [shape_mk]
    exact hother
  · exact (shaped_iff.mp (shaped_value hother hname _)).1
  · exact (shaped_iff.mp (shaped_value hother hname _)).1

end RemoveSubqueryFromProjection

namespace FixVersionColumnName

theorem shaped_parts {p : Shape → Prop} (hother : p .other) (k : Kind) (n : Node k)
    (h : Shaped p n) : ∀ c ∈ children (visitor.pre k n), Shaped p c.2 := by
  refine fun c hc m hm => forall_nodes_pre (P := fun m => p (shape m.1 m.2)) (fun q => ?_)
    (fun body => ?_) h m (mem_nodes_of_mem_children hc hm)
  · rw [shape_of_ne_expr (k := .query) nofun]
    exact hother
  · rw [shape_of_ne_expr (k := .setExpr) nofun]
    exact hother

end FixVersionColumnName
end DatafusionPostgres.Sql
