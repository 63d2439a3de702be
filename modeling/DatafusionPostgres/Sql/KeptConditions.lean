import DatafusionPostgres.Sql.QuantifiedComparison

/-! Conditions on the nodes of a statement, and the rules that keep them. -/
namespace DatafusionPostgres.Sql
open DatafusionPostgres.Library

section Conditions

/-- The common tables that a form names. -/
def commonTables {ν : Kind → Type} : {k : Kind} → Form ν k → List Ident
  | _, .query fields =>
    fields.withClause.elim [] fun clause => clause.cteTables.map fun cte => cte.aliasName.name
  | _, _ => []

/-- No common table of the node has the name of a relation of the catalog. -/
def NoCatalogNames (n : Σ k, Node k) : Prop :=
  ∀ table ∈ commonTables (Trees.form n.2),
    PrependUnqualifiedPgTableName.isPgCatalogTable table.value = false

/-- A whole number in digits. -/
def Numeral (item : List Char) : Prop := item ≠ [] ∧ ∀ c ∈ item, c.isDigit

/-- The types of exact numbers. -/
def numberTypes : List String :=
  ["SMALLINT", "INT2", "INT", "INTEGER", "INT4", "BIGINT", "INT8", "NUMERIC", "DECIMAL"]

def isNumberType : DataType → Bool
  | .other display => numberTypes.contains display
  | _ => false

def isNumber : ArrayElemTypeDef → Bool
  | .angleBracket elem => isNumberType elem
  | .squareBracket elem _ => isNumberType elem
  | .parenthesis elem => isNumberType elem
  | .none => false

/-- The text and the type of a text that is cast to an array. -/
def castText? : (Σ k, Node k) → Option (String × ArrayElemTypeDef)
  | ⟨.expr, .mk (.cast .doubleColon (.mk (.value (.singleQuotedString text))) (.array arr) _)⟩ =>
    some (text, arr)
  | _ => none

/-- A text that is cast to an array has simple elements and no blanks around its braces: texts, or
numerals of a type of numbers. -/
def CastReadable (n : Σ k, Node k) : Prop :=
  ∀ text arr, castText? n = some (text, arr) → ∃ body items, ArrayBody body items ∧
    text.toList = '{' :: (body ++ ['}']) ∧ (∀ item ∈ items, SimpleElement item) ∧
    (FixArrayLiteral.isText arr ∨ isNumber arr ∧ ∀ item ∈ items, Numeral item)

/-- The name that a form calls, and whether it does so without a list of arguments; or the collation
that it asks for. -/
inductive Mention
  | callee (name : ObjectName) (bare : Bool)
  | collation (name : ObjectName)

def isBare {ν : Kind → Type} : FunctionArguments ν → Bool
  | .none => true
  | _ => false

def mention? {ν : Kind → Type} : {k : Kind} → Form ν k → Option Mention
  | _, .function f => some (.callee f.name (isBare f.args))
  | _, .table name _ (some _) _ => some (.callee name false)
  | _, .collate _ collation => some (.collation collation)
  | _, _ => none

/-- No qualifier, or that of the catalog. -/
def InCatalog (name : ObjectName) : Prop :=
  name.length ≤ 1 ∨ ∃ schema ident : Ident, name = [schema, ident] ∧ schema.value = "pg_catalog"

def Unqualified (name : ObjectName) : Prop := name.length ≤ 1

/-- `C`, which compares texts byte by byte. -/
def BytewiseCollation (collation : ObjectName) : Prop :=
  InCatalog collation ∧ collation.getLast?.map Ident.value = some "C"

/-- A name that is renamed, of a register of the session. -/
def isRegister (name : ObjectName) : Bool :=
  (CurrentUserVariableToSessionUserFunctionCall.lastIdentLower name).any fun lower =>
    (List.lookup lower
      CurrentUserVariableToSessionUserFunctionCall.builtinFunctionRename).isSome

/-- The names that are called meet the condition, the registers of the session have no arguments,
and the collations compare byte by byte. -/
def Mention.Plain (called : ObjectName → Prop) : Mention → Prop
  | .callee name bare => called name ∧ (isRegister name → bare)
  | .collation name => BytewiseCollation name

def MentionsPlain (called : ObjectName → Prop) (n : Σ k, Node k) : Prop :=
  ∀ mention ∈ mention? (Trees.form n.2), mention.Plain called

end Conditions

section Kept

theorem castText_eq_some {n : Σ k, Node k} {text : String} {arr : ArrayElemTypeDef}
    (h : castText? n = some (text, arr)) :
    ∃ rest, n = ⟨.expr, .mk (.cast .doubleColon (.mk (.value (.singleQuotedString text)))
      (.array arr) rest)⟩ := by
  unfold castText? at h
  split at h
  · cases h
    exact ⟨_, rfl⟩
  · cases h

private theorem noCatalogNames_expr (e : Expr) : NoCatalogNames ⟨.expr, e⟩ := by
  obtain ⟨form⟩ := e
  cases form <;> exact fun table h => absurd h List.not_mem_nil

private theorem noCatalogNames_tableFactor (t : TableFactor) :
    NoCatalogNames ⟨.tableFactor, t⟩ := by
  obtain ⟨form⟩ := t
  cases form <;> exact fun table h => absurd h List.not_mem_nil

private theorem commonTables_map {ν μ : Kind → Type} (f : ∀ k, ν k → μ k) {k : Kind}
    (form : Form ν k) : commonTables (form.map f) = commonTables form := by
  cases form with
  | query fields =>
    obtain ⟨withClause, body, orderBy, limitClause, fetch, rest⟩ := fields
    cases withClause with
    | none => rfl
    | some clause => exact List.map_map
  | _ => rfl

/-- An expression that a rule makes: no text cast to an array, and no call but of
`array_contains`. -/
structure Made (n : Σ k, Node k) : Prop where
  expr : n.1 = .expr
  noCast : castText? n = none
  calls : ∀ mention ∈ mention? (Trees.form n.2),
    mention = .callee [Ident.new "array_contains"] false

/-- A visitor for table factors and expressions that goes on to parts of what it met, and to
expressions that it made. -/
structure PartsKept (v : Visitor Node) : Prop where
  pre : ∃ tableFactor expr, v.pre = hooks id tableFactor expr
  parts : ∀ k (n : Node k), ∀ c ∈ children (v.pre k n), ∀ x ∈ nodes c.2, x ∈ nodes n ∨ Made x

theorem PartsKept.of_children {tableFactor : TableFactor → TableFactor} {expr : Expr → Expr}
    {v : Visitor Node} (hpre : v.pre = hooks id tableFactor expr)
    (hchildren : ∀ {k} (n : Node k), children (v.pre k n) = children n) : PartsKept v where
  pre := ⟨tableFactor, expr, hpre⟩
  parts _ n _ hc _ hx := .inl (mem_nodes_of_mem_children (hchildren n ▸ hc) hx)

private theorem mention_map {ν μ : Kind → Type} (f : ∀ k, ν k → μ k) {k : Kind}
    (form : Form ν k) : mention? (form.map f) = mention? form := by
  cases form with
  | function call =>
    obtain ⟨name, args, rest⟩ := call
    cases args <;> rfl
  | table name aliasName args rest => cases args <;> rfl
  | _ => rfl

private theorem plain_arrayContains {called : ObjectName → Prop}
    (h : called [Ident.new "array_contains"]) :
    (Mention.callee [Ident.new "array_contains"] false).Plain called :=
  ⟨h, fun hregister => absurd hregister (by decide)⟩

section Names
variable {v : Visitor Node} (hv : PartsKept v)
include hv

theorem PartsKept.noCatalogNames_pre {k : Kind} {n : Node k} (h : NoCatalogNames ⟨k, n⟩) :
    NoCatalogNames ⟨k, v.pre k n⟩ := by
  obtain ⟨tableFactor, expr, hpre⟩ := hv.pre
  rw [hpre]
  cases k with
  | expr => exact noCatalogNames_expr _
  | tableFactor => exact noCatalogNames_tableFactor _
  | _ => exact h

theorem PartsKept.noCatalogNames_parts {k : Kind} {n : Node k}
    (h : ∀ x ∈ nodes n, NoCatalogNames x) :
    ∀ c ∈ children (v.pre k n), ∀ x ∈ nodes c.2, NoCatalogNames x := by
  intro c hc x hx
  rcases hv.parts k n c hc x hx with hx | ⟨hexpr, -, -⟩
  · exact h x hx
  · obtain ⟨k', e⟩ := x
    cases hexpr
    exact noCatalogNames_expr e

/-- No common table gets the name of a relation of the catalog. -/
theorem PartsKept.noCatalogNames_visit {k : Kind} {n : Node k}
    (h : ∀ x ∈ nodes n, NoCatalogNames x) : ∀ x ∈ nodes (v.visit k n), NoCatalogNames x := by
  refine v.forall_nodes_visit (P := NoCatalogNames) (Q := NoCatalogNames) ?_
    (fun k n h => hv.noCatalogNames_parts h) h
  intro k n h
  rw [v.visit_eq]
  intro table htable
  change table ∈ commonTables (Form.map v.visit (Trees.form (v.pre k n))) at htable
  rw [commonTables_map] at htable
  exact hv.noCatalogNames_pre (h _ (mem_nodes_self n)) table htable

theorem PartsKept.castReadable_parts {k : Kind} {n : Node k}
    (h : ∀ x ∈ nodes n, CastReadable x) :
    ∀ c ∈ children (v.pre k n), ∀ x ∈ nodes c.2, CastReadable x := by
  intro c hc x hx
  rcases hv.parts k n c hc x hx with hx | ⟨-, hcast, -⟩
  · exact h x hx
  · intro text arr hsome
    cases hcast.symm.trans hsome

theorem PartsKept.mentions_parts {called : ObjectName → Prop}
    (hcalled : called [Ident.new "array_contains"]) {k : Kind} {n : Node k}
    (h : ∀ x ∈ nodes n, MentionsPlain called x) :
    ∀ c ∈ children (v.pre k n), ∀ x ∈ nodes c.2, MentionsPlain called x := by
  intro c hc x hx
  rcases hv.parts k n c hc x hx with hx | hmade
  · exact h x hx
  · intro mention hmention
    rw [hmade.calls mention hmention]
    exact plain_arrayContains hcalled

/-- What a visitor mentions at the nodes that it comes to, it mentions in its result. -/
theorem PartsKept.mentions_visit {called called' : ObjectName → Prop}
    (hcalled : called [Ident.new "array_contains"])
    (hpre : ∀ k n, MentionsPlain called ⟨k, n⟩ → MentionsPlain called' ⟨k, v.pre k n⟩)
    {k : Kind} {n : Node k} (h : ∀ x ∈ nodes n, MentionsPlain called x) :
    ∀ x ∈ nodes (v.visit k n), MentionsPlain called' x := by
  refine v.forall_nodes_visit (P := MentionsPlain called) (Q := MentionsPlain called') ?_
    (fun k n h => hv.mentions_parts hcalled h) h
  intro k n h mention hmention
  rw [v.visit_eq] at hmention
  change mention ∈ mention? (Form.map v.visit (Trees.form (v.pre k n))) at hmention
  rw [mention_map] at hmention
  exact hpre k n (h _ (mem_nodes_self n)) mention hmention

end Names

/-- A literal or a cast. -/
def isLiteralOrCast : Expr → Bool
  | .mk (.value _) => true
  | .mk (.cast _ _ _ _) => true
  | _ => false

section Casts
variable {v : Visitor Node} (hkeep : ∀ e, isLiteralOrCast (v.pre .expr e) → v.pre .expr e = e)
include hkeep

private theorem value_of_visit {e : Expr} {w : Value} (h : v.visit .expr e = .mk (.value w)) :
    e = .mk (.value w) := by
  rw [v.visit_eq] at h
  generalize hpre : v.pre .expr e = e' at h
  obtain ⟨form⟩ := e'
  cases form with
  | value w' =>
    rw [← hkeep e (by rw [hpre]; rfl), hpre]
    exact h
  | _ => cases h

/-- A visitor that makes no literals and no casts leaves each text that is cast to an array. -/
theorem castText_visit {n : Σ k, Node k} {text : String} {arr : ArrayElemTypeDef}
    (h : castText? ⟨n.1, v.visit n.1 n.2⟩ = some (text, arr)) : castText? n = some (text, arr) := by
  obtain ⟨k, n⟩ := n
  obtain ⟨rest, heq⟩ := castText_eq_some h
  obtain rfl : k = .expr := congrArg Sigma.fst heq
  have hvisit := eq_of_heq (Sigma.mk.inj heq).2
  dsimp only at hvisit
  rw [v.visit_eq] at hvisit
  generalize hpre : v.pre .expr n = e' at hvisit
  obtain ⟨form⟩ := e'
  cases form with
  | cast kind operand dataType rest' =>
    obtain ⟨rfl, hoperand, rfl, -⟩ := Form.cast.inj (Node.mk.inj hvisit)
    have hself := hkeep n (by rw [hpre]; rfl)
    rw [← hself, hpre, value_of_visit hkeep hoperand]
    rfl
  | _ => cases hvisit

theorem castReadable_visit (hv : PartsKept v) {k : Kind} {n : Node k}
    (h : ∀ x ∈ nodes n, CastReadable x) : ∀ x ∈ nodes (v.visit k n), CastReadable x := by
  refine v.forall_nodes_visit (P := CastReadable) (Q := CastReadable) ?_
    (fun k n h => hv.castReadable_parts h) h
  intro k n h text arr hcast
  exact h _ (mem_nodes_self n) text arr (castText_visit hkeep (n := ⟨k, n⟩) hcast)

end Casts

end Kept

section Visitors
variable {x : Σ k, Node k}

private theorem made_literals {elem : List Expr} (helem : ∀ e ∈ elem, ∃ v, e = .mk (.value v))
    {named : Bool} (hx : x ∈ nodes (Node.mk (.array elem named))) : Made x := by
  rcases mem_nodes_iff.mp hx with rfl | ⟨c, hc, hx⟩
  · exact ⟨rfl, rfl, fun mention hmention => by cases hmention⟩
  rw [children_array] at hc
  obtain ⟨e, he, rfl⟩ := List.mem_map.mp hc
  obtain ⟨v, rfl⟩ := helem e he
  rcases mem_nodes_iff.mp hx with rfl | ⟨d, hd, -⟩
  · exact ⟨rfl, rfl, fun mention hmention => by cases hmention⟩
  · exact absurd hd List.not_mem_nil

private theorem mem_anyToArrayContains {left right : Expr}
    (hx : x ∈ nodes (RewriteArrayAnyAllOperation.anyToArrayContains left right)) :
    x ∈ nodes left ∨ x ∈ nodes right ∨ Made x := by
  rcases mem_nodes_iff.mp hx with rfl | ⟨c, hc, hx⟩
  · refine .inr (.inr ⟨rfl, rfl, fun mention hmention => ?_⟩)
    cases hmention
    rfl
  rw [RewriteArrayAnyAllOperation.anyToArrayContains, children_functionCall] at hc
  simp only [List.map_cons, List.map_nil, List.mem_cons, List.not_mem_nil, or_false] at hc
  rcases hc with rfl | rfl
  · rcases RewriteArrayAnyAllOperation.arrayOperand_cases right with ⟨text, rfl, harray⟩ | hkeep
    · rw [harray] at hx
      refine .inr (.inr (made_literals (fun e he => ?_) hx))
      obtain ⟨item, -, rfl⟩ := List.mem_map.mp he
      exact ⟨_, rfl⟩
    · rw [hkeep] at hx
      exact .inr (.inl hx)
  · exact .inl hx

theorem RewriteArrayAnyAllOperation.partsKept : PartsKept visitor where
  pre := ⟨_, _, rfl⟩
  parts := by
    refine hooks_expr (P := fun k n n' => ∀ c ∈ children n', ∀ x ∈ nodes c.2, x ∈ nodes n ∨ Made x)
      (fun k n c hc x hx => .inl (mem_nodes_of_mem_children hc hx)) ?_
    intro e c hc x hx
    rcases preVisitExpr_cases e with ⟨left, right, isSome, rfl, he⟩ | ⟨left, right, rfl, he⟩ | he
    · rw [he] at hc
      rcases mem_anyToArrayContains (mem_nodes_of_mem_children hc hx) with hx | hx | hmade
      · exact .inl (mem_nodes_of_mem_children List.mem_cons_self hx)
      · exact .inl (mem_nodes_of_mem_children (List.mem_cons_of_mem _ List.mem_cons_self) hx)
      · exact .inr hmade
    · rw [he] at hc
      rw [List.mem_singleton.mp hc] at hx
      rcases mem_anyToArrayContains hx with hx | hx | hmade
      · exact .inl (mem_nodes_of_mem_children List.mem_cons_self hx)
      · exact .inl (mem_nodes_of_mem_children (List.mem_cons_of_mem _ List.mem_cons_self) hx)
      · exact .inr hmade
    · rw [he] at hc
      exact .inl (mem_nodes_of_mem_children hc hx)

theorem PrependUnqualifiedPgTableName.partsKept : PartsKept visitor :=
  .of_children rfl children_pre

theorem StripCallableQualifier.partsKept : PartsKept visitor := .of_children rfl children_pre

theorem FixArrayLiteral.partsKept : PartsKept visitor where
  pre := ⟨_, _, rfl⟩
  parts := by
    refine hooks_expr (P := fun k n n' => ∀ c ∈ children n', ∀ x ∈ nodes c.2, x ∈ nodes n ∨ Made x)
      (fun k n c hc x hx => .inl (mem_nodes_of_mem_children hc hx)) ?_
    intro e c hc x hx
    rcases preVisitExpr_cases e with ⟨text, arr, rest, rfl, he⟩ | he
    · rw [he] at hc
      rcases List.mem_cons.mp hc with rfl | hrest
      · refine .inr (made_literals (fun e he => ?_) hx)
        obtain ⟨item, -, rfl⟩ := List.mem_map.mp he
        exact ⟨_, rfl⟩
      · exact .inl (mem_nodes_of_mem_children (List.mem_cons_of_mem _ hrest) hx)
    · rw [he] at hc
      exact .inl (mem_nodes_of_mem_children hc hx)

theorem CurrentUserVariableToSessionUserFunctionCall.partsKept : PartsKept visitor :=
  .of_children rfl children_pre

theorem StripCollate.partsKept : PartsKept visitor where
  pre := ⟨_, _, rfl⟩
  parts := by
    refine hooks_expr (P := fun k n n' => ∀ c ∈ children n', ∀ x ∈ nodes c.2, x ∈ nodes n ∨ Made x)
      (fun k n c hc x hx => .inl (mem_nodes_of_mem_children hc hx)) ?_
    intro e c hc x hx
    rcases preVisitExpr_cases e with ⟨inner, collation, rfl, he⟩ | he
    · rw [he] at hc
      exact .inl (mem_nodes_of_mem_children List.mem_cons_self (mem_nodes_of_mem_children hc hx))
    · rw [he] at hc
      exact .inl (mem_nodes_of_mem_children hc hx)

theorem RewritePgCatalogOperator.partsKept : PartsKept visitor := .of_children rfl children_pre

theorem RewriteArrayAnyAllOperation.keepsCasts (e : Expr) :
    isLiteralOrCast (visitor.pre .expr e) → visitor.pre .expr e = e := by
  intro h
  change isLiteralOrCast (preVisitExpr e) at h
  change preVisitExpr e = e
  rcases preVisitExpr_cases e with ⟨left, right, isSome, rfl, he⟩ | ⟨left, right, rfl, he⟩ | he
  · rw [he] at h
    cases h
  · rw [he] at h
    cases h
  · exact he

theorem PrependUnqualifiedPgTableName.keepsCasts (e : Expr) :
    isLiteralOrCast (visitor.pre .expr e) → visitor.pre .expr e = e := fun _ => rfl

theorem StripCallableQualifier.keepsCasts (e : Expr) :
    isLiteralOrCast (visitor.pre .expr e) → visitor.pre .expr e = e := by
  intro h
  change isLiteralOrCast (preVisitExpr e) at h
  change preVisitExpr e = e
  unfold preVisitExpr at h ⊢
  split at h
  · cases h
  · rfl

section Mentions
variable {called : ObjectName → Prop} {k : Kind} {n : Node k}

private theorem mentionsPlain_none (h : mention? (Trees.form n) = none) :
    MentionsPlain called ⟨k, n⟩ := by
  intro mention hmention
  rw [h] at hmention
  cases hmention

theorem RewriteArrayAnyAllOperation.mentions_pre (hcalled : called [Ident.new "array_contains"])
    (h : MentionsPlain called ⟨k, n⟩) : MentionsPlain called ⟨k, visitor.pre k n⟩ := by
  refine hooks_expr (P := fun k n n' => MentionsPlain called ⟨k, n⟩ → MentionsPlain called ⟨k, n'⟩)
    (fun k n h => h) (fun e h => ?_) k n h
  rcases preVisitExpr_cases e with ⟨left, right, isSome, rfl, he⟩ | ⟨left, right, rfl, he⟩ | he
  · rw [he]
    intro mention hmention
    cases hmention
    exact plain_arrayContains hcalled
  · rw [he]
    exact mentionsPlain_none rfl
  · rwa [he]

theorem PrependUnqualifiedPgTableName.mentions_pre (h : MentionsPlain called ⟨k, n⟩) :
    MentionsPlain called ⟨k, visitor.pre k n⟩ := by
  cases k with
  | tableFactor =>
    change MentionsPlain called ⟨.tableFactor, preVisitTableFactor n⟩
    rcases preVisitTableFactor_cases n with ⟨ident, aliasName, rest, rfl, -, ht⟩ | ht
    · rw [ht]
      exact mentionsPlain_none rfl
    · rwa [ht]
  | _ => exact h

theorem isRegister_lastIdent (name : ObjectName) : isRegister (lastIdent name) = isRegister name := by
  simp only [isRegister, CurrentUserVariableToSessionUserFunctionCall.lastIdentLower,
    getLast_lastIdent]

/-- The qualifiers are gone, the last parts stay. -/
theorem StripCallableQualifier.mentions_pre (h : MentionsPlain called ⟨k, n⟩) :
    MentionsPlain Unqualified ⟨k, visitor.pre k n⟩ := by
  have hstripped : ∀ {name bare}, (Mention.callee name bare).Plain called →
      (Mention.callee (lastIdent name) bare).Plain Unqualified := by
    rintro name bare ⟨-, hbare⟩
    rw [← isRegister_lastIdent] at hbare
    exact ⟨length_lastIdent name, hbare⟩
  obtain ⟨form⟩ := n
  cases form with
  | function call =>
    intro mention hmention
    cases hmention
    exact hstripped (h _ rfl)
  | table name aliasName args rest =>
    cases args with
    | none => exact mentionsPlain_none rfl
    | some args =>
      intro mention hmention
      cases hmention
      exact hstripped (h _ rfl)
  | collate e collation =>
    intro mention hmention
    cases hmention
    exact h (.collation collation) rfl
  | _ => exact mentionsPlain_none rfl

theorem FixArrayLiteral.mentions_pre (h : MentionsPlain called ⟨k, n⟩) :
    MentionsPlain called ⟨k, visitor.pre k n⟩ := by
  refine hooks_expr (P := fun k n n' => MentionsPlain called ⟨k, n⟩ → MentionsPlain called ⟨k, n'⟩)
    (fun k n h => h) (fun e h => ?_) k n h
  rcases preVisitExpr_cases e with ⟨text, arr, rest, rfl, he⟩ | he
  · rw [he]
    exact mentionsPlain_none rfl
  · rwa [he]

theorem CurrentUserVariableToSessionUserFunctionCall.mentions_wrapIdentifier {e : Expr}
    (h : MentionsPlain Unqualified ⟨.expr, e⟩) :
    MentionsPlain Unqualified ⟨.expr, wrapIdentifier e⟩ := by
  rcases wrapIdentifier_cases e with ⟨ident, target, rfl, -, hlookup, he⟩ | he
  · obtain rfl : target = "current_schema" := by
      rw [bareIdentifierToFunction, List.lookup_cons] at hlookup
      split at hlookup
      · exact (Option.some.inj hlookup).symm
      · cases hlookup
    rw [he]
    intro mention hmention
    cases hmention
    exact ⟨le_rfl, fun hregister => absurd hregister (by decide)⟩
  · rwa [he]

private theorem isRegister_target {lower target : String}
    (h : List.lookup lower
      CurrentUserVariableToSessionUserFunctionCall.builtinFunctionRename = some target) :
    isRegister [Ident.new target] = false := by
  rw [CurrentUserVariableToSessionUserFunctionCall.builtinFunctionRename, List.lookup_cons] at h
  split at h
  · cases h
    decide
  · rw [List.lookup_cons] at h
    split at h
    · cases h
      decide
    · cases h

theorem CurrentUserVariableToSessionUserFunctionCall.mentions_pre
    (h : MentionsPlain Unqualified ⟨k, n⟩) : MentionsPlain Unqualified ⟨k, visitor.pre k n⟩ := by
  refine hooks_expr (P := fun k n n' =>
    MentionsPlain Unqualified ⟨k, n⟩ → MentionsPlain Unqualified ⟨k, n'⟩) (fun k n h => h)
    (fun e h => ?_) k n h
  have hwrapped := mentions_wrapIdentifier h
  rcases renameFunction_cases (wrapIdentifier e) with ⟨call, target, hcall, hrenamed, he⟩ | he
  · obtain ⟨lower, -, htarget⟩ := Option.bind_eq_some_iff.mp hrenamed
    change MentionsPlain Unqualified ⟨.expr, renameFunction (wrapIdentifier e)⟩
    rw [he]
    intro mention hmention
    cases hmention
    exact ⟨le_rfl, fun hregister =>
      absurd (hregister.symm.trans (isRegister_target htarget)) (by decide)⟩
  · change MentionsPlain Unqualified ⟨.expr, renameFunction (wrapIdentifier e)⟩
    rwa [he]

end Mentions

end Visitors

end DatafusionPostgres.Sql
