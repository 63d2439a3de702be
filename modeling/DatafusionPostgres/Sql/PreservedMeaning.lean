import DatafusionPostgres.Sql.KeptConditions

/-! The rules from the lowering of quantified comparisons to the operators of the catalog: in a
database that knows the catalog by the search path, no meaning changes. -/
namespace DatafusionPostgres.Sql
open DatafusionPostgres.Library

namespace PostgresCompatibilityParser

/-- The rules from the third to the ninth, which look at one node at a time. -/
def localRules : List (Statement → Statement) := (rewriteRules.drop 2).take 7

end PostgresCompatibilityParser

section Models
variable {Env V : Type} {D : Kind → Type}

/-- Meanings at the valuations, which say what is in scope. -/
abbrev ScopedMeaning (Env V : Type) (D : Kind → Type) : Kind → Type :=
  Meaning Env V (fun k => Env → D k)

/-- Meanings that are the same where nothing in scope hides the catalog. -/
def Agree (clear : Env → Prop) : ∀ k, ScopedMeaning Env V D k → ScopedMeaning Env V D k → Prop
  | .expr, a, b => ∀ env, clear env →
    Operand.value a env = Operand.value b env ∧ Operand.elements a env = Operand.elements b env
  | .query, a, b => ∀ env, clear env → a env = b env
  | .setExpr, a, b => ∀ env, clear env → a env = b env
  | .tableFactor, a, b => ∀ env, clear env → a env = b env
  | .statement, a, b => ∀ env, clear env → a env = b env

theorem Agree.refl (clear : Env → Prop) (k : Kind) (a : ScopedMeaning Env V D k) :
    Agree clear k a a := by
  cases k with
  | expr => exact fun _ _ => ⟨rfl, rfl⟩
  | _ => exact fun _ _ => rfl

theorem Agree.trans {clear : Env → Prop} (k : Kind) (a b c : ScopedMeaning Env V D k)
    (hab : Agree clear k a b) (hbc : Agree clear k b c) : Agree clear k a c := by
  cases k with
  | expr =>
    intro env henv
    exact ⟨(hab env henv).1.trans (hbc env henv).1, (hab env henv).2.trans (hbc env henv).2⟩
  | _ => exact fun env henv => (hab env henv).trans (hbc env henv)

/-- No common table in scope has the name of a relation of the catalog. -/
def ClearScope (scope : Env → List Ident) (env : Env) : Prop :=
  ∀ table ∈ scope env, PrependUnqualifiedPgTableName.isPgCatalogTable table.value = false

/-- A database with the catalog in front of its search path and with the collation `C`, in a session
whose user is the current one. A form brings no common tables into the scope of its parts but those
that it names. -/
structure PgModel (Env V : Type) (D : Kind → Type) extends Model Env V (fun k => Env → D k) where
  scope : Env → List Ident
  other_agree {k : Kind} (form : Form Node k) {a b : ∀ k, Node k → ScopedMeaning Env V D k} :
    (∀ table ∈ commonTables form,
      PrependUnqualifiedPgTableName.isPgCatalogTable table.value = false) →
    (∀ c ∈ form.parts, Agree (ClearScope scope) c.1 (a c.1 c.2) (b c.1 c.2)) →
    Agree (ClearScope scope) k (other k (form.map a)) (other k (form.map b))
  call_agree (f : Function Node) {a b : ∀ k, Node k → ScopedMeaning Env V D k} :
    (∀ c ∈ Container.parts f, Agree (ClearScope scope) c.1 (a c.1 c.2) (b c.1 c.2)) →
    ∀ env, ClearScope scope env → call (Container.map a f) env = call (Container.map b f) env
  /-- A relation of the catalog is found unless a common table in scope has its name. -/
  table_catalog (ident : Ident) (aliasName : Option TableAlias)
      (rest : Rest (ScopedMeaning Env V D)) (env : Env) :
    PrependUnqualifiedPgTableName.isPgCatalogTable ident.value →
    (∀ table ∈ scope env, toLowercase table.value ≠ toLowercase ident.value) →
    (other .tableFactor (.table [Ident.new "pg_catalog", ident] aliasName none rest) :
      Env → D .tableFactor) env =
    (other .tableFactor (.table [ident] aliasName none rest) : Env → D .tableFactor) env
  table_callable {name : ObjectName} (aliasName : Option TableAlias)
      (args rest : Rest (ScopedMeaning Env V D)) : InCatalog name →
    other .tableFactor (.table (lastIdent name) aliasName (some args) rest) =
      other .tableFactor (.table name aliasName (some args) rest)
  call_callable {name : ObjectName} (args : FunctionArguments (ScopedMeaning Env V D))
      (rest : Rest (ScopedMeaning Env V D)) : InCatalog name →
    call ⟨lastIdent name, args, rest⟩ = call ⟨name, args, rest⟩
  /-- The user and the database go by two names each. -/
  call_synonym (ident : Ident) {old target : String} (rest : Rest (ScopedMeaning Env V D)) :
    (old, target) ∈ CurrentUserVariableToSessionUserFunctionCall.builtinFunctionRename →
    toLowercase ident.value = old →
    call ⟨[Ident.new target], .none, rest⟩ = call ⟨[ident], .none, rest⟩
  /-- Parentheses with nothing between them may be left out. -/
  call_parentheses {old target : String} (rest : Rest (ScopedMeaning Env V D)) :
    (old, target) ∈ CurrentUserVariableToSessionUserFunctionCall.builtinFunctionRename →
    call ⟨[Ident.new target], .list [] .none, rest⟩ = call ⟨[Ident.new target], .none, rest⟩
  currentSchema (ident : Ident) : ident.quoteStyle = none →
    toLowercase ident.value = "current_schema" →
    toModel.operand (call ⟨[Ident.new "current_schema"], .list [] .none, .none⟩) =
      other .expr (.identifier ident)
  collate (e : Operand Env V) {collation : ObjectName} : BytewiseCollation collation →
    other .expr (.collate e collation) = e
  operator (left right : Operand Env V) (names : List String) {symbol : String}
      {op : BinaryOperator} :
    names.head? = some "pg_catalog" → names.getLast? = some symbol →
    RewritePgCatalogOperator.builtinOperator symbol = some op →
    other .expr (.binaryOp left op right) =
      other .expr (.binaryOp left (.pgCustomBinaryOperator names) right)
  number : String → V
  other_number (digits : String) (long : Bool) :
    other .expr (.value (.number digits long)) = toModel.operand fun _ => number digits
  /-- A value as an element of an array of the type. -/
  element : ArrayElemTypeDef → V → V
  element_number {arr : ArrayElemTypeDef} {item : List Char} :
    isNumber arr → Numeral item →
    element arr (number (String.ofList item)) = element arr (text (String.ofList item))
  cast_array (values : Env → List V) (arr : ArrayElemTypeDef)
      (rest : Rest (ScopedMeaning Env V D)) :
    other .expr
        (.cast .doubleColon (toModel.operand fun env => array (values env)) (.array arr) rest) =
      toModel.operand fun env => array ((values env).map (element arr))
  cast_text {s : String} {items : List (List Char)} (arr : ArrayElemTypeDef)
      (rest : Rest (ScopedMeaning Env V D)) : ArrayText s.toList items →
    other .expr (.cast .doubleColon (⟨fun _ => text s, fun _ => arrayLiteral s⟩ : Operand Env V)
        (.array arr) rest) =
      toModel.operand fun _ => array (items.map fun item => element arr (text (String.ofList item)))

namespace PgModel
variable (m : PgModel Env V D)

/-- Meanings that are the same wherever nothing hides the catalog. -/
def Same (k : Kind) : ScopedMeaning Env V D k → ScopedMeaning Env V D k → Prop :=
  Agree (ClearScope m.scope) k

theorem same_of_eq {k : Kind} {a b : ScopedMeaning Env V D k} (h : a = b) : m.Same k a b :=
  h ▸ Agree.refl _ k a

private theorem same_trans {k : Kind} {a b c : ScopedMeaning Env V D k} (hab : m.Same k a b)
    (hbc : m.Same k b c) : m.Same k a c := Agree.trans k a b c hab hbc

private theorem same_operand {f g : Env → V}
    (h : ∀ env, ClearScope m.scope env → f env = g env) :
    m.Same .expr (m.operand f) (m.operand g) :=
  fun env henv => ⟨h env henv, congrArg m.elements (h env henv)⟩

private theorem same_algebra {k : Kind} (form : Form Node k)
    {a b : ∀ k, Node k → ScopedMeaning Env V D k}
    (hnames : ∀ table ∈ commonTables form,
      PrependUnqualifiedPgTableName.isPgCatalogTable table.value = false)
    (h : ∀ c ∈ form.parts, m.Same c.1 (a c.1 c.2) (b c.1 c.2)) :
    m.Same k (m.algebra k (form.map a)) (m.algebra k (form.map b)) := by
  cases form with
  | value v =>
    cases v with
    | singleQuotedString s => exact m.same_of_eq rfl
    | _ => exact m.other_agree _ hnames h
  | anyOp left op right isSome =>
    refine m.same_operand fun env henv => ?_
    have hleft := (h ⟨.expr, left⟩ List.mem_cons_self env henv).1
    have hright := (h ⟨.expr, right⟩ (List.mem_cons_of_mem _ List.mem_cons_self) env henv).2
    rw [hleft, hright]
  | allOp left op right =>
    refine m.same_operand fun env henv => ?_
    have hleft := (h ⟨.expr, left⟩ List.mem_cons_self env henv).1
    have hright := (h ⟨.expr, right⟩ (List.mem_cons_of_mem _ List.mem_cons_self) env henv).2
    rw [hleft, hright]
  | unaryOp op e =>
    cases op with
    | not =>
      refine m.same_operand fun env henv => ?_
      rw [(h ⟨.expr, e⟩ List.mem_cons_self env henv).1]
    | other display => exact m.other_agree _ hnames h
  | array elem named =>
    refine m.same_operand fun env henv => congrArg m.array ?_
    have hvalues : ∀ a : ∀ k, Node k → ScopedMeaning Env V D k,
        List.map (Operand.value · env) (elem.map (a .expr)) =
          elem.map fun e => Operand.value (a .expr e) env :=
      fun a => List.map_map (f := a .expr) (g := (Operand.value · env))
    refine (hvalues a).trans (Eq.trans ?_ (hvalues b).symm)
    refine List.map_congr_left fun e he => (h ⟨.expr, e⟩ ?_ env henv).1
    change _ ∈ children (Node.mk (.array elem named))
    rw [children_array]
    exact List.mem_map_of_mem he
  | function f => exact m.same_operand (m.call_agree f h)
  | _ => exact m.other_agree _ hnames h

section Rules
variable [Inhabited V] [∀ k, Inhabited (D k)]

private theorem same_visit {v : Visitor Node} (hv : PartsKept v) {Q : ∀ k, Node k → Prop}
    (hpre : ∀ k n, Q k n → m.Same k (m.meaning k (v.pre k n)) (m.meaning k n))
    (hparts : ∀ k n, Q k n → ∀ c ∈ children (v.pre k n), Q c.1 c.2) {k : Kind} {n : Node k}
    (hnames : ∀ x ∈ nodes n, NoCatalogNames x) (hn : Q k n) :
    m.Same k (m.meaning k (v.visit k n)) (m.meaning k n) := by
  refine v.interpret_visit_agree m.algebra (R := m.Same)
    (P := fun k n => (∀ x ∈ nodes n, NoCatalogNames x) ∧ Q k n)
    Agree.trans (fun k n h => hpre k n h.2) ?_ ?_ ⟨hnames, hn⟩
  · exact fun k n h c hc => ⟨hv.noCatalogNames_parts h.1 c hc, hparts k n h.2 c hc⟩
  · intro k n h f g hfg
    exact m.same_algebra _ (hv.noCatalogNames_pre (h.1 _ (mem_nodes_self n))) hfg

private theorem same_visit_of_forall {v : Visitor Node} (hv : PartsKept v)
    (hpre : ∀ k n, m.Same k (m.meaning k (v.pre k n)) (m.meaning k n)) {k : Kind} {n : Node k}
    (hnames : ∀ x ∈ nodes n, NoCatalogNames x) :
    m.Same k (m.meaning k (v.visit k n)) (m.meaning k n) :=
  m.same_visit hv (Q := fun _ _ => True) (fun k n _ => hpre k n) (fun _ _ _ _ _ => trivial) hnames
    trivial

private theorem same_anyAll {s : Statement} (hnames : ∀ x ∈ nodes s, NoCatalogNames x)
    (harrays : m.ArrayOperands s) :
    m.Same .statement (m.meaning .statement (RewriteArrayAnyAllOperation.rewrite s))
      (m.meaning .statement s) := by
  refine m.same_visit RewriteArrayAnyAllOperation.partsKept
    (Q := fun _ n => m.ArrayOperands n) ?_ ?_ hnames harrays
  · intro k n h
    cases k with
    | expr => exact m.same_of_eq (m.meaning_preVisitExpr h)
    | _ => exact m.same_of_eq rfl
  · intro k n h c hc left right
    refine ⟨fun isSome hx => (h left right).1 isSome ?_, fun hx => (h left right).2 ?_⟩
    · exact RewriteArrayAnyAllOperation.quantified_pre n c hc _ hx rfl
    · exact RewriteArrayAnyAllOperation.quantified_pre n c hc _ hx rfl

private theorem isPgCatalogTable_congr {a b : String} (h : toLowercase a = toLowercase b) :
    PrependUnqualifiedPgTableName.isPgCatalogTable a =
      PrependUnqualifiedPgTableName.isPgCatalogTable b := by
  have hlower := congrArg String.toList h
  rw [toLowercase, toLowercase, String.toList_ofList, String.toList_ofList] at hlower
  simp only [PrependUnqualifiedPgTableName.isPgCatalogTable,
    PrependUnqualifiedPgTableName.eqIgnoreAsciiCase, hlower]

private theorem same_pgTable {s : Statement} (hnames : ∀ x ∈ nodes s, NoCatalogNames x) :
    m.Same .statement (m.meaning .statement (PrependUnqualifiedPgTableName.rewrite s))
      (m.meaning .statement s) := by
  refine m.same_visit_of_forall PrependUnqualifiedPgTableName.partsKept (fun k n => ?_) hnames
  cases k with
  | tableFactor =>
    change m.Same .tableFactor
      (m.meaning .tableFactor (PrependUnqualifiedPgTableName.preVisitTableFactor n)) _
    rcases PrependUnqualifiedPgTableName.preVisitTableFactor_cases n with
      ⟨ident, aliasName, rest, rfl, hcatalog, ht⟩ | ht
    · rw [ht, m.meaning_eq, m.meaning_eq]
      intro env henv
      refine m.table_catalog ident aliasName _ env hcatalog fun table htable hsame => ?_
      rw [← isPgCatalogTable_congr hsame, henv table htable] at hcatalog
      cases hcatalog
    · exact m.same_of_eq (congrArg _ ht)
  | _ => exact m.same_of_eq rfl

private theorem same_callable {s : Statement} (hnames : ∀ x ∈ nodes s, NoCatalogNames x)
    (hmentions : ∀ x ∈ nodes s, MentionsPlain InCatalog x) :
    m.Same .statement (m.meaning .statement (StripCallableQualifier.rewrite s))
      (m.meaning .statement s) := by
  refine m.same_visit StripCallableQualifier.partsKept
    (Q := fun _ n => ∀ x ∈ nodes n, MentionsPlain InCatalog x) (fun k n h => ?_)
    (fun k n h => StripCallableQualifier.partsKept.mentions_parts (.inl le_rfl) h) hnames hmentions
  have hself := h _ (mem_nodes_self n)
  obtain ⟨form⟩ := n
  cases form with
  | function call =>
    change m.Same .expr (m.meaning .expr (.mk (.function { call with name := lastIdent call.name }))) _
    rw [m.meaning_eq, m.meaning_eq]
    exact m.same_of_eq (congrArg m.operand (m.call_callable _ _ (hself _ rfl).1))
  | table name aliasName args rest =>
    cases args with
    | none => exact m.same_of_eq rfl
    | some args =>
      change m.Same .tableFactor
        (m.meaning .tableFactor (.mk (.table (lastIdent name) aliasName (some args) rest))) _
      rw [m.meaning_eq, m.meaning_eq]
      exact m.same_of_eq (m.table_callable _ _ _ (hself _ rfl).1)
  | _ => exact m.same_of_eq rfl

private theorem value_arrayElem (arr : ArrayElemTypeDef) {item : List Char}
    (h : FixArrayLiteral.isText arr ∨ isNumber arr ∧ Numeral item) (env : Env) :
    m.element arr (m.value (FixArrayLiteral.arrayElem arr (String.ofList item)) env) =
      m.element arr (m.text (String.ofList item)) := by
  rw [FixArrayLiteral.arrayElem]
  cases htext : FixArrayLiteral.isText arr with
  | true =>
    rw [if_pos rfl, m.value_text]
  | false =>
    rw [htext] at h
    have hnumber : m.value (.mk (.value (.number (String.ofList item) false))) env =
        m.number (String.ofList item) := by
      rw [Model.value, m.meaning_eq]
      exact congrArg (Operand.value · env) (m.other_number _ _)
    obtain ⟨hnumberType, hnumeral⟩ := h.resolve_left Bool.false_ne_true
    rw [if_neg Bool.false_ne_true, hnumber]
    exact m.element_number hnumberType hnumeral

private theorem meaning_array (elem : List Expr) (named : Bool) :
    m.meaning .expr (.mk (.array elem named)) =
      m.operand fun env => m.array (elem.map fun e => m.value e env) := by
  rw [m.meaning_eq]
  exact congrArg m.operand (funext fun env =>
    congrArg m.array (List.map_map (f := m.meaning .expr) (g := (Operand.value · env))))

private theorem meaning_fixArrayLiteral {e : Expr} (h : CastReadable ⟨.expr, e⟩) :
    m.meaning .expr (FixArrayLiteral.preVisitExpr e) = m.meaning .expr e := by
  rcases FixArrayLiteral.preVisitExpr_cases e with ⟨text, arr, rest, rfl, he⟩ | he
  · obtain ⟨body, items, hbody, htext, hsimple, hitems⟩ := h text arr rfl
    have harray : ArrayText text.toList items :=
      ⟨hsimple, [], body, [], List.forall_mem_nil _, List.forall_mem_nil _, hbody, by
        rw [htext, List.nil_append, List.append_nil]⟩
    have helems : (arrayItems text.toList).map (FixArrayLiteral.arrayElem arr) =
        items.map fun item => FixArrayLiteral.arrayElem arr (String.ofList item) := by
      rw [htext, arrayItems_body hbody hsimple, List.map_map]
      rfl
    have hcast : ∀ operand : Expr,
        m.meaning .expr (.mk (.cast .doubleColon operand (.array arr) rest)) = m.other .expr
          (.cast .doubleColon (m.meaning .expr operand) (.array arr)
            (Container.map m.meaning rest)) :=
      fun operand => m.meaning_eq _
    have htextMeaning : m.meaning .expr (.mk (.value (.singleQuotedString text))) =
        (⟨fun _ => m.text text, fun _ => m.arrayLiteral text⟩ : Operand Env V) := m.meaning_eq _
    rw [he, helems, hcast, hcast, htextMeaning, m.cast_text arr _ harray, meaning_array,
      m.cast_array]
    refine congrArg m.operand (funext fun env => congrArg m.array ?_)
    rw [List.map_map, List.map_map]
    exact List.map_congr_left fun item hitem =>
      m.value_arrayElem arr (hitems.imp_right fun h => ⟨h.1, h.2 item hitem⟩) env
  · exact congrArg _ he

private theorem same_arrayLiteral {s : Statement} (hnames : ∀ x ∈ nodes s, NoCatalogNames x)
    (hcasts : ∀ x ∈ nodes s, CastReadable x) :
    m.Same .statement (m.meaning .statement (FixArrayLiteral.rewrite s))
      (m.meaning .statement s) := by
  refine m.same_visit FixArrayLiteral.partsKept
    (Q := fun _ n => ∀ x ∈ nodes n, CastReadable x) ?_
    (fun k n h => FixArrayLiteral.partsKept.castReadable_parts h) hnames hcasts
  intro k n h
  cases k with
  | expr => exact m.same_of_eq (m.meaning_fixArrayLiteral (h _ (mem_nodes_self n)))
  | _ => exact m.same_of_eq rfl

private theorem meaning_wrapIdentifier (e : Expr) :
    m.meaning .expr (CurrentUserVariableToSessionUserFunctionCall.wrapIdentifier e) =
      m.meaning .expr e := by
  rcases CurrentUserVariableToSessionUserFunctionCall.wrapIdentifier_cases e with
    ⟨ident, target, rfl, hquote, hlookup, he⟩ | he
  · rw [CurrentUserVariableToSessionUserFunctionCall.bareIdentifierToFunction,
      List.lookup_cons] at hlookup
    split at hlookup
    · rename_i hname
      cases hlookup
      rw [he, m.meaning_eq, m.meaning_eq]
      exact m.currentSchema ident hquote (beq_iff_eq.mp hname)
    · cases hlookup
  · exact congrArg _ he

private theorem call_callArgs {old target : String}
    (h : (old, target) ∈ CurrentUserVariableToSessionUserFunctionCall.builtinFunctionRename)
    {args : FunctionArguments Node} (hargs : isBare args) (rest : Rest (ScopedMeaning Env V D)) :
    m.call ⟨[Ident.new target], Container.map m.meaning
        (CurrentUserVariableToSessionUserFunctionCall.callArgs target args), rest⟩ =
      m.call ⟨[Ident.new target], .none, rest⟩ := by
  cases args with
  | none =>
    rw [CurrentUserVariableToSessionUserFunctionCall.callArgs]
    split
    · rfl
    · exact m.call_parentheses rest h
  | _ => cases hargs

private theorem meaning_renameFunction {e : Expr} (h : MentionsPlain Unqualified ⟨.expr, e⟩) :
    m.meaning .expr (CurrentUserVariableToSessionUserFunctionCall.renameFunction e) =
      m.meaning .expr e := by
  rcases CurrentUserVariableToSessionUserFunctionCall.renameFunction_cases e with
    ⟨call, target, rfl, hrenamed, he⟩ | he
  · obtain ⟨old, hold, htarget⟩ := Option.bind_eq_some_iff.mp hrenamed
    have hmem : (old, target) ∈
        CurrentUserVariableToSessionUserFunctionCall.builtinFunctionRename := by
      obtain ⟨before, after, hlist, -⟩ := List.lookup_eq_some_iff.mp htarget
      rw [hlist]
      exact List.mem_append_right _ List.mem_cons_self
    obtain ⟨hname, hbare⟩ := h _ rfl
    obtain ⟨name, args, rest⟩ := call
    have hargs : isBare args := hbare (by rw [isRegister, hold, Option.any_some, htarget]; rfl)
    obtain ⟨ident, rfl⟩ : ∃ ident, name = [ident] := by
      rcases name with _ | ⟨ident, _ | ⟨next, idents⟩⟩
      · cases hold
      · exact ⟨ident, rfl⟩
      · exact absurd hname (by simp [Unqualified])
    have hcall : m.call ⟨[ident], Container.map m.meaning args, Container.map m.meaning rest⟩ =
        m.call ⟨[ident], .none, Container.map m.meaning rest⟩ := by
      cases args with
      | none => rfl
      | _ => cases hargs
    rw [he, m.meaning_eq, m.meaning_eq]
    exact congrArg m.operand ((m.call_callArgs hmem hargs _).trans
      ((m.call_synonym ident _ hmem (Option.some.inj hold)).trans hcall.symm))
  · exact congrArg _ he

private theorem same_sessionCalls {s : Statement} (hnames : ∀ x ∈ nodes s, NoCatalogNames x)
    (hmentions : ∀ x ∈ nodes s, MentionsPlain Unqualified x) :
    m.Same .statement
      (m.meaning .statement (CurrentUserVariableToSessionUserFunctionCall.rewrite s))
      (m.meaning .statement s) := by
  refine m.same_visit CurrentUserVariableToSessionUserFunctionCall.partsKept
    (Q := fun _ n => ∀ x ∈ nodes n, MentionsPlain Unqualified x) (fun k n h => ?_)
    (fun k n h => CurrentUserVariableToSessionUserFunctionCall.partsKept.mentions_parts (Nat.le_refl 1) h)
    hnames hmentions
  cases k with
  | expr =>
    have hwrapped := CurrentUserVariableToSessionUserFunctionCall.mentions_wrapIdentifier
      (h _ (mem_nodes_self n))
    exact m.same_of_eq ((m.meaning_renameFunction hwrapped).trans (m.meaning_wrapIdentifier n))
  | _ => exact m.same_of_eq rfl

private theorem same_collate {s : Statement} (hnames : ∀ x ∈ nodes s, NoCatalogNames x)
    (hmentions : ∀ x ∈ nodes s, MentionsPlain Unqualified x) :
    m.Same .statement (m.meaning .statement (StripCollate.rewrite s))
      (m.meaning .statement s) := by
  refine m.same_visit StripCollate.partsKept
    (Q := fun _ n => ∀ x ∈ nodes n, MentionsPlain Unqualified x) (fun k n h => ?_)
    (fun k n h => StripCollate.partsKept.mentions_parts (Nat.le_refl 1) h) hnames hmentions
  cases k with
  | expr =>
    change m.Same .expr (m.meaning .expr (StripCollate.preVisitExpr n)) _
    rcases StripCollate.preVisitExpr_cases n with ⟨inner, collation, rfl, he⟩ | he
    · rw [he, m.meaning_eq (.mk (.collate inner collation))]
      exact m.same_of_eq (m.collate _ (h _ (mem_nodes_self _) _ rfl)).symm
    · exact m.same_of_eq (congrArg _ he)
  | _ => exact m.same_of_eq rfl

omit [Inhabited V] [∀ k, Inhabited (D k)] in
private theorem other_rewriteOperator (left right : Operand Env V) (op : BinaryOperator) :
    m.other .expr (.binaryOp left (RewritePgCatalogOperator.rewriteOperator op) right) =
      m.other .expr (.binaryOp left op right) := by
  unfold RewritePgCatalogOperator.rewriteOperator
  split
  · rename_i names
    split
    · rename_i hhead
      cases hop : names.getLast?.bind RewritePgCatalogOperator.builtinOperator with
      | none => rfl
      | some op =>
        obtain ⟨symbol, hlast, hsymbol⟩ := Option.bind_eq_some_iff.mp hop
        exact m.operator left right names hhead hlast hsymbol
    · rfl
  · rfl

private theorem same_operator {s : Statement} (hnames : ∀ x ∈ nodes s, NoCatalogNames x) :
    m.Same .statement (m.meaning .statement (RewritePgCatalogOperator.rewrite s))
      (m.meaning .statement s) := by
  refine m.same_visit_of_forall RewritePgCatalogOperator.partsKept (fun k n => ?_) hnames
  cases k with
  | expr =>
    change m.Same .expr (m.meaning .expr (RewritePgCatalogOperator.preVisitExpr n)) _
    unfold RewritePgCatalogOperator.preVisitExpr
    split
    · rw [m.meaning_eq, m.meaning_eq]
      exact m.same_of_eq (m.other_rewriteOperator _ _ _)
    · exact m.same_of_eq rfl
  | _ => exact m.same_of_eq rfl

/-- The statement means what the rules take it for: the right operands of the comparisons that
are lowered are arrays, texts that are cast to arrays are read element by element, no common table
has the name of a relation of the catalog, only the catalog qualifies what is called, and the
collations compare byte by byte. -/
structure Readable (s : Statement) : Prop where
  arrays : m.ArrayOperands s
  casts : ∀ n ∈ nodes s, CastReadable n
  tables : ∀ n ∈ nodes s, NoCatalogNames n
  mentions : ∀ n ∈ nodes s, MentionsPlain InCatalog n

private theorem same_localRules {s : Statement} (h : m.Readable s) :
    m.Same .statement
      (m.meaning .statement (PostgresCompatibilityParser.localRules.foldl (fun s rule => rule s) s))
      (m.meaning .statement s) := by
  have hcasts := castReadable_visit StripCallableQualifier.keepsCasts
    StripCallableQualifier.partsKept (castReadable_visit PrependUnqualifiedPgTableName.keepsCasts
      PrependUnqualifiedPgTableName.partsKept (castReadable_visit
        RewriteArrayAnyAllOperation.keepsCasts RewriteArrayAnyAllOperation.partsKept h.casts))
  have hlowered := RewriteArrayAnyAllOperation.partsKept.noCatalogNames_visit h.tables
  have htable := PrependUnqualifiedPgTableName.partsKept.noCatalogNames_visit hlowered
  have hcallable := StripCallableQualifier.partsKept.noCatalogNames_visit htable
  have harray := FixArrayLiteral.partsKept.noCatalogNames_visit hcallable
  have hsession :=
    CurrentUserVariableToSessionUserFunctionCall.partsKept.noCatalogNames_visit harray
  have hcollate := StripCollate.partsKept.noCatalogNames_visit hsession
  have hqualified := PrependUnqualifiedPgTableName.partsKept.mentions_visit (.inl le_rfl)
    (fun _ _ => PrependUnqualifiedPgTableName.mentions_pre)
    (RewriteArrayAnyAllOperation.partsKept.mentions_visit (.inl le_rfl)
      (fun _ _ => RewriteArrayAnyAllOperation.mentions_pre (.inl le_rfl)) h.mentions)
  have hstripped := FixArrayLiteral.partsKept.mentions_visit (Nat.le_refl 1)
    (fun _ _ => FixArrayLiteral.mentions_pre)
    (StripCallableQualifier.partsKept.mentions_visit (.inl le_rfl)
      (fun _ _ => StripCallableQualifier.mentions_pre) hqualified)
  have hrenamed := CurrentUserVariableToSessionUserFunctionCall.partsKept.mentions_visit (Nat.le_refl 1)
    (fun _ _ => CurrentUserVariableToSessionUserFunctionCall.mentions_pre) hstripped
  have hoperator := m.same_trans (m.same_operator hcollate) (m.same_collate hsession hrenamed)
  have hcalls := m.same_trans (m.same_sessionCalls harray hstripped)
    (m.same_arrayLiteral hcallable hcasts)
  have hnames := m.same_trans (m.same_callable htable hqualified) (m.same_pgTable hlowered)
  exact m.same_trans hoperator (m.same_trans hcalls (m.same_trans hnames
    (m.same_anyAll h.tables h.arrays)))

end Rules

end PgModel

end Models

section Reference
open CurrentUserVariableToSessionUserFunctionCall (lastIdentLower builtinFunctionRename)

namespace CatalogValue

/-- Valuations of the columns, and what a node comes to at one. -/
abbrev Columns : Type := String → PlainValue

abbrev PlainMeaning : Kind → Type := ScopedMeaning Columns PlainValue (fun _ => List PlainValue)

def operand (value : Columns → PlainValue) : Operand Columns PlainValue :=
  ⟨value, fun columns => (value columns).elements⟩

/-- The value of an expression, and what any other node lists. -/
def listed : (Σ k, PlainMeaning k) → Columns → List PlainValue
  | ⟨.expr, e⟩, columns => [Operand.value e columns]
  | ⟨.query, values⟩, columns => values columns
  | ⟨.setExpr, values⟩, columns => values columns
  | ⟨.tableFactor, values⟩, columns => values columns
  | ⟨.statement, values⟩, columns => values columns

def listedAll (parts : List (Σ k, PlainMeaning k)) (columns : Columns) : List PlainValue :=
  parts.flatMap fun part => listed part columns

def contains (columns : Columns) : FunctionArguments PlainMeaning → PlainValue
  | .list [.unnamed arr, .unnamed x] _ => .bool
    ((Operand.value arr columns).elements.any fun e =>
      PlainValue.compare .eq e (Operand.value x columns))
  | _ => default

def call (f : Function PlainMeaning) (columns : Columns) : PlainValue :=
  let name := lastIdentLower f.name
  if name = some "array_contains" then contains columns f.args
  else if name = some "current_user" ∨ name = some "session_user" then .text "postgres"
  else if name = some "current_catalog" ∨ name = some "current_database" then .text "datafusion"
  else if name = some "current_schema" then .text "public"
  else .array (listedAll (Container.parts f.args) columns)

def otherExpr : Form PlainMeaning .expr → Operand Columns PlainValue
  | .identifier ident =>
    if ident.quoteStyle = none ∧ toLowercase ident.value = "current_schema" then
      operand fun _ => .text "public"
    else operand fun columns => columns ident.value
  | .value (.number digits _) => operand fun _ => .text digits
  | .collate e _ => e
  | .binaryOp left op right => operand fun columns => .bool
      (PlainValue.compare (RewritePgCatalogOperator.rewriteOperator op)
        (Operand.value left columns) (Operand.value right columns))
  | .cast _ e (.array _) _ => operand fun columns => .array (Operand.elements e columns)
  | form => operand fun columns => .array (listedAll form.parts columns)

def other : ∀ k, Form PlainMeaning k → PlainMeaning k
  | .expr, form => otherExpr form
  | .tableFactor, .table name _ args rest => fun columns =>
    ((lastIdentLower name).map PlainValue.text).toList ++
      listedAll (Container.partsOption args ++ Container.parts rest) columns
  | .tableFactor, form => listedAll form.parts
  | .query, form => listedAll form.parts
  | .setExpr, form => listedAll form.parts
  | .statement, form => listedAll form.parts

def unscoped : Columns → Prop := ClearScope fun _ => []

theorem unscoped_all (columns : Columns) : unscoped columns :=
  fun _ h => absurd h List.not_mem_nil

section Agreement
variable {a b : ∀ k, Node k → PlainMeaning k}

private theorem listedAll_agree {parts : List (Σ k, Node k)}
    (h : ∀ c ∈ parts, Agree unscoped c.1 (a c.1 c.2) (b c.1 c.2)) (columns : Columns) :
    listedAll (parts.map fun c => ⟨c.1, a c.1 c.2⟩) columns =
      listedAll (parts.map fun c => ⟨c.1, b c.1 c.2⟩) columns := by
  rw [listedAll, listedAll, List.flatMap_map, List.flatMap_map]
  refine List.flatMap_congr fun c hc => ?_
  obtain ⟨k, n⟩ := c
  cases k with
  | expr => exact congrArg (fun value => [value]) (h _ hc columns (unscoped_all columns)).1
  | _ => exact h _ hc columns (unscoped_all columns)

private theorem contains_agree {args : FunctionArguments Node}
    (h : ∀ c ∈ Container.parts args, Agree unscoped c.1 (a c.1 c.2) (b c.1 c.2))
    (columns : Columns) :
    contains columns (Container.map a args) = contains columns (Container.map b args) := by
  match args with
  | .none => rfl
  | .subquery _ => rfl
  | .list [] _ => rfl
  | .list [.unnamed _] _ => rfl
  | .list (.other _ :: _) _ => rfl
  | .list (.unnamed _ :: .other _ :: _) _ => rfl
  | .list (.unnamed _ :: .unnamed _ :: _ :: _) _ => rfl
  | .list [.unnamed arr, .unnamed x] rest =>
    have harr := (h ⟨.expr, arr⟩ List.mem_cons_self columns (unscoped_all columns)).1
    have hx := (h ⟨.expr, x⟩ (List.mem_cons_of_mem _ List.mem_cons_self) columns
      (unscoped_all columns)).1
    change PlainValue.bool ((Operand.value (a .expr arr) columns).elements.any fun e =>
      PlainValue.compare .eq e (Operand.value (a .expr x) columns)) = _
    rw [harr, hx]
    rfl

private theorem call_agree {f : Function Node}
    (h : ∀ c ∈ Container.parts f, Agree unscoped c.1 (a c.1 c.2) (b c.1 c.2))
    (columns : Columns) : call (Container.map a f) columns = call (Container.map b f) columns := by
  have hargs := (List.forall_mem_append.mp h).1
  have hcontains := contains_agree hargs columns
  have hlisted := listedAll_agree hargs columns
  rw [← Container.parts_map, ← Container.parts_map] at hlisted
  change call ⟨f.name, Container.map a f.args, _⟩ columns =
    call ⟨f.name, Container.map b f.args, _⟩ columns
  simp only [call, hcontains, hlisted]

private theorem other_agree {k : Kind} (form : Form Node k)
    (h : ∀ c ∈ form.parts, Agree unscoped c.1 (a c.1 c.2) (b c.1 c.2)) :
    Agree unscoped k (other k (form.map a)) (other k (form.map b)) := by
  have hlisted : ∀ columns, listedAll (form.map a).parts columns =
      listedAll (form.map b).parts columns := by
    intro columns
    have hmap : ∀ f : ∀ k, Node k → PlainMeaning k,
        (form.map f).parts = form.parts.map fun c => ⟨c.1, f c.1 c.2⟩ :=
      fun f => Forms.parts_map f form
    rw [hmap, hmap]
    exact listedAll_agree h columns
  have hoperand : ∀ {f g : Columns → PlainValue}, (∀ columns, f columns = g columns) →
      Agree (D := fun _ => List PlainValue) unscoped .expr (operand f) (operand g) :=
    fun hfg columns _ => ⟨hfg columns, congrArg PlainValue.elements (hfg columns)⟩
  cases form with
  | identifier ident => exact Agree.refl _ _ _
  | value v => cases v <;> exact Agree.refl _ _ _
  | collate e _ => exact h ⟨.expr, e⟩ List.mem_cons_self
  | binaryOp left op right =>
    refine hoperand fun columns => ?_
    rw [(h ⟨.expr, left⟩ List.mem_cons_self columns (unscoped_all columns)).1,
      (h ⟨.expr, right⟩ (List.mem_cons_of_mem _ List.mem_cons_self) columns
        (unscoped_all columns)).1]
  | cast _ e dataType _ =>
    cases dataType with
    | array _ =>
      refine hoperand fun columns => ?_
      rw [(h ⟨.expr, e⟩ List.mem_cons_self columns (unscoped_all columns)).2]
    | _ => exact hoperand fun columns => congrArg PlainValue.array (hlisted columns)
  | table name aliasName args rest =>
    exact fun columns _ => congrArg (_ ++ ·) (hlisted columns)
  | query _ => exact fun columns _ => hlisted columns
  | select _ => exact fun columns _ => hlisted columns
  | setQuery _ => exact fun columns _ => hlisted columns
  | setOperation _ _ _ => exact fun columns _ => hlisted columns
  | otherSetExpr _ => exact fun columns _ => hlisted columns
  | derived _ _ _ _ => exact fun columns _ => hlisted columns
  | nestedJoin _ _ => exact fun columns _ => hlisted columns
  | otherFactor _ _ => exact fun columns _ => hlisted columns
  | statementQuery _ => exact fun columns _ => hlisted columns
  | otherStatement _ => exact fun columns _ => hlisted columns
  | _ => exact hoperand fun columns => congrArg PlainValue.array (hlisted columns)

end Agreement

theorem lastIdentLower_lastIdent (name : ObjectName) :
    lastIdentLower (lastIdent name) = lastIdentLower name := by
  rw [lastIdentLower, getLast_lastIdent, lastIdentLower]

theorem call_congr {f g : Function PlainMeaning}
    (hname : lastIdentLower f.name = lastIdentLower g.name)
    (hargs : f.args = g.args) : call f = call g := by
  unfold call
  rw [hname, hargs]

theorem call_synonym (ident : Ident) {old target : String} (rest : Rest PlainMeaning)
    (h : (old, target) ∈ builtinFunctionRename) (hname : toLowercase ident.value = old) :
    call ⟨[Ident.new target], .none, rest⟩ = call ⟨[ident], .none, rest⟩ := by
  have hlower : lastIdentLower [ident] = some old := congrArg some hname
  funext columns
  unfold call
  rw [hlower]
  rcases List.mem_cons.mp h with heq | h
  · cases heq
    rfl
  · cases List.mem_singleton.mp h
    rfl

theorem call_parentheses (name : ObjectName) (rest : Rest PlainMeaning) :
    call ⟨name, .list [] .none, rest⟩ = call ⟨name, .none, rest⟩ := rfl

theorem cast_text {s : String} {items : List (List Char)} (h : ArrayText s.toList items) :
    (arrayItems (trimMatches isWhitespace s.toList)).map PlainValue.text =
      items.map fun item => .text (String.ofList item) := by
  obtain ⟨body, hbody, htrim⟩ := trim_arrayText h
  rw [htrim, arrayItems_body hbody h.simple, List.map_map]
  rfl

theorem other_cast (e : Operand Columns PlainValue) (arr : ArrayElemTypeDef)
    (rest : Rest PlainMeaning) : other .expr (.cast .doubleColon e (.array arr) rest) =
      operand fun columns => .array (e.elements columns) := rfl

theorem cast_arrayText {s : String} {items : List (List Char)} {arr : ArrayElemTypeDef}
    {rest : Rest PlainMeaning} (h : ArrayText s.toList items) :
    other .expr (.cast .doubleColon (⟨fun _ => .text s, fun _ =>
        (arrayItems (trimMatches isWhitespace s.toList)).map .text⟩ : Operand Columns PlainValue)
        (.array arr) rest) =
      operand fun _ => .array (items.map fun item => .text (String.ofList item)) := by
  rw [other_cast, ← cast_text h]

theorem operator (left right : Operand Columns PlainValue) (names : List String) {symbol : String}
    {op : BinaryOperator} (hhead : names.head? = some "pg_catalog")
    (hlast : names.getLast? = some symbol)
    (hop : RewritePgCatalogOperator.builtinOperator symbol = some op) :
    otherExpr (.binaryOp left op right) =
      otherExpr (.binaryOp left (.pgCustomBinaryOperator names) right) := by
  have hnames : RewritePgCatalogOperator.rewriteOperator (.pgCustomBinaryOperator names) = op := by
    rw [RewritePgCatalogOperator.rewriteOperator, if_pos hhead, hlast, Option.bind_some, hop]
    rfl
  have hself : RewritePgCatalogOperator.rewriteOperator op = op := by
    unfold RewritePgCatalogOperator.builtinOperator at hop
    split at hop
    · exact Option.some.inj hop ▸ rfl
    · exact Option.some.inj hop ▸ rfl
    · exact Option.some.inj hop ▸ rfl
    · exact Option.some.inj hop ▸ rfl
    · cases hop
  refine congrArg operand (funext fun columns => congrArg PlainValue.bool ?_)
  rw [hself, hnames]

theorem isTrue_bool (b : Bool) : PlainValue.isTrue (.bool b) = b := rfl

theorem elements_array (values : List PlainValue) :
    PlainValue.elements (.array values) = values := rfl

theorem compare_notEq (x y : PlainValue) :
    PlainValue.compare .notEq x y = !PlainValue.compare .eq x y := rfl

end CatalogValue

open CatalogValue

/-- A database of texts and arrays of texts, without common tables. -/
def catalogModel : PgModel Columns PlainValue (fun _ => List PlainValue) where
  ofBool := .bool
  isTrue := PlainValue.isTrue
  isTrue_ofBool := isTrue_bool
  array := .array
  elements := PlainValue.elements
  elements_array := elements_array
  text := .text
  arrayLiteral s := (arrayItems (trimMatches isWhitespace s.toList)).map .text
  arrayLiteral_eq := cast_text
  compare := PlainValue.compare
  compare_eq_comm := PlainValue.equal_comm
  compare_notEq := compare_notEq
  call := call
  call_arrayContains _ _ _ := rfl
  other := other
  scope _ := []
  other_agree form _ _ _ h := other_agree form h
  call_agree _ _ _ h columns _ := call_agree h columns
  table_catalog _ _ _ _ _ _ := rfl
  table_callable {name} _ _ _ _ := by
    funext columns
    change ((lastIdentLower (lastIdent name)).map PlainValue.text).toList ++ _ = _
    rw [lastIdentLower_lastIdent]
    rfl
  call_callable {name} _ _ _ := call_congr (lastIdentLower_lastIdent name) rfl
  call_synonym ident _ _ rest := call_synonym ident rest
  call_parentheses rest _ := call_parentheses _ rest
  currentSchema ident hquote hname := (if_pos ⟨hquote, hname⟩).symm
  collate _ _ _ := rfl
  operator := operator
  number := .text
  other_number _ _ := rfl
  element _ value := value
  element_number _ _ := rfl
  cast_array values _ _ := congrArg operand (funext fun columns =>
    congrArg PlainValue.array (List.map_id (values columns)).symm)
  cast_text _ _ := cast_arrayText

/-- `x COLLATE "C" = ANY('{a, b}')`, `'{1,2}'::int[]` and the table `pg_class`. -/
def catalogStatement : Statement :=
  let x : Expr := .mk (.collate (.mk (.identifier (Ident.new "x"))) [Ident.new "C"])
  let found : Expr := .mk (.anyOp x .eq (.mk (.value (.singleQuotedString "{a, b}"))) false)
  let numbers : Expr := .mk (.cast .doubleColon (.mk (.value (.singleQuotedString "{1,2}")))
    (.array (.squareBracket (.other "INT") none)) .none)
  let table : TableFactor := .mk (.table [Ident.new "pg_class"] none none .none)
  .mk (.otherStatement ⟨"", [⟨.expr, found⟩, ⟨.expr, numbers⟩, ⟨.tableFactor, table⟩]⟩)

private theorem castReadable_numbers : CastReadable ⟨.expr, .mk (.cast .doubleColon
    (.mk (.value (.singleQuotedString "{1,2}"))) (.array (.squareBracket (.other "INT") none))
    .none)⟩ := by
  intro text arr hcast
  cases hcast
  have hbody : ArrayBody ([','].intercalate [['1'], ['2']]) [['1'], ['2']] :=
    .elements (List.cons_ne_nil _ _)
      (.cons ⟨[], [], List.forall_mem_nil _, List.forall_mem_nil _, rfl⟩
        (.cons ⟨[], [], List.forall_mem_nil _, List.forall_mem_nil _, rfl⟩ .nil))
  have hdigit : ∀ c : Char, c.isDigit → Numeral [c] := fun c hc =>
    ⟨List.cons_ne_nil _ _, fun d hd => List.mem_singleton.mp hd ▸ hc⟩
  refine ⟨_, [['1'], ['2']], hbody, rfl, ?_, .inr ⟨by decide, ?_⟩⟩
  · intro item hitem
    rcases List.mem_cons.mp hitem with rfl | hitem
    · exact simpleElement_letter (by decide) (by decide)
    · rw [List.mem_singleton.mp hitem]
      exact simpleElement_letter (by decide) (by decide)
  · intro item hitem
    rcases List.mem_cons.mp hitem with rfl | hitem
    · exact hdigit '1' (by decide)
    · rw [List.mem_singleton.mp hitem]
      exact hdigit '2' (by decide)

private theorem readable_catalogStatement : catalogModel.Readable catalogStatement where
  arrays := by
    intro left right
    simp only [catalogStatement, nodes_mk, Form.parts, Container.parts, Container.partsOption,
      Option.elim_none, List.flatMap_cons, List.flatMap_nil, List.append_nil, List.cons_append,
      List.nil_append, List.mem_cons, List.not_mem_nil, Sigma.mk.injEq, heq_eq_eq, Node.mk.injEq,
      Form.anyOp.injEq, Rest.none, reduceCtorEq, and_false, false_and, true_and, or_false, false_or]
    refine ⟨?_, False.elim⟩
    rintro isSome ⟨rfl, rfl, rfl⟩
    exact ⟨_, arrayText_ab⟩
  casts := by
    have hnone : ∀ n, castText? n = none → CastReadable n := fun n hn text arr hcast => by
      cases hn.symm.trans hcast
    simp only [catalogStatement, nodes_mk, Form.parts, Container.parts, Container.partsOption,
      Option.elim_none, List.flatMap_cons, List.flatMap_nil, List.append_nil, List.cons_append,
      List.nil_append, Rest.none, List.forall_mem_cons]
    exact ⟨hnone _ rfl, hnone _ rfl, hnone _ rfl, hnone _ rfl, hnone _ rfl, castReadable_numbers,
      hnone _ rfl, hnone _ rfl, List.forall_mem_nil _⟩
  tables := by
    simp only [catalogStatement, nodes_mk, Form.parts, Container.parts, Container.partsOption,
      Option.elim_none, List.flatMap_cons, List.flatMap_nil, List.append_nil, List.cons_append,
      List.nil_append, Rest.none, List.forall_mem_cons]
    exact ⟨List.forall_mem_nil _, List.forall_mem_nil _, List.forall_mem_nil _,
      List.forall_mem_nil _, List.forall_mem_nil _, List.forall_mem_nil _, List.forall_mem_nil _,
      List.forall_mem_nil _, List.forall_mem_nil _⟩
  mentions := by
    have hnone : ∀ n : Σ k, Node k, mention? (Trees.form n.2) = none →
        MentionsPlain InCatalog n := fun n hn mention hmention => by
      rw [hn] at hmention
      cases hmention
    have hcollation : MentionsPlain InCatalog
        ⟨.expr, .mk (.collate (.mk (.identifier (Ident.new "x"))) [Ident.new "C"])⟩ := by
      intro mention hmention
      cases hmention
      exact ⟨.inl le_rfl, rfl⟩
    simp only [catalogStatement, nodes_mk, Form.parts, Container.parts, Container.partsOption,
      Option.elim_none, List.flatMap_cons, List.flatMap_nil, List.append_nil, List.cons_append,
      List.nil_append, Rest.none, List.forall_mem_cons]
    exact ⟨hnone _ rfl, hnone _ rfl, hcollation, hnone _ rfl, hnone _ rfl, hnone _ rfl,
      hnone _ rfl, hnone _ rfl, List.forall_mem_nil _⟩

end Reference
end DatafusionPostgres.Sql
