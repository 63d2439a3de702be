import DatafusionPostgres.Sql.DeclaredQuery
import DatafusionPostgres.Sql.EnclosingQueries
import DatafusionPostgres.Sql.QualifiedNames
import DatafusionPostgres.Sql.Visits

/-! The name `current_schema`: where the rules leave a call for it, and where they do not. -/
namespace DatafusionPostgres.Sql
open DatafusionPostgres.Library

namespace PostgresCompatibilityParser
open ResolveUnqualifiedIdentifier (QualifiedAt)
open RemoveSubqueryFromProjection (ReplacedAround)

section Names

/-- The name in any letter case. -/
def isSchemaName (ident : Ident) : Bool := toLowercase ident.value == "current_schema"

/-- The name without quotes, which stands for a call. -/
def isCurrentSchema (ident : Ident) : Bool := ident.quoteStyle.isNone && isSchemaName ident

def schemaCall : Expr := functionCall "current_schema" []

/-- Where the rules leave what stands at the place: the operands of a lowered comparison change
places, and there is no step under a collation that was stripped. -/
def outcomePlace (s : Statement) (path : List Nat) : List Nat :=
  (StripCollate.stripWay (RewriteArrayAnyAllOperation.lowerWay
    (wayOf crossing ⟨.statement, s⟩ path))).map Prod.snd

/-- The statement as the rule for projected subqueries gets it. -/
def beforeSubqueries (s : Statement) : Statement :=
  (rewriteRules.take 10).foldl (fun s rule => rule s) s

/-- No step to the place goes to a part of a cast other than its operand; in the dialects
there is no expression in one. -/
def InOperands (s : Statement) (path : List Nat) : Prop :=
  ∀ step ∈ wayOf crossing ⟨.statement, s⟩ path, step.1 = .cast → step.2 = 0

instance (s : Statement) (path : List Nat) : Decidable (InOperands s path) :=
  inferInstanceAs (Decidable (∀ step ∈ wayOf crossing ⟨.statement, s⟩ path, _))

/-- Every bare `current_schema` becomes a call where it stands, and no column reference of
that name is new. -/
structure CallsCurrentSchema (s : Statement) : Prop where
  called : ∀ path ident, s.nodeAt path = some ⟨.expr, .mk (.identifier ident)⟩ →
    isCurrentSchema ident → (rewrite s).nodeAt (outcomePlace s path) = some ⟨.expr, schemaCall⟩
  noColumn : ∀ m ∈ nodes (rewrite s), namesColumn isSchemaName m → m ∈ nodes s

private theorem isBareFunction_eq (ident : Ident) :
    isBareFunction ident = isCurrentSchema ident := by
  rw [isBareFunction, isCurrentSchema, isSchemaName,
    CurrentUserVariableToSessionUserFunctionCall.bareIdentifierToFunction, List.lookup_cons]
  cases toLowercase ident.value == "current_schema" <;> rfl

end Names

section Calls
variable {s : Statement} {ident : Ident} {way : List (Crossing × Nat)}

private theorem visit_identifier {v : Visitor Node}
    (h : v.pre .expr (.mk (.identifier ident)) = .mk (.identifier ident)) :
    v.visit .expr (.mk (.identifier ident)) = .mk (.identifier ident) := by
  rw [v.visit_eq, h]
  rfl

private theorem visit_schemaCall {v : Visitor Node} (h : v.pre .expr schemaCall = schemaCall) :
    v.visit .expr schemaCall = schemaCall :=
  visit_functionCall h

private theorem visit_currentSchema (h : isCurrentSchema ident) :
    CurrentUserVariableToSessionUserFunctionCall.visitor.visit .expr (.mk (.identifier ident)) =
      schemaCall := by
  obtain ⟨hquote, hvalue⟩ := Bool.and_eq_true_iff.mp h
  have hpre : CurrentUserVariableToSessionUserFunctionCall.visitor.pre .expr
      (.mk (.identifier ident)) = schemaCall := by
    change CurrentUserVariableToSessionUserFunctionCall.renameFunction
      (CurrentUserVariableToSessionUserFunctionCall.wrapIdentifier (.mk (.identifier ident))) = _
    rw [CurrentUserVariableToSessionUserFunctionCall.wrapIdentifier,
      Option.isNone_iff_eq_none.mp hquote, beq_iff_eq.mp hvalue]
    rfl
  rw [Visitor.visit_eq, hpre]
  rfl

private theorem partWay_lowered (h : PartWay ⟨.statement, s⟩ way ⟨.expr, .mk (.identifier ident)⟩) :
    PartWay ⟨.statement, FixArrayLiteral.rewrite (StripCallableQualifier.rewrite
        (PrependUnqualifiedPgTableName.rewrite (RewriteArrayAnyAllOperation.rewrite s)))⟩
      (RewriteArrayAnyAllOperation.lowerWay way) ⟨.expr, .mk (.identifier ident)⟩ := by
  have hcomparison := RewriteArrayAnyAllOperation.partWay_visit (by rintro _ ⟨⟩) h
  rw [visit_identifier rfl] at hcomparison
  have htable := PrependUnqualifiedPgTableName.partWay_visit hcomparison
  rw [visit_identifier rfl] at htable
  have hcallable := StripCallableQualifier.partWay_visit htable
  rw [visit_identifier rfl] at hcallable
  have harray := FixArrayLiteral.partWay_visit (by rintro _ ⟨⟩) hcallable
  rw [visit_identifier rfl] at harray
  exact harray

private theorem lowerStep_cases (step : Crossing × Nat) :
    ∀ step' ∈ RewriteArrayAnyAllOperation.lowerStep step, step' = step ∨ step'.1 = .other := by
  unfold RewriteArrayAnyAllOperation.lowerStep
  split <;> simp

private theorem cast_of_mem_lowerWay {step : Crossing × Nat}
    (h : step ∈ RewriteArrayAnyAllOperation.lowerWay way) (hcast : step.1 = .cast) :
    step ∈ way := by
  obtain ⟨before, hbefore, hstep⟩ := List.mem_flatMap.mp h
  rcases lowerStep_cases before step hstep with rfl | hother
  · exact hbefore
  · cases hother.symm.trans hcast

private theorem partWay_stripped (h : PartWay ⟨.statement, s⟩ way ⟨.expr, schemaCall⟩)
    (hcast : ∀ step ∈ way, step.1 = .cast → step.2 = 0) :
    PartWay ⟨.statement, RewriteRegCastToSubquery.rewrite (RewritePgCatalogOperator.rewrite
        (StripCollate.rewrite s))⟩ (StripCollate.stripWay way) ⟨.expr, schemaCall⟩ := by
  have hcollate := StripCollate.partWay_visit rfl (by decide) h
  have hoperator := RewritePgCatalogOperator.partWay_visit hcollate
  rw [visit_schemaCall rfl] at hoperator
  have hregCast := RewriteRegCastToSubquery.partWay_visit (by rintro _ ⟨⟩)
    (fun step hstep => hcast step (StripCollate.mem_stripWay step hstep)) hoperator
  rw [visit_schemaCall rfl] at hregCast
  exact hregCast

private theorem beforeSubqueries_eq (s : Statement) : beforeSubqueries s =
    RewriteRegCastToSubquery.rewrite (RewritePgCatalogOperator.rewrite (StripCollate.rewrite
      (CurrentUserVariableToSessionUserFunctionCall.rewrite (FixArrayLiteral.rewrite
        (StripCallableQualifier.rewrite (PrependUnqualifiedPgTableName.rewrite
          (RewriteArrayAnyAllOperation.rewrite (ResolveUnqualifiedIdentifier.rewrite
            (AliasDuplicatedProjectionRewrite.rewrite s))))))))) := by
  simp only [beforeSubqueries, rewriteRules, List.take_succ_cons, List.take_zero, List.foldl_cons,
    List.foldl_nil]

private theorem rewrite_eq_beforeSubqueries (s : Statement) : rewrite s =
    FixVersionColumnName.rewrite (RemoveSubqueryFromProjection.rewrite (beforeSubqueries s)) := by
  simp only [rewrite, beforeSubqueries_eq, rewriteRules, List.foldl_cons, List.foldl_nil]

private theorem nodeAt_beforeSubqueries {path : List Nat}
    (hname : s.nodeAt path = some ⟨.expr, .mk (.identifier ident)⟩) (hident : isCurrentSchema ident)
    (hoperands : InOperands s path) (hqualified : ¬ QualifiedAt s path ident) :
    (beforeSubqueries s).nodeAt (outcomePlace s path) = some ⟨.expr, schemaCall⟩ := by
  obtain ⟨hway, hpath⟩ := way_wayOf (L := Crossing) hname
  have hlowered := partWay_lowered
    (ResolveUnqualifiedIdentifier.partWay_rewrite hway (hpath.symm ▸ hqualified))
  have hcall := CurrentUserVariableToSessionUserFunctionCall.partWay_visit hlowered
  rw [visit_currentSchema hident] at hcall
  have hstripped := partWay_stripped hcall
    fun step hstep hcast => hoperands step (cast_of_mem_lowerWay hstep hcast) hcast
  rw [beforeSubqueries_eq]
  exact hstripped.nodeAt

private theorem treat_schemaCall (t : RemoveSubqueryFromProjection.Treatment) :
    RemoveSubqueryFromProjection.treat t .expr schemaCall = schemaCall := by
  cases t <;> rfl

private theorem nodeAt_rewrite {place : List Nat}
    (h : (beforeSubqueries s).nodeAt place = some ⟨.expr, schemaCall⟩)
    (haround : ¬ ReplacedAround (beforeSubqueries s) place) :
    (rewrite s).nodeAt place = some ⟨.expr, schemaCall⟩ := by
  rw [RemoveSubqueryFromProjection.replacedAround_iff] at haround
  have hsubquery := RemoveSubqueryFromProjection.nodeAt_visit (t := .keep) h
  rw [if_neg haround, treat_schemaCall, visit_schemaCall rfl] at hsubquery
  obtain ⟨hway, hpath⟩ := way_wayOf (L := Crossing) hsubquery
  have hversion := FixVersionColumnName.partWay_visit rfl hway
  rw [visit_schemaCall rfl] at hversion
  rw [rewrite_eq_beforeSubqueries, ← hpath]
  exact hversion.nodeAt

private theorem nodeAt_rewrite_replaced {place : List Nat}
    (h : ReplacedAround (beforeSubqueries s) place) : (rewrite s).nodeAt place = none := by
  obtain ⟨path, query, rest, rfl, hrest, hquery, htreated, hown⟩ := h
  have hcorrelation : RemoveSubqueryFromProjection.hasCorrelation query :=
    eq_true_of_ne_false fun h => hown ((RemoveSubqueryFromProjection.hasCorrelation_iff query).mp h)
  have hnull := (RemoveSubqueryFromProjection.replacedAt_iff hquery).mpr ⟨htreated, hcorrelation⟩
  obtain ⟨hway, hpath⟩ := way_wayOf (L := Crossing) hnull
  have hversion := FixVersionColumnName.partWay_visit rfl hway
  have hnode := hversion.nodeAt
  rw [hpath] at hnode
  rw [rewrite_eq_beforeSubqueries]
  refine (RemoveSubqueryFromProjection.nodeAt_append hnode rest).trans ?_
  cases rest with
  | nil => exact absurd rfl hrest
  | cons i rest =>
    rw [nodeAt, Visitor.visit_eq]
    rfl

end Calls

section Columns
variable {s : Statement}

private theorem not_mem_nodes_rewrite {ident : Ident} (h : isCurrentSchema ident) :
    ⟨.expr, .mk (.identifier ident)⟩ ∉ nodes (rewrite s) := by
  intro hmem
  have hquiet : Quiet .user (rewrite s) :=
    FixVersionColumnName.quiet_of_quiet (RemoveSubqueryFromProjection.quiet_of_quiet
      (RewriteRegCastToSubquery.quiet_of_quiet (RewritePgCatalogOperator.quiet_of_quiet
        (StripCollate.quiet_of_quiet
          (CurrentUserVariableToSessionUserFunctionCall.quiet_user _)))))
  have hbare : (!isBareFunction ident) = true := hquiet _ hmem
  rw [isBareFunction_eq, h] at hbare
  cases hbare

private theorem namesColumn_template {template : Query}
    (h : template ∈ RewriteRegCastToSubquery.regCastSpecs.map Prod.snd) :
    ∀ m ∈ nodes template, namesColumn isSchemaName m = false := by
  have hall : (nodes template).all (fun m => !namesColumn isSchemaName m) := by
    simp only [RewriteRegCastToSubquery.regCastSpecs, List.map_cons, List.map_nil, List.mem_cons,
      List.not_mem_nil, or_false] at h
    rcases h with rfl | rfl | rfl | rfl
    all_goals
      rw [nodes, fold_eq_foldN (m := 20) _ rfl]
      decide +kernel
  exact fun m hm => (Bool.not_eq_true' _).mp (List.all_eq_true.mp hall m hm)

private theorem noNewColumn_visits (s : Statement) : NoNewColumn isSchemaName s (visits s) := by
  rw [visits_eq]
  exact (RewriteArrayAnyAllOperation.noNewColumn_visit _ _).trans
    ((PrependUnqualifiedPgTableName.noNewColumn_visit _ _).trans
    ((StripCallableQualifier.noNewColumn_visit _ _).trans
    ((FixArrayLiteral.noNewColumn_visit _ _).trans
    ((CurrentUserVariableToSessionUserFunctionCall.noNewColumn_visit _ _).trans
    ((StripCollate.noNewColumn_visit _ _).trans
    ((RewritePgCatalogOperator.noNewColumn_visit _ _).trans
    ((RewriteRegCastToSubquery.noNewColumn_visit _ fun _ => namesColumn_template).trans
    ((RemoveSubqueryFromProjection.noNewColumn_visit _ _).trans
      (FixVersionColumnName.noNewColumn_visit _ _)))))))))

end Columns

section Outcomes

/-- A bare `current_schema` becomes a call where it stands, unless it gets a qualifier before or
a projected subquery around it is replaced; none is left bare, and a column reference of that
name is new only where a name got its qualifier. -/
theorem rewrite_currentSchema (s : Statement) :
    (∀ path ident, s.nodeAt path = some ⟨.expr, .mk (.identifier ident)⟩ → isCurrentSchema ident →
      InOperands s path →
      (ReplacedAround (beforeSubqueries s) (outcomePlace s path) →
        (rewrite s).nodeAt (outcomePlace s path) = none) ∧
      (¬ ReplacedAround (beforeSubqueries s) (outcomePlace s path) → ¬ QualifiedAt s path ident →
        (rewrite s).nodeAt (outcomePlace s path) = some ⟨.expr, schemaCall⟩)) ∧
    (∀ ident, isCurrentSchema ident →
      ⟨.expr, .mk (.identifier ident)⟩ ∉ nodes (rewrite s)) ∧
    ∀ m ∈ nodes (rewrite s), namesColumn isSchemaName m → m ∈ nodes s ∨ ∃ path table ident,
      m = ⟨.expr, .mk (.compoundIdentifier [Ident.new table, ident])⟩ ∧
      s.nodeAt path = some ⟨.expr, .mk (.identifier ident)⟩ ∧ QualifiedAt s path ident := by
  refine ⟨fun path ident hname hident hoperands => ⟨nodeAt_rewrite_replaced, ?_⟩,
    fun ident => not_mem_nodes_rewrite, fun m hm hcolumn => ?_⟩
  · intro haround hqualified
    exact nodeAt_rewrite (nodeAt_beforeSubqueries hname hident hoperands hqualified) haround
  · rw [rewrite_eq] at hm
    exact ResolveUnqualifiedIdentifier.column_of_rewrite
      (noNewColumn_visits _ m hm hcolumn) hcolumn

end Outcomes

section Examples
open RemoveSubqueryFromProjection (plainQuery selectItem oidColumn pgClass)
open ResolveUnqualifiedIdentifier (aliasedTable wildcardQuery wildcardSelect nameTest)
variable {s t : Statement} {m : Nat}

private theorem beforeSubqueries_of
    (hfirst : ResolveUnqualifiedIdentifier.rewrite (AliasDuplicatedProjectionRewrite.rewrite s) = t)
    (hfits : Visitor.fitsAll m (visitors.take 8) t) :
    beforeSubqueries s = (visitors.take 8).foldl (fun n v => v.visitN m .statement n) t := by
  rw [← Visitor.foldl_visit_eq hfits, ← hfirst, beforeSubqueries_eq]
  rfl

private theorem rewrite_of
    (hfirst : ResolveUnqualifiedIdentifier.rewrite (AliasDuplicatedProjectionRewrite.rewrite s) = t)
    (hfits : Visitor.fitsAll m visitors t) :
    rewrite s = visitors.foldl (fun n v => v.visitN m .statement n) t := by
  rw [← Visitor.foldl_visit_eq hfits, ← hfirst, rewrite_eq, visits_eq]
  rfl

private def bareName (name : String) : Expr := .mk (.identifier (Ident.new name))

/-- `SELECT x = ANY (ARRAY[CURRENT_SCHEMA COLLATE "C"])` -/
def searchedSchema : Statement :=
  .mk (.statementQuery (plainQuery (selectItem (.mk (.anyOp (bareName "x") .eq
    (.mk (.array [.mk (.collate (bareName "CURRENT_SCHEMA") [Ident.new "C"])] true)) false)) [])))

theorem rewrite_searchedSchema : (rewrite searchedSchema).nodeAt [0, 0, 0, 0, 0] =
    some ⟨.expr, schemaCall⟩ := by
  have hbefore := beforeSubqueries_of (s := searchedSchema) (t := searchedSchema) rfl (m := 10)
    (by decide +kernel)
  refine ((rewrite_currentSchema searchedSchema).1 [0, 0, 0, 1, 0, 0] (Ident.new "CURRENT_SCHEMA")
    rfl (by decide) (by decide)).2 ?_ ?_
  · rw [RemoveSubqueryFromProjection.replacedAround_iff, hbefore]
    decide +kernel
  · rintro ⟨select, ⟨fields, hs, hbody⟩, hwildcard, -⟩
    cases hs
    cases hbody
    exact hwildcard rfl

/-- `SELECT n.* FROM pg_namespace n, pg_description d WHERE current_schema = 'public'` -/
def testedSchema : Statement := queryStatement (wildcardQuery "current_schema")

/-- `SELECT (SELECT current_schema FROM pg_class WHERE relnamespace = n.oid) FROM pg_namespace n` -/
def correlatedSchema : Statement :=
  .mk (.statementQuery (plainQuery (selectItem (.mk (.subquery (plainQuery (.mk (.select
    ⟨[.unnamedExpr (bareName "current_schema")], [⟨pgClass none, []⟩],
      some (.mk (.binaryOp (bareName "relnamespace") .eq (oidColumn "n"))), .none⟩)))))
    [⟨aliasedTable "pg_namespace" "n", []⟩])))

private def qualifiedTest : Statement :=
  queryStatement { wildcardQuery "current_schema" with
    body := .mk (.select (wildcardSelect (.mk (.binaryOp
      (.mk (.compoundIdentifier [Ident.new "n", Ident.new "current_schema"])) .eq
      (.mk (.value (.singleQuotedString "public"))))))) }

private theorem firstRules_testedSchema : ResolveUnqualifiedIdentifier.rewrite
    (AliasDuplicatedProjectionRewrite.rewrite testedSchema) = qualifiedTest := by
  change queryStatement (ResolveUnqualifiedIdentifier.rewriteUnqualifiedIdentifiers
    (wildcardQuery "current_schema")) = _
  rw [ResolveUnqualifiedIdentifier.rewriteUnqualifiedIdentifiers_of rfl]
  change queryStatement { wildcardQuery "current_schema" with body := .mk (.select
    (wildcardSelect (ResolveUnqualifiedIdentifier.rewriteExpr "n" ["n", "d"] []
      (nameTest "current_schema")))) } = _
  rw [nameTest, ResolveUnqualifiedIdentifier.rewriteExpr_binaryOp,
    ResolveUnqualifiedIdentifier.rewriteExpr, if_pos (by decide),
    ResolveUnqualifiedIdentifier.rewriteExpr.eq_3 _ _ _ _ (by rintro _ ⟨⟩) (by rintro _ _ _ ⟨⟩)]
  rfl

/-- The subquery of the second statement when its turn comes. -/
private def correlatedQuery : Query :=
  plainQuery (.mk (.select ⟨[.unnamedExpr schemaCall],
    [⟨RewriteRegCastToSubquery.pgCatalog "pg_class" none, []⟩],
    some (.mk (.binaryOp (bareName "relnamespace") .eq (oidColumn "n"))), .none⟩))

private theorem replacedAround_correlatedSchema :
    ReplacedAround (beforeSubqueries correlatedSchema) [0, 0, 0, 0, 0, 0] := by
  have hbefore := beforeSubqueries_of (s := correlatedSchema) (t := correlatedSchema) rfl (m := 12)
    (by decide +kernel)
  have hcorrelation : RemoveSubqueryFromProjection.hasCorrelation correlatedQuery := by
    rw [correlatedQuery, plainQuery, RemoveSubqueryFromProjection.hasCorrelation, nodes,
      fold_eq_foldN (m := 8) _ rfl]
    decide +kernel
  refine ⟨[0, 0, 0], correlatedQuery, [0, 0, 0], rfl, by decide, ?_, ⟨?_, ?_⟩, fun hown => ?_⟩
  · rw [hbefore]
    rfl
  · rw [hbefore]
    rfl
  · rw [hbefore]
    rfl
  · rw [(RemoveSubqueryFromProjection.hasCorrelation_iff _).mpr hown] at hcorrelation
    cases hcorrelation

/-- The test becomes one of a column `n.current_schema`, and the correlated subquery `NULL`. -/
theorem testedSchema_not_called :
    ¬ CallsCurrentSchema testedSchema ∧ ¬ CallsCurrentSchema correlatedSchema := by
  constructor
  · intro h
    have hcall := h.called [0, 0, 2, 0] (Ident.new "current_schema") rfl (by decide)
    rw [rewrite_of firstRules_testedSchema (m := 12) (by decide +kernel)] at hcall
    have hcolumn : (visitors.foldl (fun n v => v.visitN 12 .statement n) qualifiedTest).nodeAt
        [0, 0, 2, 0] =
        some ⟨.expr, .mk (.compoundIdentifier [Ident.new "n", Ident.new "current_schema"])⟩ := rfl
    cases hcolumn.symm.trans hcall
  · intro h
    have hcall := h.called [0, 0, 0, 0, 0, 0] (Ident.new "current_schema") rfl (by decide)
    cases (nodeAt_rewrite_replaced replacedAround_correlatedSchema).symm.trans hcall

end Examples
end PostgresCompatibilityParser
end DatafusionPostgres.Sql
