import DatafusionPostgres.Sql.Rewriting

/-! The query of a DECLARE: the rules reach it, but for the first two, which look at the
query that a statement is. -/
namespace DatafusionPostgres.Sql
open DatafusionPostgres.Library PostgresCompatibilityParser

/-- A DECLARE of a cursor; no rule reads what stands before the query. -/
def declareStatement (text : String) (query : Query) : Statement :=
  .mk (.otherStatement ⟨text, [⟨.query, query⟩]⟩)

def query? : Statement → Option Query
  | .mk (.statementQuery query) => some query
  | _ => none

def forQuery? : Statement → Option Query
  | .mk (.otherStatement ⟨_, [⟨.query, query⟩]⟩) => some query
  | _ => none

section Visits

/-- The visitors of the rules after the first two. -/
def visitors : List (Visitor Node) :=
  [RewriteArrayAnyAllOperation.visitor,
    PrependUnqualifiedPgTableName.visitor,
    StripCallableQualifier.visitor,
    FixArrayLiteral.visitor,
    CurrentUserVariableToSessionUserFunctionCall.visitor,
    StripCollate.visitor,
    RewritePgCatalogOperator.visitor,
    RewriteRegCastToSubquery.visitor,
    RemoveSubqueryFromProjection.visitor,
    FixVersionColumnName.visitor]

def visitQuery (query : Query) : Query :=
  visitors.foldl (fun query visitor => visitor.visit .query query) query

private theorem visitors_keepStatements :
    ∀ visitor ∈ visitors, ∀ s : Statement, visitor.pre .statement s = s := by
  simp only [visitors, List.forall_mem_cons]
  exact ⟨fun _ => rfl, fun _ => rfl, fun _ => rfl, fun _ => rfl, fun _ => rfl, fun _ => rfl,
    fun _ => rfl, fun _ => rfl, fun _ => rfl, fun _ => rfl, fun _ hmem => nomatch hmem⟩

private theorem foldl_visit (around : Query → Statement) {vs : List (Visitor Node)}
    (hvisit : ∀ visitor ∈ vs, ∀ query,
      visitor.visit .statement (around query) = around (visitor.visit .query query))
    (query : Query) :
    vs.foldl (fun s visitor => visitor.visit .statement s) (around query) =
      around (vs.foldl (fun query visitor => visitor.visit .query query) query) := by
  induction vs generalizing query with
  | nil => rfl
  | cons visitor vs ih =>
    rw [List.foldl_cons, List.foldl_cons, hvisit visitor List.mem_cons_self]
    exact ih (fun visitor hmem => hvisit visitor (List.mem_cons_of_mem _ hmem)) _

private theorem rewrite_eq_visitors (s : Statement) :
    rewrite s = visitors.foldl (fun s visitor => visitor.visit .statement s)
      (ResolveUnqualifiedIdentifier.rewrite (AliasDuplicatedProjectionRewrite.rewrite s)) := rfl

theorem rewrite_declareStatement (text : String) (query : Query) :
    rewrite (declareStatement text query) = declareStatement text (visitQuery query) := by
  rw [rewrite_eq_visitors]
  refine foldl_visit (declareStatement text) (fun visitor hmem query => ?_) query
  rw [visitor.visit_eq, visitors_keepStatements visitor hmem]
  rfl

private theorem firstRules_query (query : Query) :
    ∃ query', ResolveUnqualifiedIdentifier.rewrite
      (AliasDuplicatedProjectionRewrite.rewrite (.mk (.statementQuery query))) =
        .mk (.statementQuery query') := by
  obtain ⟨fields, rfl⟩ := query_eq_mk query
  have halias : ∃ fields', AliasDuplicatedProjectionRewrite.rewrite
      (.mk (.statementQuery (.mk (.query fields)))) =
        .mk (.statementQuery (.mk (.query fields'))) := by
    unfold AliasDuplicatedProjectionRewrite.rewrite
    dsimp only
    split <;> exact ⟨_, rfl⟩
  obtain ⟨fields', halias⟩ := halias
  rw [halias]
  exact ⟨_, rfl⟩

/-- A query that is a statement becomes one, by the first two rules and a visit. -/
theorem rewrite_statementQuery (query : Query) :
    ∃ query', ResolveUnqualifiedIdentifier.rewrite
        (AliasDuplicatedProjectionRewrite.rewrite (.mk (.statementQuery query))) =
          .mk (.statementQuery query') ∧
      rewrite (.mk (.statementQuery query)) = .mk (.statementQuery (visitQuery query')) := by
  obtain ⟨query', hfirst⟩ := firstRules_query query
  refine ⟨query', hfirst, ?_⟩
  rw [rewrite_eq_visitors, hfirst]
  refine foldl_visit (fun query => .mk (.statementQuery query))
    (fun visitor hmem query => ?_) query'
  rw [visitor.visit_eq, visitors_keepStatements visitor hmem]
  rfl

/-- Where the first two rules find nothing to do, a query is rewritten in a DECLARE as it is
by itself. -/
theorem rewrite_declared {query : Query} (text : String)
    (hfirst : ResolveUnqualifiedIdentifier.rewrite
      (AliasDuplicatedProjectionRewrite.rewrite (.mk (.statementQuery query))) =
        .mk (.statementQuery query)) :
    forQuery? (rewrite (declareStatement text query)) =
      query? (rewrite (.mk (.statementQuery query))) := by
  obtain ⟨query', hfirst', hrewrite⟩ := rewrite_statementQuery query
  cases hfirst.symm.trans hfirst'
  rw [rewrite_declareStatement, hrewrite]
  rfl

end Visits
end DatafusionPostgres.Sql
