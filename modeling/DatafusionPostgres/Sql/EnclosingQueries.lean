import DatafusionPostgres.Sql.ProjectionSubqueries

/-! The queries around a projected subquery and the references into them. -/
namespace DatafusionPostgres.Sql
open DatafusionPostgres.Library

section Scopes

/-- The names that the relations of a SELECT go by. -/
def Select.relationNames (select : Select Node) : List String :=
  (select.relations.filterMap relationName?).map Ident.folded

/-- A single SELECT opens a scope. -/
def bodyScopes (scopes : List (List String)) : SetExpr → List (List String)
  | .mk (.select select) => select.relationNames :: scopes
  | _ => scopes

/-- The scopes for a part of a node, innermost first. What follows a SELECT in its query is in
its scope too; a derived table is not in the one where it stands, unless it is LATERAL. -/
def scopesBelow (scopes : List (List String)) : (Σ k, Node k) → Nat → List (List String)
  | ⟨.query, .mk (.query fields)⟩, i =>
    if (Container.partsOption fields.withClause).length < i then bodyScopes scopes fields.body
    else scopes
  | ⟨.setExpr, body⟩, _ => bodyScopes scopes body
  | ⟨.tableFactor, .mk (.derived false _ _ _)⟩, _ => scopes.tail
  | _, _ => scopes

def scopesAt : List (List String) → (Σ k, Node k) → List Nat → List (List String)
  | scopes, _, [] => scopes
  | scopes, n, i :: path =>
    (children n.2)[i]?.elim scopes fun c => scopesAt (scopesBelow scopes n i) c path

/-- A scalar subquery that is an item of a SELECT. -/
structure ProjectedSubquery (s : Statement) (path : List Nat) (query : Query) : Prop where
  subquery : s.nodeAt path = some ⟨.expr, .mk (.subquery query)⟩
  item : ∃ above i select, path = above ++ [i] ∧
    s.nodeAt above = some ⟨.setExpr, .mk (.select select)⟩ ∧ isItemAt select.projection i

/-- At the place in the subquery, a column is qualified by a relation of a query around it. -/
def RefersOut (s : Statement) (path : List Nat) (query : Query) (place : List Nat) : Prop :=
  ∃ idents qualifier,
    nodeAt (N := Node) ⟨.query, query⟩ place = some ⟨.expr, .mk (.compoundIdentifier idents)⟩ ∧
    idents.dropLast.getLast? = some qualifier ∧
    (∃ names ∈ scopesAt [] ⟨.statement, s⟩ path, qualifier.folded ∈ names) ∧
    ∀ names ∈ scopesAt [] ⟨.query, query⟩ place, qualifier.folded ∉ names

end Scopes

namespace RemoveSubqueryFromProjection

/-- Every projected subquery stands for itself and gives at most one row. -/
structure SubqueriesTreated (s : Statement) : Prop where
  limited : ∀ path query, ProjectedSubquery s path query → isLimited query
  uncorrelated : ∀ path query place, ProjectedSubquery s path query →
    ¬ RefersOut s path query place

/-- The place is inside of a projected subquery that the rule comes to and tells from its
aliases. -/
def ReplacedAround (s : Statement) (place : List Nat) : Prop :=
  ∃ path query rest, place = path ++ rest ∧ rest ≠ [] ∧
    s.nodeAt path = some ⟨.expr, .mk (.subquery query)⟩ ∧ TreatedAt s path ∧
    ¬ NamesOwnAliases query

/-- Every projected subquery is limited, or the rule comes to it and replaces it or finds no
limit clause; and every reference out of one is inside of one that it replaces. -/
structure WithinReach (s : Statement) : Prop where
  limited : ∀ path query, ProjectedSubquery s path query → ¬ ReplacedAround s path →
    TreatedAt s path ∧ (¬ NamesOwnAliases query ∨ ¬ hasLimit query) ∨ isLimited query
  uncorrelated : ∀ path query place, ProjectedSubquery s path query →
    RefersOut s path query place → ReplacedAround s (path ++ 0 :: place)

section Outcomes

/-- What the rule makes of a node. -/
private def outcome (t : Treatment) (n : Σ k, Node k) : Σ k, Node k :=
  ⟨n.1, visitor.visit n.1 (treat t n.1 n.2)⟩

private theorem relationName_visit (table : TableFactor) :
    relationName? (visitor.visit .tableFactor table) = relationName? table := by
  obtain ⟨form⟩ := table
  rw [visitor.visit_eq]
  cases form <;> rfl

private theorem nestedJoin_of_visit {table : TableFactor} {twj : TableWithJoins Node}
    (h : visitor.visit .tableFactor table = .mk (.nestedJoin twj none)) :
    ∃ twj', table = .mk (.nestedJoin twj' none) := by
  obtain ⟨form⟩ := table
  rw [visitor.visit_eq] at h
  cases form <;> cases h
  exact ⟨_, rfl⟩

private theorem visit_nestedJoin (relation : TableFactor) (joins : List (Join Node)) :
    visitor.visit .tableFactor (.mk (.nestedJoin ⟨relation, joins⟩ none)) =
      .mk (.nestedJoin ⟨visitor.visit .tableFactor relation,
        joins.map (Container.map visitor.visit)⟩ none) := by
  rw [visitor.visit_eq]
  rfl

private theorem relationsIn_visit {k : Kind} (n : Node k) : ∀ table : TableFactor,
    (⟨k, n⟩ : Σ k, Node k) = ⟨.tableFactor, table⟩ →
    (relationsIn (visitor.visit .tableFactor table)).filterMap relationName? =
      (relationsIn table).filterMap relationName? := by
  induction n using tree_induction with
  | step k n ih =>
    rintro table ⟨⟩
    by_cases htable : ∃ twj, table = .mk (.nestedJoin twj none)
    · obtain ⟨⟨relation, joins⟩, rfl⟩ := htable
      rw [visit_nestedJoin, relationsIn_nestedJoin, relationsIn_nestedJoin, List.filterMap_append,
        List.filterMap_append, List.flatMap_map, List.filterMap_flatMap, List.filterMap_flatMap]
      have hrelation := ih ⟨.tableFactor, relation⟩ List.mem_cons_self relation rfl
      rw [hrelation]
      refine congrArg _ (List.flatMap_congr fun join hjoin => ?_)
      refine ih ⟨.tableFactor, join.relation⟩ ?_ join.relation rfl
      exact List.mem_cons_of_mem _ (List.mem_flatMap.mpr ⟨join, hjoin, List.mem_cons_self⟩)
    · rw [relationsIn_singleton fun twj h => htable (nestedJoin_of_visit h),
        relationsIn_singleton fun twj h => htable ⟨twj, h⟩, List.filterMap_cons,
        List.filterMap_cons, relationName_visit]

private theorem relationNames_map (select : Select Node) (projection : List (SelectItem Node)) :
    (Container.map visitor.visit { select with projection := projection }).relationNames =
      select.relationNames := by
  refine congrArg (List.map Ident.folded) ?_
  change ((select.fromClause.map (Container.map visitor.visit)).flatMap _).filterMap relationName? =
    (select.fromClause.flatMap _).filterMap relationName?
  rw [List.flatMap_map, List.filterMap_flatMap, List.filterMap_flatMap]
  refine List.flatMap_congr fun twj _ => ?_
  obtain ⟨relation, joins⟩ := twj
  change (((visitor.visit .tableFactor relation) ::
    (joins.map (Container.map visitor.visit)).map Join.relation).flatMap _).filterMap _ = _
  rw [List.filterMap_flatMap, List.filterMap_flatMap, List.map_map, List.flatMap_cons,
    List.flatMap_cons, List.flatMap_map, List.flatMap_map, relationsIn_visit _ _ rfl]
  exact congrArg _ (List.flatMap_congr fun join _ => relationsIn_visit _ _ rfl)

private theorem bodyScopes_visit (scopes : List (List String)) {body : SetExpr} :
    bodyScopes scopes (visitor.visit .setExpr body) = bodyScopes scopes body := by
  obtain ⟨form⟩ := body
  rw [visitor.visit_eq]
  cases form with
  | select select => exact congrArg (· :: scopes) (relationNames_map select select.projection)
  | _ => rfl

private theorem bodyScopes_mapProjection (scopes : List (List String)) (body : SetExpr) :
    bodyScopes scopes (visitor.visit .setExpr (mapProjection treatItem body)) =
      bodyScopes scopes body := by
  rw [bodyScopes_visit]
  obtain ⟨form⟩ := body
  cases form <;> rfl

private theorem length_map_with (fields : QueryFields Node) :
    (Container.partsOption (Container.mapOption visitor.visit fields.withClause)).length =
      (Container.partsOption fields.withClause).length := by
  rw [Container.partsOption_mapOption, List.length_map]

private theorem scopesBelow_outcome (scopes : List (List String)) (t : Treatment)
    (n : Σ k, Node k) (i : Nat) :
    scopesBelow scopes (outcome t n) i = scopesBelow scopes n i := by
  obtain ⟨k, n⟩ := n
  cases k with
  | expr => rfl
  | statement => rfl
  | tableFactor =>
    have hkeep : outcome t ⟨.tableFactor, n⟩ = ⟨.tableFactor, visitor.visit .tableFactor n⟩ := by
      cases t <;> rfl
    obtain ⟨form⟩ := n
    rw [hkeep, visitor.visit_eq]
    cases form with
    | derived lateral => cases lateral <;> rfl
    | _ => rfl
  | setExpr =>
    cases t with
    | body => exact bodyScopes_mapProjection scopes n
    | _ => exact bodyScopes_visit scopes
  | query =>
    obtain ⟨fields, rfl⟩ := query_eq_mk n
    have hquery : ∀ fields : QueryFields Node,
        scopesBelow scopes ⟨.query, visitor.visit .query (.mk (.query fields))⟩ i =
          scopesBelow scopes ⟨.query, .mk (.query fields)⟩ i := by
      intro fields
      rw [visitor.visit_eq]
      change (if (Container.partsOption (Container.mapOption visitor.visit
        fields.withClause)).length < i then bodyScopes scopes
          (visitor.visit .setExpr (mapProjection treatItem fields.body)) else scopes) = _
      rw [length_map_with, bodyScopes_mapProjection]
      rfl
    cases t with
    | limit =>
      change scopesBelow scopes ⟨.query, visitor.visit .query
        (if hasLimit (.mk (.query fields)) then _ else addLimit (.mk (.query fields)))⟩ i = _
      split
      · exact hquery fields
      · exact hquery { fields with limitClause := some limitOne }
    | _ => exact hquery fields

private theorem children_outcome {t : Treatment} {n : Σ k, Node k} (h : isDropped t n = false)
    {i : Nat} {c : Σ k, Node k} (hc : (children n.2)[i]? = some c) :
    (children (outcome t n).2)[i]? = some (outcome (t.next n i) c) := by
  rw [outcome, visitor.children_visit, List.getElem?_map, children_treat h hc]
  rfl

theorem scopesAt_outcome {t : Treatment} {n m : Σ k, Node k} {path : List Nat}
    (hm : nodeAt n path = some m) (hdropped : isDroppedAbove t n path = false)
    (scopes : List (List String)) :
    scopesAt scopes (outcome t n) path = scopesAt scopes n path := by
  induction path generalizing t n scopes with
  | nil => rfl
  | cons i path ih =>
    obtain ⟨c, hc, hm⟩ := Option.bind_eq_some_iff.mp hm
    rw [isDroppedAbove, hc, Option.elim_some, Bool.or_eq_false_iff] at hdropped
    rw [scopesAt, scopesAt, children_outcome hdropped.1 hc, hc, Option.elim_some,
      Option.elim_some, scopesBelow_outcome]
    exact ih hm hdropped.2 _

private def oneNode : Σ k, Node k := ⟨.expr, .mk (.value (.number "1" false))⟩

private theorem exists_of_nodeAt_outcome {t : Treatment} {n m' : Σ k, Node k} {path : List Nat}
    (h : nodeAt (outcome t n) path = some m') (hm' : m' ≠ oneNode) :
    ∃ m, nodeAt n path = some m := by
  induction path generalizing t n with
  | nil => exact ⟨n, rfl⟩
  | cons i path ih =>
    obtain ⟨c', hc', h⟩ := Option.bind_eq_some_iff.mp h
    cases hdropped : isDropped t n with
    | true =>
      rw [outcome, visitor.children_visit, children_dropped hdropped] at hc'
      cases hc'
    | false =>
      cases hc : (children n.2)[i]? with
      | some c =>
        rw [children_outcome hdropped hc] at hc'
        cases hc'
        obtain ⟨m, hm⟩ := ih h
        exact ⟨m, by rw [nodeAt, hc]; exact hm⟩
      | none =>
        rw [outcome, visitor.children_visit, List.getElem?_map] at hc'
        obtain ⟨d, hd, rfl⟩ := Option.map_eq_some_iff.mp hc'
        have hone : (⟨d.1, visitor.visit d.1 d.2⟩ : Σ k, Node k) = oneNode := by
          rw [children_treat_none hdropped hc d hd, oneNode, visitor.visit_eq]
          rfl
        rw [hone] at h
        cases path with
        | nil => exact absurd (Option.some.inj h).symm hm'
        | cons j path => cases h

private theorem nodeAt_outcome {t : Treatment} {n m' : Σ k, Node k} {path : List Nat}
    (h : nodeAt (outcome t n) path = some m') (hm' : m' ≠ oneNode) :
    ∃ m, nodeAt n path = some m ∧ isDroppedAbove t n path = false ∧
      m' = outcome (treatmentAt t n path) m := by
  obtain ⟨m, hm⟩ := exists_of_nodeAt_outcome h hm'
  rw [outcome, nodeAt_visit hm] at h
  cases hdropped : isDroppedAbove t n path with
  | true =>
    rw [hdropped, if_pos rfl] at h
    cases h
  | false =>
    rw [hdropped, if_neg Bool.false_ne_true] at h
    exact ⟨m, hm, rfl, (Option.some.inj h).symm⟩

private theorem isItemAt_map (items : List (SelectItem Node)) {g : SelectItem Node → SelectItem Node}
    (hlength : ∀ item, (Container.parts (g item)).length = (Container.parts item).length)
    (hexpr : ∀ item, isExprItem (g item) = isExprItem item) (i : Nat) :
    isItemAt (items.map g) i = isItemAt items i := by
  induction items generalizing i with
  | nil => rfl
  | cons item items ih =>
    rw [List.map_cons, isItemAt, isItemAt, hlength, hexpr, ih]

private theorem isItemAt_visit (items : List (SelectItem Node)) (i : Nat) :
    isItemAt (Container.mapList visitor.visit items) i = isItemAt items i := by
  refine isItemAt_map items (fun item => ?_) (fun item => ?_) i
  · rw [Container.parts_map, List.length_map]
  · cases item <;> rfl

private theorem isItemAt_treatItem (items : List (SelectItem Node)) (i : Nat) :
    isItemAt (Container.mapList visitor.visit (items.map treatItem)) i = isItemAt items i := by
  rw [isItemAt_visit]
  refine isItemAt_map items (fun item => ?_) (fun item => ?_) i <;> cases item <;> rfl

private theorem outcome_select (t : Treatment) (select : Select Node) :
    ∃ select', outcome t ⟨.setExpr, .mk (.select select)⟩ = ⟨.setExpr, .mk (.select select')⟩ ∧
      ∀ i, isItemAt select'.projection i = isItemAt select.projection i := by
  have hkeep : (⟨.setExpr, visitor.visit .setExpr (.mk (.select select))⟩ : Σ k, Node k) =
      ⟨.setExpr, .mk (.select (Container.map visitor.visit select))⟩ := by
    rw [visitor.visit_eq]
    rfl
  cases t with
  | body =>
    refine ⟨Container.map visitor.visit { select with
      projection := select.projection.map treatItem }, ?_, isItemAt_treatItem select.projection⟩
    rw [outcome, visitor.visit_eq]
    rfl
  | _ => exact ⟨_, hkeep, isItemAt_visit select.projection⟩

private theorem select_of_outcome {t : Treatment} {m : Σ k, Node k} {select' : Select Node}
    (h : outcome t m = ⟨.setExpr, .mk (.select select')⟩) :
    ∃ select, m = ⟨.setExpr, .mk (.select select)⟩ := by
  obtain ⟨k, ⟨form⟩⟩ := m
  cases congrArg Sigma.fst h
  cases form with
  | select select => exact ⟨select, rfl⟩
  | _ =>
    rw [outcome, visitor.visit_eq] at h
    cases t <;> cases h

private theorem outcome_subquery {t : Treatment} {query : Query}
    (h : isDropped t ⟨.expr, .mk (.subquery query)⟩ = false) :
    outcome t ⟨.expr, .mk (.subquery query)⟩ = ⟨.expr, .mk (.subquery
      (outcome (t.next ⟨.expr, .mk (.subquery query)⟩ 0) ⟨.query, query⟩).2)⟩ := by
  cases t with
  | item =>
    rw [outcome, treat, treatExpr_subquery h, visit_subquery]
    rfl
  | _ => exact congrArg (Sigma.mk Kind.expr) (visit_subquery query)

private theorem outcome_dropped {t : Treatment} {m : Σ k, Node k} (h : isDropped t m) :
    outcome t m = ⟨.expr, .mk (.value .null)⟩ := by
  unfold isDropped at h
  split at h
  · rename_i query
    rw [outcome, treat, treatExpr, if_pos h, visit_null]
  · cases h

private theorem subquery_of_outcome {t : Treatment} {m : Σ k, Node k} {query' : Query}
    (h : outcome t m = ⟨.expr, .mk (.subquery query')⟩) :
    ∃ query, m = ⟨.expr, .mk (.subquery query)⟩ ∧ isDropped t m = false := by
  obtain ⟨k, ⟨form⟩⟩ := m
  cases congrArg Sigma.fst h
  cases form with
  | subquery query =>
    refine ⟨query, rfl, eq_false_of_ne_true fun hdropped => ?_⟩
    rw [outcome_dropped hdropped] at h
    cases h
  | _ =>
    rw [outcome, visitor.visit_eq] at h
    cases t <;> cases h

private theorem outcome_compoundIdentifier (t : Treatment) (idents : List Ident) :
    outcome t ⟨.expr, .mk (.compoundIdentifier idents)⟩ =
      ⟨.expr, .mk (.compoundIdentifier idents)⟩ := by
  rw [outcome, visitor.visit_eq]
  cases t <;> rfl

private theorem compoundIdentifier_of_outcome {t : Treatment} {m : Σ k, Node k}
    {idents : List Ident} (h : outcome t m = ⟨.expr, .mk (.compoundIdentifier idents)⟩) :
    m = ⟨.expr, .mk (.compoundIdentifier idents)⟩ := by
  obtain ⟨k, ⟨form⟩⟩ := m
  cases congrArg Sigma.fst h
  cases form with
  | compoundIdentifier idents' => exact (outcome_compoundIdentifier t idents').symm.trans h
  | subquery query =>
    cases hdropped : isDropped t ⟨.expr, .mk (.subquery query)⟩ with
    | true =>
      rw [outcome_dropped hdropped] at h
      cases h
    | false =>
      rw [outcome_subquery hdropped] at h
      cases h
  | _ =>
    rw [outcome, visitor.visit_eq] at h
    cases t <;> cases h

end Outcomes

section Around

theorem nodeAt_append {n m : Σ k, Node k} {path : List Nat} (hm : nodeAt n path = some m)
    (rest : List Nat) : nodeAt n (path ++ rest) = nodeAt m rest := by
  induction path generalizing n with
  | nil =>
    cases hm
    rfl
  | cons i path ih =>
    obtain ⟨c, hc, hm⟩ := Option.bind_eq_some_iff.mp hm
    rw [List.cons_append, nodeAt, hc]
    exact ih hm

theorem isDroppedAbove_append {t : Treatment} {n m : Σ k, Node k} {path : List Nat}
    (hm : nodeAt n path = some m) (rest : List Nat) :
    isDroppedAbove t n (path ++ rest) =
      (isDroppedAbove t n path || isDroppedAbove (treatmentAt t n path) m rest) := by
  induction path generalizing t n with
  | nil =>
    cases hm
    rfl
  | cons i path ih =>
    obtain ⟨c, hc, hm⟩ := Option.bind_eq_some_iff.mp hm
    rw [List.cons_append, isDroppedAbove, isDroppedAbove, treatmentAt, hc, Option.elim_some,
      Option.elim_some, Option.elim_some, ih hm, Bool.or_assoc]

private theorem isDroppedAbove_iff {t : Treatment} {n : Σ k, Node k} {place : List Nat} :
    isDroppedAbove t n place ↔ ∃ path rest m, place = path ++ rest ∧ rest ≠ [] ∧
      nodeAt n path = some m ∧ isDropped (treatmentAt t n path) m ∧
      isDroppedAbove t n path = false := by
  induction place generalizing t n with
  | nil =>
    refine iff_of_false Bool.false_ne_true ?_
    rintro ⟨path, rest, m, heq, hrest, -⟩
    exact hrest (List.append_eq_nil_iff.mp heq.symm).2
  | cons i place ih =>
    rw [isDroppedAbove, Bool.or_eq_true]
    constructor
    · intro h
      by_cases hself : isDropped t n
      · exact ⟨[], i :: place, n, rfl, List.cons_ne_nil _ _, rfl, hself, rfl⟩
      · have h := h.resolve_left hself
        cases hc : (children n.2)[i]? with
        | none =>
          rw [hc] at h
          cases h
        | some c =>
          rw [hc] at h
          obtain ⟨path, rest, m, rfl, hrest, hm, hdropped, habove⟩ := ih.mp h
          refine ⟨i :: path, rest, m, rfl, hrest, ?_, ?_, ?_⟩
          · rw [nodeAt, hc]
            exact hm
          · rw [treatmentAt, hc]
            exact hdropped
          · rw [isDroppedAbove, hc, eq_false_of_ne_true hself]
            exact habove
    · rintro ⟨path, rest, m, heq, hrest, hm, hdropped, habove⟩
      cases path with
      | nil =>
        cases hm
        exact .inl hdropped
      | cons j path =>
        cases heq
        obtain ⟨c, hc, hm⟩ := Option.bind_eq_some_iff.mp hm
        rw [isDroppedAbove, hc, Option.elim_some, Bool.or_eq_false_iff] at habove
        rw [treatmentAt, hc] at hdropped
        rw [hc]
        exact .inr (ih.mpr ⟨path, rest, m, rfl, hrest, hm, hdropped, habove.2⟩)

private theorem isDropped_iff {t : Treatment} {m : Σ k, Node k} :
    isDropped t m ↔ ∃ query, m = ⟨.expr, .mk (.subquery query)⟩ ∧ t = .item ∧
      ¬ NamesOwnAliases query := by
  constructor
  · intro h
    unfold isDropped at h
    split at h
    · refine ⟨_, rfl, rfl, fun hown => ?_⟩
      rw [(hasCorrelation_iff _).mpr hown] at h
      cases h
    · cases h
  · rintro ⟨query, rfl, rfl, hown⟩
    exact eq_true_of_ne_false fun h => hown ((hasCorrelation_iff query).mp h)

theorem replacedAround_iff {s : Statement} {place : List Nat} :
    ReplacedAround s place ↔ isDroppedAbove .keep ⟨.statement, s⟩ place := by
  rw [isDroppedAbove_iff]
  constructor
  · rintro ⟨path, query, rest, heq, hrest, hquery, htreated, hown⟩
    exact ⟨path, rest, _, heq, hrest, hquery, isDropped_iff.mpr ⟨query, rfl, htreated.1, hown⟩,
      htreated.2⟩
  · rintro ⟨path, rest, m, heq, hrest, hm, hdropped, habove⟩
    obtain ⟨query, rfl, htreatment, hown⟩ := isDropped_iff.mp hdropped
    exact ⟨path, query, rest, heq, hrest, hm, ⟨htreatment, habove⟩, hown⟩

end Around

section Rewritten
variable {s : Statement} {path : List Nat} {query : Query}

/-- What the rule does about the query of a subquery. -/
private def queryTreatment (s : Statement) (path : List Nat) (query : Query) : Treatment :=
  (treatmentAt .keep ⟨.statement, s⟩ path).next ⟨.expr, .mk (.subquery query)⟩ 0

private def queryOutcome (s : Statement) (path : List Nat) (query : Query) : Query :=
  (outcome (queryTreatment s path query) ⟨.query, query⟩).2

/-- A subquery that the rule leaves where it is. -/
private structure Left (s : Statement) (path : List Nat) (query : Query) : Prop where
  projected : ProjectedSubquery s path query
  above : isDroppedAbove .keep ⟨.statement, s⟩ path = false
  self : isDropped (treatmentAt .keep ⟨.statement, s⟩ path) ⟨.expr, .mk (.subquery query)⟩ = false

private theorem nodeAt_rewrite {m : Σ k, Node k} (hm : s.nodeAt path = some m)
    (habove : isDroppedAbove .keep ⟨.statement, s⟩ path = false) :
    (rewrite s).nodeAt path = some (outcome (treatmentAt .keep ⟨.statement, s⟩ path) m) := by
  refine (nodeAt_visit (t := .keep) hm).trans ?_
  rw [habove, if_neg Bool.false_ne_true]
  rfl

private theorem nodeAt_of_rewrite {m' : Σ k, Node k} (h : (rewrite s).nodeAt path = some m')
    (hm' : m' ≠ oneNode) :
    ∃ m, s.nodeAt path = some m ∧ isDroppedAbove .keep ⟨.statement, s⟩ path = false ∧
      m' = outcome (treatmentAt .keep ⟨.statement, s⟩ path) m :=
  nodeAt_outcome (t := .keep) (n := ⟨.statement, s⟩) h hm'

private theorem Left.rewrite (h : Left s path query) :
    ProjectedSubquery (rewrite s) path (queryOutcome s path query) := by
  obtain ⟨above, i, select, rfl, habove, hitem⟩ := h.projected.item
  have hdropped := h.above
  rw [isDroppedAbove_append habove, Bool.or_eq_false_iff] at hdropped
  obtain ⟨select', hselect, hitems⟩ :=
    outcome_select (treatmentAt .keep ⟨.statement, s⟩ above) select
  refine ⟨(nodeAt_rewrite h.projected.subquery h.above).trans ?_, above, i, select', rfl, ?_, ?_⟩
  · exact congrArg some (outcome_subquery h.self)
  · rw [nodeAt_rewrite habove hdropped.1, hselect]
  · rw [hitems]
    exact hitem

private theorem left_of_rewrite {query' : Query} (h : ProjectedSubquery (rewrite s) path query') :
    ∃ query, Left s path query ∧ query' = queryOutcome s path query := by
  obtain ⟨m, hm, habove, hsubquery⟩ := nodeAt_of_rewrite h.subquery fun heq => by cases heq
  obtain ⟨query, rfl, hself⟩ := subquery_of_outcome hsubquery.symm
  obtain ⟨above, i, select', rfl, hselect', hitem⟩ := h.item
  obtain ⟨m, hselect, -, heq⟩ := nodeAt_of_rewrite hselect' fun heq => by cases heq
  obtain ⟨select, rfl⟩ := select_of_outcome heq.symm
  obtain ⟨select'', hselect'', hitems⟩ :=
    outcome_select (treatmentAt .keep ⟨.statement, s⟩ above) select
  cases heq.trans hselect''
  rw [hitems] at hitem
  refine ⟨query, ⟨⟨hm, above, i, select, rfl, hselect, hitem⟩, habove, hself⟩, ?_⟩
  rw [outcome_subquery hself] at hsubquery
  cases hsubquery
  rfl

private theorem isLimited_queryOutcome :
    isLimited (queryOutcome s path query) ↔
      treatmentAt .keep ⟨.statement, s⟩ path = .item ∧ ¬ hasLimit query ∨ isLimited query := by
  rw [queryOutcome, queryTreatment]
  cases treatmentAt .keep ⟨.statement, s⟩ path with
  | item =>
    change isLimited (visitor.visit .query (if hasLimit query then query else addLimit query)) ↔ _
    rw [isLimited_visit]
    split
    · rename_i h
      exact (or_iff_right fun hlimit => hlimit.2 h).symm
    · rename_i h
      exact iff_of_true (isLimited_addLimit query) (.inl ⟨rfl, h⟩)
  | _ =>
    change isLimited (visitor.visit .query query) ↔ _
    rw [isLimited_visit]
    exact (or_iff_right fun h => nomatch h.1).symm

private theorem isDroppedAbove_subquery (h : s.nodeAt path = some ⟨.expr, .mk (.subquery query)⟩)
    (place : List Nat) :
    isDroppedAbove .keep ⟨.statement, s⟩ (path ++ 0 :: place) =
      (isDroppedAbove .keep ⟨.statement, s⟩ path ||
        (isDropped (treatmentAt .keep ⟨.statement, s⟩ path) ⟨.expr, .mk (.subquery query)⟩ ||
          isDroppedAbove (queryTreatment s path query) ⟨.query, query⟩ place)) :=
  isDroppedAbove_append h (0 :: place)

private theorem Left.isDroppedAbove_iff (h : Left s path query) (place : List Nat) :
    ReplacedAround s (path ++ 0 :: place) ↔
      isDroppedAbove (queryTreatment s path query) ⟨.query, query⟩ place := by
  rw [replacedAround_iff, isDroppedAbove_subquery h.projected.subquery, h.above, h.self]
  rfl

private theorem left_of_not_replacedAround (h : ProjectedSubquery s path query)
    {place : List Nat} (haround : ¬ ReplacedAround s (path ++ 0 :: place)) :
    Left s path query := by
  rw [replacedAround_iff, isDroppedAbove_subquery h.subquery, Bool.not_eq_true,
    Bool.or_eq_false_iff, Bool.or_eq_false_iff] at haround
  exact ⟨h, haround.1, haround.2.1⟩

private theorem Left.refersOut_iff (h : Left s path query) (place : List Nat) :
    RefersOut (RemoveSubqueryFromProjection.rewrite s) path (queryOutcome s path query) place ↔
      RefersOut s path query place ∧ ¬ ReplacedAround s (path ++ 0 :: place) := by
  have hscopes : scopesAt [] ⟨.statement, RemoveSubqueryFromProjection.rewrite s⟩ path =
      scopesAt [] ⟨.statement, s⟩ path :=
    scopesAt_outcome (t := .keep) h.projected.subquery h.above []
  rw [h.isDroppedAbove_iff, Bool.not_eq_true]
  constructor
  · rintro ⟨idents, qualifier, hnode, hqualifier, houter, hinner⟩
    obtain ⟨m, hm, hdropped, hidents⟩ :=
      nodeAt_outcome (t := queryTreatment s path query) (n := ⟨.query, query⟩) hnode
        fun heq => by cases heq
    cases compoundIdentifier_of_outcome hidents.symm
    rw [hscopes] at houter
    have hplace := scopesAt_outcome hm hdropped []
    exact ⟨⟨idents, qualifier, hm, hqualifier, houter, hplace ▸ hinner⟩, hdropped⟩
  · rintro ⟨⟨idents, qualifier, hm, hqualifier, houter, hinner⟩, hdropped⟩
    have hplace := scopesAt_outcome hm hdropped []
    have hnode := nodeAt_visit (t := queryTreatment s path query) hm
    rw [hdropped, if_neg Bool.false_ne_true] at hnode
    refine ⟨idents, qualifier, hnode.trans ?_, hqualifier, ?_, ?_⟩
    · exact congrArg some (outcome_compoundIdentifier _ idents)
    · rw [hscopes]
      exact houter
    · exact hplace.symm ▸ hinner

end Rewritten

section Unions

private def classOid : Query := oidQuery "c" (some ⟨Ident.new "c", []⟩)

/-- `SELECT (SELECT c.oid FROM pg_class c) UNION SELECT 1` -/
def unionStatement : Statement :=
  .mk (.statementQuery (plainQuery (.mk (.setOperation "UNION"
    (selectItem (.mk (.subquery classOid)) []) (selectItem (.mk (.value (.number "1" false))) [])))))

private theorem unionStatement_left : Left unionStatement [0, 0, 0, 0] classOid where
  projected := ⟨rfl, [0, 0, 0], 0, _, rfl, rfl, rfl⟩
  above := rfl
  self := rfl

end Unions
end RemoveSubqueryFromProjection
end DatafusionPostgres.Sql
