import DatafusionPostgres.Sql.Relations
import DatafusionPostgres.Sql.Rewriting

/-! Scalar subqueries among the projected items: which ones stay. -/
namespace DatafusionPostgres.Sql
open DatafusionPostgres.Library

section Names

def wildcardQualifier? : SelectItem Node → Option Ident
  | .qualifiedWildcard (.objectName name) _ => name.getLast?
  | _ => none

/-- The relations that an expression or a projection refers to by name. -/
def qualifiers : (Σ k, Node k) → List Ident
  | ⟨.expr, .mk (.compoundIdentifier idents)⟩ => idents.dropLast.getLast?.toList
  | ⟨.setExpr, .mk (.select select)⟩ => select.projection.filterMap wildcardQualifier?
  | _ => []

/-- Every relation that is referred to stands in a FROM clause of the query or inside of it. -/
def Uncorrelated (query : Query) : Prop :=
  ∀ n ∈ nodes query, ∀ qualifier ∈ qualifiers n,
    ∃ table, ⟨.tableFactor, table⟩ ∈ nodes query ∧
      ∃ name, relationName? table = some name ∧ name.folded = qualifier.folded

def isExprItem : SelectItem Node → Bool
  | .unnamedExpr _ => true
  | .exprWithAlias _ _ => true
  | _ => false

/-- The parts of a projection that are the expression of an item. -/
def isItemAt : List (SelectItem Node) → Nat → Bool
  | [], _ => false
  | item :: items, i =>
    if i < (Container.parts item).length then isExprItem item
    else isItemAt items (i - (Container.parts item).length)

/-- A scalar subquery at an item of a projection, with no reference out of it. -/
structure UncorrelatedItem (s : Statement) (path : List Nat) (query : Query) : Prop where
  subquery : s.nodeAt path = some ⟨.expr, .mk (.subquery query)⟩
  item : ∃ above i select, path = above ++ [i] ∧
    s.nodeAt above = some ⟨.setExpr, .mk (.select select)⟩ ∧
    isItemAt select.projection i
  uncorrelated : Uncorrelated query

end Names

namespace RemoveSubqueryFromProjection

section Limits

theorem hasLimit_addLimit (query : Query) : hasLimit (addLimit query) := by
  obtain ⟨fields, rfl⟩ := query_eq_mk query
  rfl

theorem hasLimit_visit {f : SelectItem Node → SelectItem Node}
    {hf : ∀ item, ∀ c ∈ Container.parts (f item),
      ∃ c' ∈ Container.parts item, level c.1 c.2 ≤ level c'.1 c'.2} (query : Query) :
    hasLimit ((projectionVisitor f hf).visit .query query) = hasLimit query := by
  obtain ⟨⟨withClause, body, orderBy, limitClause, fetch, rest⟩, rfl⟩ := query_eq_mk query
  rw [Visitor.visit_eq]
  cases limitClause <;> cases fetch <;> rfl

/-- A limit clause may be an OFFSET alone. -/
def hasCount : LimitClause Node → Bool
  | .limitOffset limit _ => limit.isSome
  | .other _ => true

/-- The query has a LIMIT or FETCH. -/
def isLimited : Query → Bool
  | .mk (.query fields) => fields.limitClause.any hasCount || fields.fetch.isSome

theorem isLimited_addLimit (query : Query) : isLimited (addLimit query) := by
  obtain ⟨fields, rfl⟩ := query_eq_mk query
  rfl

theorem isLimited_visit (query : Query) : isLimited (visitor.visit .query query) = isLimited query := by
  obtain ⟨⟨withClause, body, orderBy, limitClause, fetch, rest⟩, rfl⟩ := query_eq_mk query
  rw [visitor.visit_eq]
  cases fetch with
  | some fetch => exact (Bool.or_true _).trans (Bool.or_true _).symm
  | none =>
    cases limitClause with
    | none => rfl
    | some clause =>
      cases clause with
      | limitOffset limit rest => cases limit <;> rfl
      | other rest => rfl

end Limits

section Treatments

/-- What the rule does about a node on account of the nodes above. -/
inductive Treatment
  | keep
  | body
  | item
  | limit
  deriving DecidableEq

/-- What the rule does about a part of a node. -/
def Treatment.next : Treatment → (Σ k, Node k) → Nat → Treatment
  | _, ⟨.query, .mk (.query fields)⟩, i =>
    if i = (Container.partsOption fields.withClause).length then .body else .keep
  | .body, ⟨.setExpr, .mk (.select select)⟩, i =>
    if isItemAt select.projection i then .item else .keep
  | .item, ⟨.expr, .mk (.subquery _)⟩, _ => .limit
  | _, _, _ => .keep

def treat : Treatment → ∀ k, Node k → Node k
  | .body, .setExpr, body => mapProjection treatItem body
  | .item, .expr, e => treatExpr e
  | .limit, .query, query => if hasLimit query then query else addLimit query
  | _, _, n => n

/-- A node that becomes `NULL`. -/
def isDropped : Treatment → (Σ k, Node k) → Bool
  | .item, ⟨.expr, .mk (.subquery query)⟩ => hasCorrelation query
  | _, _ => false

/-- What the rule does about the node at a place. -/
def treatmentAt : Treatment → (Σ k, Node k) → List Nat → Treatment
  | t, _, [] => t
  | t, n, i :: path => (children n.2)[i]?.elim .keep fun c => treatmentAt (t.next n i) c path

/-- A node above the place becomes `NULL`. -/
def isDroppedAbove : Treatment → (Σ k, Node k) → List Nat → Bool
  | _, _, [] => false
  | t, n, i :: path =>
    isDropped t n || (children n.2)[i]?.elim false fun c => isDroppedAbove (t.next n i) c path

end Treatments

section Steps

private theorem map_keep (c : Option (Σ k, Node k)) :
    c = c.map fun c => ⟨c.1, treat .keep c.1 c.2⟩ := Option.map_id'.symm

private theorem length_treatItem (item : SelectItem Node) :
    (Container.parts (treatItem item)).length = (Container.parts item).length := by
  cases item <;> rfl

private theorem getElem_mapItems (items : List (SelectItem Node)) (i : Nat) :
    (Container.partsList (items.map treatItem))[i]? =
      (Container.partsList items)[i]?.map fun c =>
        ⟨c.1, treat (if isItemAt items i then .item else .keep) c.1 c.2⟩ := by
  induction items generalizing i with
  | nil => rfl
  | cons item items ih =>
    rw [List.map_cons, Container.partsList, List.flatMap_cons, Container.partsList,
      List.flatMap_cons, List.getElem?_append, List.getElem?_append, length_treatItem, isItemAt]
    split
    · rename_i hi
      cases item with
      | unnamedExpr expr => rw [Nat.lt_one_iff.mp hi]; rfl
      | exprWithAlias expr aliasName => rw [Nat.lt_one_iff.mp hi]; rfl
      | _ => exact map_keep _
    · exact ih _

private theorem length_mapItems (items : List (SelectItem Node)) :
    (Container.partsList (items.map treatItem)).length = (Container.partsList items).length := by
  simp only [Container.partsList, List.length_flatMap, List.map_map, Function.comp_def,
    length_treatItem]

private theorem isItemAt_of_le {items : List (SelectItem Node)} {i : Nat}
    (h : (Container.partsList items).length ≤ i) : isItemAt items i = false := by
  induction items generalizing i with
  | nil => rfl
  | cons item items ih =>
    rw [Container.partsList, List.flatMap_cons, List.length_append] at h
    rw [isItemAt, if_neg (by omega)]
    exact ih (Nat.le_sub_of_add_le' h)

private theorem getElem_mapItems_append (items : List (SelectItem Node)) (tail : List (Σ k, Node k))
    (i : Nat) :
    (Container.partsList (items.map treatItem) ++ tail)[i]? =
      (Container.partsList items ++ tail)[i]?.map fun c =>
        ⟨c.1, treat (if isItemAt items i then .item else .keep) c.1 c.2⟩ := by
  rw [List.getElem?_append, List.getElem?_append, length_mapItems]
  split
  · exact getElem_mapItems items i
  · rename_i hi
    rw [isItemAt_of_le (Nat.le_of_not_lt hi)]
    exact map_keep _

private theorem getElem_mapProjection (body : SetExpr) (i : Nat) :
    (children (mapProjection treatItem body))[i]? = (children body)[i]?.map fun c =>
      ⟨c.1, treat (Treatment.next .body ⟨.setExpr, body⟩ i) c.1 c.2⟩ := by
  obtain ⟨form⟩ := body
  cases form with
  | select select => exact getElem_mapItems_append select.projection _ i
  | _ => exact map_keep _

private theorem getElem_mapBody (fields : QueryFields Node) (i : Nat) :
    (children (visitor.pre .query (.mk (.query fields))))[i]? =
      (children (Node.mk (.query fields)))[i]?.map fun c =>
        ⟨c.1, treat (if i = (Container.partsOption fields.withClause).length then .body else .keep)
          c.1 c.2⟩ := by
  change (Container.partsOption fields.withClause ++
      ⟨.setExpr, mapProjection treatItem fields.body⟩ :: _)[i]? =
    (Container.partsOption fields.withClause ++ ⟨.setExpr, fields.body⟩ :: _)[i]?.map _
  rw [List.getElem?_append, List.getElem?_append]
  split
  · rename_i hi
    rw [if_neg (Nat.ne_of_lt hi)]
    exact map_keep _
  · rename_i hi
    by_cases hbody : i = (Container.partsOption fields.withClause).length
    · rw [if_pos hbody, hbody, Nat.sub_self]
      rfl
    · obtain ⟨j, hj⟩ : ∃ j, i - (Container.partsOption fields.withClause).length = j + 1 :=
        Nat.exists_eq_succ_of_ne_zero (by omega)
      rw [hj, if_neg hbody, List.getElem?_cons_succ, List.getElem?_cons_succ]
      exact map_keep _

private theorem children_addLimit {query : Query} (h : hasLimit query = false) :
    children (addLimit query) =
      children query ++ [⟨.expr, .mk (.value (.number "1" false))⟩] := by
  obtain ⟨⟨withClause, body, orderBy, limitClause, fetch, rest⟩, rfl⟩ := query_eq_mk query
  cases limitClause with
  | none =>
    have hone : Container.partsOption (some limitOne) =
        [⟨.expr, .mk (.value (.number "1" false))⟩] := rfl
    have hnone : Container.partsOption (none : Option (LimitClause Node)) = [] := rfl
    simp only [addLimit, children_mk, Form.parts, Container.parts, hone, hnone, List.append_nil,
      List.append_assoc, List.cons_append]
  | some clause => exact absurd h (by simp [hasLimit])

theorem treatExpr_subquery {query : Query} (h : hasCorrelation query = false) :
    treatExpr (.mk (.subquery query)) = .mk (.subquery (treat .limit .query query)) := by
  rw [treatExpr, if_neg (Bool.eq_false_iff.mp h), treat]
  cases hasLimit query <;> rfl

private theorem children_treatExpr (e : Expr) (h : isDropped .item ⟨.expr, e⟩ = false) {i : Nat}
    {c : Σ k, Node k} (hc : (children e)[i]? = some c) :
    (children (treatExpr e))[i]? =
      some ⟨c.1, treat (Treatment.next .item ⟨.expr, e⟩ i) c.1 c.2⟩ := by
  obtain ⟨form⟩ := e
  cases form with
  | subquery query =>
    rw [treatExpr_subquery h]
    cases i with
    | zero => rw [← Option.some.inj hc]; rfl
    | succ i => exact absurd hc nofun
  | _ => exact hc

theorem children_treat {t : Treatment} {n : Σ k, Node k} (h : isDropped t n = false) {i : Nat}
    {c : Σ k, Node k} (hc : (children n.2)[i]? = some c) :
    (children (visitor.pre n.1 (treat t n.1 n.2)))[i]? =
      some ⟨c.1, treat (t.next n i) c.1 c.2⟩ := by
  obtain ⟨k, n⟩ := n
  cases k with
  | expr =>
    cases t with
    | item => exact children_treatExpr n h hc
    | _ =>
      obtain ⟨form⟩ := n
      cases form <;> exact hc
  | query =>
    obtain ⟨fields, rfl⟩ := query_eq_mk n
    cases t with
    | limit =>
      change (children (visitor.pre .query (if hasLimit _ then _ else addLimit _)))[i]? = _
      split
      · exact (getElem_mapBody fields i).trans (congrArg (Option.map _) hc)
      · rename_i hlimit
        have hadd : (children (addLimit (.mk (.query fields))))[i]? = some c := by
          rw [children_addLimit (eq_false_of_ne_true hlimit)]
          rw [List.getElem?_append_left (List.getElem?_eq_some_iff.mp hc).1]
          exact hc
        exact (getElem_mapBody _ i).trans (congrArg (Option.map _) hadd)
    | _ => exact (getElem_mapBody fields i).trans (congrArg (Option.map _) hc)
  | setExpr =>
    cases t with
    | body => exact (getElem_mapProjection n i).trans (congrArg (Option.map _) hc)
    | _ =>
      obtain ⟨form⟩ := n
      cases form <;> exact hc
  | tableFactor => cases t <;> exact hc
  | statement => cases t <;> exact hc

/-- Beyond the parts of a node there is a new limit at most. -/
theorem children_treat_none {t : Treatment} {n : Σ k, Node k} (h : isDropped t n = false) {i : Nat}
    (hc : (children n.2)[i]? = none) :
    ∀ c ∈ (children (visitor.pre n.1 (treat t n.1 n.2)))[i]?,
      c = ⟨.expr, .mk (.value (.number "1" false))⟩ := by
  have hnone : ∀ {cs : List (Σ k, Node k)}, cs[i]? = none →
      ∀ c ∈ cs[i]?, c = ⟨.expr, .mk (.value (.number "1" false))⟩ := by
    intro cs hcs c hc
    rw [hcs] at hc
    cases hc
  obtain ⟨k, n⟩ := n
  cases k with
  | expr =>
    obtain ⟨form⟩ := n
    cases t with
    | item =>
      cases form with
      | subquery query =>
        rw [treat, treatExpr_subquery h]
        cases i with
        | zero => cases hc
        | succ i => exact hnone rfl
      | _ => exact hnone hc
    | _ => cases form <;> exact hnone hc
  | query =>
    obtain ⟨fields, rfl⟩ := query_eq_mk n
    have hpre : ∀ fields : QueryFields Node, (children (Node.mk (.query fields)))[i]? = none →
        (children (visitor.pre .query (.mk (.query fields))))[i]? = none := by
      intro fields hfields
      rw [getElem_mapBody, hfields]
      rfl
    cases t with
    | limit =>
      change ∀ c ∈ (children (visitor.pre .query (if hasLimit _ then _ else addLimit _)))[i]?, _
      split
      · exact hnone (hpre fields hc)
      · rename_i hlimit
        intro c hnew
        have hadd := children_addLimit (eq_false_of_ne_true hlimit)
        obtain ⟨d, hd, rfl⟩ := Option.map_eq_some_iff.mp ((getElem_mapBody _ i).symm.trans hnew)
        change (children (addLimit (.mk (.query fields))))[i]? = some d at hd
        rw [hadd, List.getElem?_append_right (List.getElem?_eq_none_iff.mp hc)] at hd
        rw [List.mem_singleton.mp (List.mem_of_getElem? hd)]
        split <;> rfl
    | _ => exact hnone (hpre fields hc)
  | setExpr =>
    cases t with
    | body =>
      refine hnone ?_
      change (children (mapProjection treatItem n))[i]? = none
      rw [getElem_mapProjection, hc]
      rfl
    | _ =>
      obtain ⟨form⟩ := n
      cases form <;> exact hnone hc
  | tableFactor => cases t <;> exact hnone hc
  | statement => cases t <;> exact hnone hc

theorem children_dropped {t : Treatment} {n : Σ k, Node k} (h : isDropped t n) :
    children (visitor.pre n.1 (treat t n.1 n.2)) = [] := by
  unfold isDropped at h
  split at h
  · rename_i query
    change children (treatExpr (.mk (.subquery query))) = []
    rw [treatExpr, if_pos h]
    rfl
  · exact absurd h Bool.false_ne_true

/-- The node at a place of the outcome. -/
theorem nodeAt_visit {t : Treatment} {n m : Σ k, Node k} {path : List Nat}
    (hm : nodeAt n path = some m) :
    nodeAt ⟨n.1, visitor.visit n.1 (treat t n.1 n.2)⟩ path =
      if isDroppedAbove t n path then none
      else some ⟨m.1, visitor.visit m.1 (treat (treatmentAt t n path) m.1 m.2)⟩ := by
  induction path generalizing t n with
  | nil =>
    rw [← Option.some.inj hm]
    rfl
  | cons i path ih =>
    obtain ⟨c, hc, hm⟩ := Option.bind_eq_some_iff.mp hm
    rw [nodeAt, visitor.children_visit, List.getElem?_map, isDroppedAbove, treatmentAt, hc]
    cases hdropped : isDropped t n with
    | true =>
      rw [children_dropped hdropped]
      rfl
    | false =>
      rw [children_treat hdropped hc, Option.map_some, Option.bind_some, Option.elim_some,
        Option.elim_some, Bool.false_or]
      exact ih (t := t.next n i) (n := c) hm

end Steps

section Items

/-- The item at the place becomes `NULL`. -/
def ReplacedAt (s : Statement) (path : List Nat) : Prop :=
  (rewrite s).nodeAt path = some ⟨.expr, .mk (.value .null)⟩

/-- The rule comes to the place as to an item of a query with a single SELECT, and no subquery
around it has become `NULL`. -/
def TreatedAt (s : Statement) (path : List Nat) : Prop :=
  treatmentAt .keep ⟨.statement, s⟩ path = .item ∧
    isDroppedAbove .keep ⟨.statement, s⟩ path = false

/-- A table of the SELECT's own FROM clause has the alias. -/
def OwnAlias (select : Select Node) (name : String) : Prop :=
  ∃ twj ∈ select.fromClause, ∃ table ∈ twj.relation :: twj.joins.map Join.relation,
    ∃ tableName tableAlias args rest,
      table = .mk (.table tableName (some tableAlias) args rest) ∧ tableAlias.name.value = name

/-- If the query is a single SELECT, every qualified name in it starts with an alias of a table
of its own FROM clause, and there is no placeholder. -/
def NamesOwnAliases (query : Query) : Prop :=
  ∀ fields select, query = .mk (.query fields) → fields.body = .mk (.select select) →
    (∀ name, ⟨.expr, .mk (.value (.placeholder name))⟩ ∉ nodes query) ∧
    ∀ ident idents, ⟨.expr, .mk (.compoundIdentifier (ident :: idents))⟩ ∈ nodes query →
      OwnAlias select ident.value

private theorem tableAlias_eq_some_iff (table : TableFactor) (name : String) :
    ResolveUnqualifiedIdentifier.tableAlias? table = some name ↔
      ∃ tableName tableAlias args rest,
        table = .mk (.table tableName (some tableAlias) args rest) ∧
        tableAlias.name.value = name := by
  constructor
  · intro h
    unfold ResolveUnqualifiedIdentifier.tableAlias? at h
    split at h
    · exact ⟨_, _, _, _, rfl, Option.some.inj h⟩
    · exact absurd h nofun
  · rintro ⟨tableName, tableAlias, args, rest, rfl, rfl⟩
    rfl

theorem ownAlias_iff (select : Select Node) (name : String) :
    name ∈ ResolveUnqualifiedIdentifier.getTableAliases select.fromClause ↔
      OwnAlias select name := by
  simp only [ResolveUnqualifiedIdentifier.getTableAliases, List.mem_flatMap, List.mem_filterMap,
    tableAlias_eq_some_iff, OwnAlias]

private theorem correlates_iff (aliases : List String) (n : Σ k, Node k) :
    correlates aliases n ↔
      (∃ name, n = ⟨.expr, .mk (.value (.placeholder name))⟩) ∨
      ∃ ident idents, n = ⟨.expr, .mk (.compoundIdentifier (ident :: idents))⟩ ∧
        ident.value ∉ aliases := by
  constructor
  · intro h
    unfold correlates at h
    split at h
    · exact .inl ⟨_, rfl⟩
    · refine .inr ⟨_, _, rfl, fun hmem => ?_⟩
      rw [List.contains_iff_mem.mpr hmem] at h
      exact absurd h Bool.false_ne_true
    · exact absurd h Bool.false_ne_true
  · rintro (⟨name, rfl⟩ | ⟨ident, idents, rfl, hmem⟩)
    · rfl
    · simpa [correlates] using hmem

theorem hasCorrelation_iff (query : Query) :
    hasCorrelation query = false ↔ NamesOwnAliases query := by
  obtain ⟨fields, rfl⟩ := query_eq_mk query
  rw [hasCorrelation]
  split
  · rename_i select hbody
    rw [List.any_eq_false]
    constructor
    · intro h fields' select' hfields hbody'
      cases hfields
      cases hbody.symm.trans hbody'
      refine ⟨fun name hname => h _ hname rfl, fun ident idents hidents => ?_⟩
      by_contra hown
      exact h _ hidents ((correlates_iff _ _).mpr (.inr ⟨ident, idents, rfl,
        fun hmem => hown ((ownAlias_iff select _).mp hmem)⟩))
    · intro h n hn hcorrelates
      obtain ⟨hplaceholder, hidents⟩ := h fields select rfl hbody
      rcases (correlates_iff _ _).mp hcorrelates with ⟨name, rfl⟩ | ⟨ident, idents, rfl, hmem⟩
      · exact hplaceholder name hn
      · exact hmem ((ownAlias_iff select _).mpr (hidents ident idents hn))
  · rename_i hbody
    refine ⟨fun _ fields' select' hfields hbody' => ?_, fun _ => rfl⟩
    cases hfields
    exact absurd hbody' (hbody select')

theorem visit_subquery (query : Query) :
    visitor.visit .expr (.mk (.subquery query)) = .mk (.subquery (visitor.visit .query query)) := by
  rw [visitor.visit_eq]
  rfl

theorem visit_null :
    visitor.visit .expr (.mk (.value .null)) = .mk (.value .null) := by
  rw [visitor.visit_eq]
  rfl

private theorem treat_of_ne_item {t : Treatment} (ht : t ≠ .item) (e : Expr) :
    treat t .expr e = e := by
  cases t with
  | item => exact absurd rfl ht
  | _ => rfl

private theorem visit_treat_eq_null_iff (t : Treatment) (query : Query) :
    visitor.visit .expr (treat t .expr (.mk (.subquery query))) = .mk (.value .null) ↔
      t = .item ∧ hasCorrelation query := by
  by_cases ht : t = .item
  · have htreat : treat t .expr (.mk (.subquery query)) = treatExpr (.mk (.subquery query)) := by
      rw [ht]
      rfl
    rw [htreat]
    cases hcorrelation : hasCorrelation query with
    | true =>
      rw [treatExpr, if_pos hcorrelation, visit_null]
      simp [ht]
    | false =>
      rw [treatExpr_subquery hcorrelation, visit_subquery]
      simp
  · rw [treat_of_ne_item ht, visit_subquery]
    simp [ht]

theorem replacedAt_iff {s : Statement} {path : List Nat} {query : Query}
    (h : s.nodeAt path = some ⟨.expr, .mk (.subquery query)⟩) :
    ReplacedAt s path ↔ TreatedAt s path ∧ hasCorrelation query := by
  have hnode : (rewrite s).nodeAt path = _ := nodeAt_visit (t := .keep) h
  rw [ReplacedAt, TreatedAt, hnode]
  cases isDroppedAbove .keep ⟨Kind.statement, s⟩ path with
  | true => simp
  | false =>
    rw [if_neg Bool.false_ne_true, Option.some.injEq, Sigma.mk.injEq, heq_eq_eq,
      visit_treat_eq_null_iff]
    simp

/-- An uncorrelated subquery stays exactly if the rule does not treat it or can tell from its
aliases. -/
theorem uncorrelatedItem_kept_iff {s : Statement} {path : List Nat} {query : Query}
    (h : UncorrelatedItem s path query) :
    ¬ ReplacedAt s path ↔ (TreatedAt s path → NamesOwnAliases query) := by
  rw [replacedAt_iff h.subquery, ← hasCorrelation_iff, not_and, Bool.not_eq_true]

def oidColumn (qualifier : String) : Expr :=
  .mk (.compoundIdentifier [Ident.new qualifier, Ident.new "oid"])

def pgClass (aliasName : Option TableAlias) : TableFactor :=
  .mk (.table [Ident.new "pg_class"] aliasName none .none)

def selectItem (item : Expr) (fromClause : List (TableWithJoins Node)) : SetExpr :=
  .mk (.select ⟨[.unnamedExpr item], fromClause, none, .none⟩)

def plainQuery (body : SetExpr) : Query := .mk (.query ⟨none, body, none, none, none, .none⟩)

/-- `SELECT <qualifier>.oid FROM pg_class <alias>` -/
def oidQuery (qualifier : String) (aliasName : Option TableAlias) : Query :=
  plainQuery (selectItem (oidColumn qualifier) [⟨pgClass aliasName, []⟩])

/-- `SELECT (<query>)` -/
def selectSubquery (query : Query) : Statement :=
  .mk (.statementQuery (plainQuery (selectItem (.mk (.subquery query)) [])))

private theorem nodes_oidQuery (qualifier : String) (aliasName : Option TableAlias) :
    nodes (oidQuery qualifier aliasName) =
      [⟨.query, oidQuery qualifier aliasName⟩,
        ⟨.setExpr, selectItem (oidColumn qualifier) [⟨pgClass aliasName, []⟩]⟩,
        ⟨.expr, oidColumn qualifier⟩, ⟨.tableFactor, pgClass aliasName⟩] := by
  simp [oidQuery, plainQuery, selectItem, oidColumn, pgClass, nodes_mk, Form.parts,
    Container.parts, Container.partsOption, Container.partsList, Rest.none]

private theorem oidQuery_uncorrelated (qualifier : String) (aliasName : Option TableAlias)
    {name : Ident} (hname : relationName? (pgClass aliasName) = some name)
    (hqualifier : name.folded = (Ident.new qualifier).folded) :
    Uncorrelated (oidQuery qualifier aliasName) := by
  intro n hn column hcolumn
  have htable : ⟨.tableFactor, pgClass aliasName⟩ ∈ nodes (oidQuery qualifier aliasName) := by
    rw [nodes_oidQuery]
    simp
  refine ⟨_, htable, name, hname, ?_⟩
  rw [nodes_oidQuery] at hn
  simp only [List.mem_cons, List.not_mem_nil, or_false] at hn
  rcases hn with rfl | rfl | rfl | rfl
  · exact absurd hcolumn List.not_mem_nil
  · exact absurd hcolumn List.not_mem_nil
  · rw [List.mem_singleton.mp hcolumn]
    exact hqualifier
  · exact absurd hcolumn List.not_mem_nil

private theorem selectSubquery_item {query : Query} (h : Uncorrelated query) :
    UncorrelatedItem (selectSubquery query) [0, 0, 0] query where
  subquery := rfl
  item := ⟨[0, 0], 0, _, rfl, rfl, rfl⟩
  uncorrelated := h

/-- `SELECT (SELECT c.oid FROM pg_class c)` -/
theorem aliasedColumn_kept :
    ¬ ReplacedAt (selectSubquery (oidQuery "c" (some ⟨Ident.new "c", []⟩))) [0, 0, 0] := by
  have hitem := selectSubquery_item (oidQuery_uncorrelated "c" (some ⟨Ident.new "c", []⟩) rfl rfl)
  refine (uncorrelatedItem_kept_iff hitem).mpr fun _ => (hasCorrelation_iff _).mp ?_
  change (nodes (oidQuery "c" (some ⟨Ident.new "c", []⟩))).any _ = false
  rw [nodes_oidQuery]
  rfl

/-- `SELECT (SELECT pg_class.oid FROM pg_class)` -/
theorem tableColumn_replaced :
    UncorrelatedItem (selectSubquery (oidQuery "pg_class" none)) [0, 0, 0]
        (oidQuery "pg_class" none) ∧
      ReplacedAt (selectSubquery (oidQuery "pg_class" none)) [0, 0, 0] := by
  refine ⟨selectSubquery_item (oidQuery_uncorrelated "pg_class" none rfl rfl), (replacedAt_iff rfl).mpr ⟨⟨rfl, rfl⟩, ?_⟩⟩
  change (nodes (oidQuery "pg_class" none)).any _
  rw [nodes_oidQuery]
  rfl

end Items
end RemoveSubqueryFromProjection
end DatafusionPostgres.Sql
