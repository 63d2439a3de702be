import DatafusionPostgres.Sql.ColumnNames
import DatafusionPostgres.Sql.MovedParts
import DatafusionPostgres.Sql.Outline

/-! Where the first two rules leave the expressions of a statement, and the names that they put
a qualifier in front of. -/
namespace DatafusionPostgres.Sql
open DatafusionPostgres.Library

namespace ResolveUnqualifiedIdentifier

section Standings

/-- Where a node stands for the rule: above the WHERE and the ORDER BY of the statement's own
SELECT, among the operands there, or elsewhere. -/
inductive Standing
  | statement
  | query
  | body
  | operand
  | other
  deriving DecidableEq

/-- The parts of an ORDER BY that are the expression of a key. -/
def isSortKeyAt : List (OrderByExpr Node) → Nat → Bool
  | [], _ => false
  | e :: exprs, i =>
    if i < (Container.parts e).length then i == 0
    else isSortKeyAt exprs (i - (Container.parts e).length)

/-- The part of a SELECT that is its WHERE. -/
def isSelectionAt (select : Select Node) (i : Nat) : Bool :=
  select.selection.isSome && i ==
    (Container.partsList select.projection).length + (Container.partsList select.fromClause).length

/-- Where a part of a node stands. The ORDER BY follows the body of a query. -/
def Standing.next : Standing → (Σ k, Node k) → Nat → Standing
  | .statement, ⟨.statement, .mk (.statementQuery _)⟩, _ => .query
  | .query, ⟨.query, .mk (.query fields)⟩, i =>
    let start := (Container.partsOption fields.withClause).length
    if i < start then .other
    else if i = start then .body
    else if isSortKeyAt (orderByExprs fields.orderBy) (i - start - 1) then .operand
    else .other
  | .body, ⟨.setExpr, .mk (.select select)⟩, i =>
    if isSelectionAt select i then .operand else .other
  | .operand, ⟨.expr, .mk (.binaryOp _ _ _)⟩, _ => .operand
  | _, _, _ => .other

def standingAt : Standing → (Σ k, Node k) → List Nat → Standing
  | t, _, [] => t
  | t, n, i :: path => (children n.2)[i]?.elim .other fun c => standingAt (t.next n i) c path

/-- The rule puts a qualifier in front of the name at the place: it is an operand in the WHERE
or the ORDER BY of the statement's own SELECT, which has one qualified wildcard and a table with
an alias, and it is spelled like no alias of a table or of an item. -/
structure QualifiedIn (s : Statement) (select : Select Node) (path : List Nat) (ident : Ident) :
    Prop where
  body : ∃ fields, s = queryStatement fields ∧ fields.body = .mk (.select select)
  wildcard : getQualifiedWildcardAlias select.projection ≠ none
  tables : getTableAliases select.fromClause ≠ []
  operand : standingAt .statement ⟨.statement, s⟩ path = .operand
  notTable : ident.value ∉ getTableAliases select.fromClause
  notAlias : ∀ e aliasName, .exprWithAlias e aliasName ∈ select.projection →
    aliasName.value ≠ ident.value

def QualifiedAt (s : Statement) (path : List Nat) (ident : Ident) : Prop :=
  ∃ select, QualifiedIn s select path ident

end Standings

section Resolved
variable (f : Expr → Expr)

def mapSelection : SetExpr → SetExpr
  | .mk (.select select) => .mk (.select { select with selection := select.selection.map f })
  | body => body

def resolveQuery : Query → Query
  | .mk (.query fields) => .mk (.query { fields with
      body := mapSelection f fields.body
      orderBy := fields.orderBy.map (rewriteOrderBy f) })

/-- What a change of the names makes of a node on account of where it stands. -/
def resolved : Standing → ∀ k, Node k → Node k
  | .statement, .statement, .mk (.statementQuery query) =>
    .mk (.statementQuery (resolveQuery f query))
  | .query, .query, query => resolveQuery f query
  | .body, .setExpr, body => mapSelection f body
  | .operand, .expr, e => f e
  | _, _, n => n

private theorem map_other (c : Option (Σ k, Node k)) :
    c = c.map fun c => ⟨c.1, resolved f .other c.1 c.2⟩ := Option.map_id'.symm

private theorem isSortKeyAt_of_le {exprs : List (OrderByExpr Node)} {i : Nat}
    (h : (Container.partsList exprs).length ≤ i) : isSortKeyAt exprs i = false := by
  induction exprs generalizing i with
  | nil => rfl
  | cons e exprs ih =>
    rw [Container.partsList, List.flatMap_cons, List.length_append] at h
    rw [isSortKeyAt, if_neg (by omega)]
    exact ih (Nat.le_sub_of_add_le' h)

private theorem getElem_sortKeys (exprs : List (OrderByExpr Node)) (i : Nat) :
    (Container.partsList (exprs.map fun e => { e with expr := f e.expr }))[i]? =
      (Container.partsList exprs)[i]?.map fun c =>
        ⟨c.1, resolved f (if isSortKeyAt exprs i then .operand else .other) c.1 c.2⟩ := by
  induction exprs generalizing i with
  | nil => rfl
  | cons e exprs ih =>
    have hlength : (Container.parts ({ e with expr := f e.expr } : OrderByExpr Node)).length =
        (Container.parts e).length := rfl
    rw [List.map_cons, Container.partsList, List.flatMap_cons, Container.partsList,
      List.flatMap_cons, List.getElem?_append, List.getElem?_append, hlength, isSortKeyAt]
    split
    · cases i with
      | zero => rfl
      | succ i => exact map_other f _
    · exact ih _

private theorem length_sortKeys (exprs : List (OrderByExpr Node)) :
    (Container.partsList (exprs.map fun e => { e with expr := f e.expr })).length =
      (Container.partsList exprs).length := by
  rw [Container.partsList, Container.partsList, List.flatMap_map, List.length_flatMap,
    List.length_flatMap]
  rfl

private theorem getElem_orderBy (orderBy : Option (OrderBy Node)) (tail : List (Σ k, Node k))
    (i : Nat) :
    (Container.partsOption (orderBy.map (rewriteOrderBy f)) ++ tail)[i]? =
      (Container.partsOption orderBy ++ tail)[i]?.map fun c =>
        ⟨c.1, resolved f (if isSortKeyAt (orderByExprs orderBy) i then .operand else .other)
          c.1 c.2⟩ := by
  rcases orderBy with _ | ⟨_ | exprs, rest⟩
  · exact map_other f _
  · exact map_other f _
  · change (Container.partsList (exprs.map _) ++ _ ++ tail)[i]? =
      (Container.partsList exprs ++ _ ++ tail)[i]?.map _
    rw [List.append_assoc, List.append_assoc]
    rcases Nat.lt_or_ge i (Container.partsList exprs).length with hi | hi
    · rw [List.getElem?_append_left hi, List.getElem?_append_left (length_sortKeys f exprs ▸ hi)]
      exact getElem_sortKeys f exprs i
    · have hnone : isSortKeyAt (orderByExprs (some ⟨.expressions exprs, rest⟩)) i = false :=
        isSortKeyAt_of_le hi
      rw [hnone, List.getElem?_append_right hi,
        List.getElem?_append_right (length_sortKeys f exprs ▸ hi), length_sortKeys]
      exact map_other f _

private theorem getElem_query (fields : QueryFields Node) (i : Nat) :
    (children (resolveQuery f (.mk (.query fields))))[i]? =
      (children (Node.mk (.query fields)))[i]?.map fun c =>
        ⟨c.1, resolved f (Standing.next .query ⟨.query, .mk (.query fields)⟩ i) c.1 c.2⟩ := by
  change (Container.partsOption fields.withClause ++ ⟨.setExpr, mapSelection f fields.body⟩ ::
      (Container.partsOption (fields.orderBy.map (rewriteOrderBy f)) ++ _))[i]? =
    (Container.partsOption fields.withClause ++ ⟨.setExpr, fields.body⟩ ::
      (Container.partsOption fields.orderBy ++ _))[i]?.map _
  rw [Standing.next]
  dsimp only
  split
  · rename_i hi
    rw [List.getElem?_append_left hi, List.getElem?_append_left hi]
    exact map_other f _
  · rename_i hi
    rw [List.getElem?_append_right (Nat.le_of_not_lt hi),
      List.getElem?_append_right (Nat.le_of_not_lt hi)]
    split
    · rename_i hbody
      rw [hbody, Nat.sub_self]
      rfl
    · rename_i hbody
      obtain ⟨j, hj⟩ : ∃ j, i - (Container.partsOption fields.withClause).length = j + 1 :=
        Nat.exists_eq_succ_of_ne_zero (by omega)
      rw [hj, List.getElem?_cons_succ, List.getElem?_cons_succ, Nat.add_sub_cancel]
      exact getElem_orderBy f fields.orderBy _ j

private theorem getElem_select (select : Select Node) (i : Nat) :
    (children (mapSelection f (.mk (.select select))))[i]? =
      (children (Node.mk (.select select)))[i]?.map fun c =>
        ⟨c.1, resolved f (if isSelectionAt select i then .operand else .other) c.1 c.2⟩ := by
  obtain ⟨projection, fromClause, selection, rest⟩ := select
  cases selection with
  | none => exact map_other f _
  | some e =>
    change (Container.partsList projection ++ (Container.partsList fromClause ++
        (⟨.expr, f e⟩ :: _)))[i]? =
      (Container.partsList projection ++ (Container.partsList fromClause ++
        (⟨.expr, e⟩ :: _)))[i]?.map _
    rw [← List.append_assoc, ← List.append_assoc, isSelectionAt, Option.isSome_some,
      Bool.true_and, ← List.length_append]
    generalize Container.partsList projection ++ Container.partsList fromClause = front
    rcases Nat.lt_or_ge i front.length with hi | hi
    · rw [List.getElem?_append_left hi, List.getElem?_append_left hi,
        beq_eq_false_iff_ne.mpr (Nat.ne_of_lt hi)]
      exact map_other f _
    · rw [List.getElem?_append_right hi, List.getElem?_append_right hi]
      cases hj : i - front.length with
      | zero =>
        rw [beq_iff_eq.mpr (Nat.le_antisymm (Nat.le_of_sub_eq_zero hj) hi)]
        rfl
      | succ j =>
        rw [beq_eq_false_iff_ne.mpr (by omega)]
        exact map_other f _

end Resolved

section Operands
variable (wildcardAlias : String) (tables aliases : List String)

private theorem getElem_operand (e : Expr) (i : Nat) :
    (children (rewriteExpr wildcardAlias tables aliases e))[i]? = (children e)[i]?.map fun c =>
      ⟨c.1, resolved (rewriteExpr wildcardAlias tables aliases)
        (Standing.next .operand ⟨.expr, e⟩ i) c.1 c.2⟩ := by
  obtain ⟨form⟩ := e
  cases form with
  | identifier ident =>
    rw [rewriteExpr]
    split <;> rfl
  | binaryOp left op right =>
    rw [rewriteExpr]
    rcases i with _ | _ | i
    · rfl
    · rfl
    · rfl
  | _ =>
    rw [rewriteExpr.eq_3 _ _ _ _ (by rintro _ ⟨⟩) (by rintro _ _ _ ⟨⟩)]
    exact map_other _ _

private theorem crossing_operand (e : Expr) :
    crossing ⟨.expr, rewriteExpr wildcardAlias tables aliases e⟩ = crossing ⟨.expr, e⟩ := by
  obtain ⟨form⟩ := e
  cases form with
  | identifier ident =>
    rw [rewriteExpr]
    split <;> rfl
  | binaryOp left op right =>
    rw [rewriteExpr]
    rfl
  | _ => rw [rewriteExpr.eq_3 _ _ _ _ (by rintro _ ⟨⟩) (by rintro _ _ _ ⟨⟩)]

private theorem getElem_resolved (t : Standing) (n : Σ k, Node k) (i : Nat) :
    (children (resolved (rewriteExpr wildcardAlias tables aliases) t n.1 n.2))[i]? =
      (children n.2)[i]?.map fun c => ⟨c.1, resolved (rewriteExpr wildcardAlias tables aliases)
        (t.next n i) c.1 c.2⟩ := by
  obtain ⟨k, n⟩ := n
  cases t with
  | statement =>
    cases k with
    | statement =>
      obtain ⟨form⟩ := n
      cases form with
      | statementQuery query => cases i <;> rfl
      | otherStatement rest => exact map_other _ _
    | _ => exact map_other _ _
  | query =>
    cases k with
    | query =>
      obtain ⟨fields, rfl⟩ := query_eq_mk n
      exact getElem_query _ fields i
    | _ => exact map_other _ _
  | body =>
    cases k with
    | setExpr =>
      obtain ⟨form⟩ := n
      cases form with
      | select select => exact getElem_select _ select i
      | _ => exact map_other _ _
    | _ => exact map_other _ _
  | operand =>
    cases k with
    | expr => exact getElem_operand wildcardAlias tables aliases n i
    | _ => exact map_other _ _
  | other => exact map_other _ _

private theorem crossing_resolved (t : Standing) (n : Σ k, Node k) :
    crossing ⟨n.1, resolved (rewriteExpr wildcardAlias tables aliases) t n.1 n.2⟩ = crossing n := by
  obtain ⟨k, n⟩ := n
  cases k with
  | expr =>
    cases t with
    | operand => exact crossing_operand wildcardAlias tables aliases n
    | _ => rfl
  | _ => exact crossing_of_ne_expr (by rintro ⟨⟩) _ _

/-- What the change makes of the node at a place. -/
theorem nodeAt_resolved (t : Standing) (n : Σ k, Node k) (path : List Nat) :
    nodeAt ⟨n.1, resolved (rewriteExpr wildcardAlias tables aliases) t n.1 n.2⟩ path =
      (nodeAt n path).map fun m => ⟨m.1, resolved (rewriteExpr wildcardAlias tables aliases)
        (standingAt t n path) m.1 m.2⟩ := by
  induction path generalizing t n with
  | nil => rfl
  | cons i path ih =>
    rw [nodeAt, nodeAt, standingAt, getElem_resolved]
    cases (children n.2)[i]? with
    | none => rfl
    | some c => exact ih (t.next n i) c

theorem partWay_resolved {n m : Σ k, Node k} {way : List (Crossing × Nat)} (h : PartWay n way m)
    (t : Standing) :
    PartWay ⟨n.1, resolved (rewriteExpr wildcardAlias tables aliases) t n.1 n.2⟩ way
      ⟨m.1, resolved (rewriteExpr wildcardAlias tables aliases)
        (standingAt t n (way.map Prod.snd)) m.1 m.2⟩ := by
  induction h generalizing t with
  | here n => exact .here _
  | @down n c m i way hc _ ih =>
    rw [List.map_cons, standingAt, hc]
    refine .cons (crossing_resolved wildcardAlias tables aliases t n) ?_ (ih (t.next n i))
    rw [getElem_resolved, hc]
    rfl

end Operands

end ResolveUnqualifiedIdentifier

namespace AliasDuplicatedProjectionRewrite
open ResolveUnqualifiedIdentifier

section Aliased
variable (select : Select Node)

private theorem rewriteSelectWithAlias_cases : rewriteSelectWithAlias select = select ∨
    rewriteSelectWithAlias select = { select with
      projection := select.projection.map
        (aliasItem (select.projection.filterMap wildcardTable?)) } := by
  unfold rewriteSelectWithAlias
  dsimp only
  split
  · exact .inl rfl
  · exact .inr rfl

theorem children_rewriteSelectWithAlias :
    children (Node.mk (.select (rewriteSelectWithAlias select))) =
      children (Node.mk (.select select)) := by
  rcases rewriteSelectWithAlias_cases select with h | h
  · rw [h]
  · rw [h]
    exact children_mapProjection (parts_aliasItem _) (.mk (.select select))

theorem fromClause_rewriteSelectWithAlias :
    (rewriteSelectWithAlias select).fromClause = select.fromClause := by
  rcases rewriteSelectWithAlias_cases select with h | h <;> rw [h]

private theorem wildcardTable_aliasItem (wildcardTables : List String) (item : SelectItem Node) :
    wildcardTable? (aliasItem wildcardTables item) = wildcardTable? item := by
  cases item with
  | unnamedExpr e =>
    rw [aliasItem]
    split <;> rfl
  | _ => rfl

theorem wildcardTables_rewriteSelectWithAlias :
    (rewriteSelectWithAlias select).projection.filterMap wildcardTable? =
      select.projection.filterMap wildcardTable? := by
  rcases rewriteSelectWithAlias_cases select with h | h
  · rw [h]
  · rw [h, List.filterMap_map]
    exact List.filterMap_congr fun item _ => wildcardTable_aliasItem _ item

/-- An alias that was given stays. -/
theorem mem_aliases_rewriteSelectWithAlias {e : Expr} {aliasName : Ident}
    (h : .exprWithAlias e aliasName ∈ select.projection) :
    aliasName.value ∈ getProjectionAliases (rewriteSelectWithAlias select).projection := by
  refine List.mem_filterMap.mpr ⟨.exprWithAlias e aliasName, ?_, rfl⟩
  rcases rewriteSelectWithAlias_cases select with hselect | hselect
  · rw [hselect]
    exact h
  · rw [hselect]
    exact List.mem_map.mpr ⟨_, h, rfl⟩

private theorem isSelectionAt_rewriteSelectWithAlias (i : Nat) :
    isSelectionAt (rewriteSelectWithAlias select) i = isSelectionAt select i := by
  rcases rewriteSelectWithAlias_cases select with h | h
  · rw [h]
  · have hparts : (Container.partsList (select.projection.map
        (aliasItem (select.projection.filterMap wildcardTable?)))).length =
        (Container.partsList select.projection).length := by
      rw [Container.partsList, List.flatMap_map,
        List.flatMap_congr fun item _ => parts_aliasItem _ item]
      rfl
    rw [h, isSelectionAt, hparts]
    rfl

end Aliased

section Ways
variable {fields : QueryFields Node} {select : Select Node} {m : Σ k, Node k}
  {way : List (Crossing × Nat)}

private theorem partWay_queryStatement {body : SetExpr}
    (hbody : children body = children fields.body) (hm : m.1 = .expr)
    (h : PartWay ⟨.statement, queryStatement fields⟩ way m) :
    PartWay ⟨.statement, queryStatement { fields with body := body }⟩ way m := by
  cases way with
  | nil =>
    cases h
    cases hm
  | cons step way =>
    obtain ⟨l, i⟩ := step
    obtain ⟨hstep, c, hc, hway⟩ := h.of_cons
    cases i with
    | zero =>
      cases hc
      have hquery : (children (queryStatement { fields with body := body }))[0]? =
          some ⟨.query, .mk (.query { fields with body := body })⟩ := rfl
      exact .cons hstep hquery (PartWay.of_body hbody hm hway)
    | succ i => cases hc

/-- The expressions of a statement stay where they are. -/
theorem partWay_rewrite_iff {s : Statement} (hm : m.1 = .expr) :
    PartWay ⟨.statement, rewrite s⟩ way m ↔ PartWay ⟨.statement, s⟩ way m := by
  rcases statement_cases s with ⟨fields, select, rfl, hbody⟩ | ⟨-, hself, -⟩
  · rw [rewrite_queryStatement hbody]
    have hchildren : children (Node.mk (.select (rewriteSelectWithAlias select))) =
        children fields.body := by
      rw [hbody]
      exact children_rewriteSelectWithAlias select
    refine ⟨fun h => ?_, partWay_queryStatement hchildren hm⟩
    have hback := @partWay_queryStatement { fields with body := _ } m way fields.body
      hchildren.symm hm
    exact hback h
  · rw [hself]

theorem nodeAt_rewrite_iff {s : Statement} {path : List Nat} (hm : m.1 = .expr) :
    (rewrite s).nodeAt path = some m ↔ s.nodeAt path = some m := by
  constructor
  · intro h
    obtain ⟨hway, hpath⟩ := way_wayOf (L := Crossing) h
    rw [← hpath]
    exact ((partWay_rewrite_iff hm).mp hway).nodeAt
  · intro h
    obtain ⟨hway, hpath⟩ := way_wayOf (L := Crossing) h
    rw [← hpath]
    exact ((partWay_rewrite_iff hm).mpr hway).nodeAt

private theorem standingAt_body {t : Standing} {body body' : SetExpr}
    (hchildren : children body' = children body)
    (hnext : ∀ i, t.next ⟨.setExpr, body'⟩ i = t.next ⟨.setExpr, body⟩ i) (path : List Nat) :
    standingAt t ⟨.setExpr, body'⟩ path = standingAt t ⟨.setExpr, body⟩ path := by
  cases path with
  | nil => rfl
  | cons i path => rw [standingAt, standingAt, hchildren, hnext]

/-- The rule leaves every expression among the operands where it was. -/
theorem standingAt_rewrite (s : Statement) (path : List Nat) :
    standingAt .statement ⟨.statement, rewrite s⟩ path =
      standingAt .statement ⟨.statement, s⟩ path := by
  rcases statement_cases s with ⟨fields, select, rfl, hbody⟩ | ⟨-, hself, -⟩
  · rw [rewrite_queryStatement hbody]
    match path with
    | [] => rfl
    | (i + 1) :: path => rfl
    | [0] => rfl
    | 0 :: i :: path =>
      change standingAt .query ⟨.query, .mk (.query { fields with body := _ })⟩ (i :: path) =
        standingAt .query ⟨.query, .mk (.query fields)⟩ (i :: path)
      have hnext : ∀ i, Standing.next .body
          ⟨.setExpr, .mk (.select (rewriteSelectWithAlias select))⟩ i =
          Standing.next .body ⟨.setExpr, .mk (.select select)⟩ i := by
        intro i
        rw [Standing.next, Standing.next, isSelectionAt_rewriteSelectWithAlias]
      have hstanding := standingAt_body (children_rewriteSelectWithAlias select) hnext path
      rw [standingAt, standingAt]
      change ((Container.partsOption fields.withClause ++ ⟨.setExpr, .mk _⟩ :: _)[i]?).elim _ _ =
        ((Container.partsOption fields.withClause ++ ⟨.setExpr, fields.body⟩ :: _)[i]?).elim _ _
      rcases Nat.lt_trichotomy i (Container.partsOption fields.withClause).length with hi | rfl | hi
      · rw [List.getElem?_append_left hi, List.getElem?_append_left hi]
        rfl
      · rw [List.getElem?_append_right (Nat.le_refl _), List.getElem?_append_right (Nat.le_refl _),
          Nat.sub_self, hbody]
        change standingAt (if _ then _ else if _ then _ else _) _ path =
          standingAt (if _ then _ else if _ then _ else _) _ path
        rw [if_neg (Nat.lt_irrefl _), if_pos rfl]
        exact hstanding
      · obtain ⟨j, hj⟩ : ∃ j, i - (Container.partsOption fields.withClause).length = j + 1 :=
          Nat.exists_eq_succ_of_ne_zero (by omega)
        rw [List.getElem?_append_right (Nat.le_of_lt hi),
          List.getElem?_append_right (Nat.le_of_lt hi), hj]
        rfl
  · rw [hself]

end Ways
end AliasDuplicatedProjectionRewrite

namespace ResolveUnqualifiedIdentifier
open AliasDuplicatedProjectionRewrite (rewriteSelectWithAlias)

section FirstRules
variable {s : Statement}

/-- What the second rule does to the names of a SELECT that the first rule comes to. -/
private def qualify (table : String) (select : Select Node) : Expr → Expr :=
  rewriteExpr table (getTableAliases (rewriteSelectWithAlias select).fromClause)
    (getProjectionAliases (rewriteSelectWithAlias select).projection)

/-- The second rule comes to the names of the SELECT that is the statement. -/
private structure Reaches (s : Statement) (select : Select Node) : Prop where
  body : ∃ fields, s = queryStatement fields ∧ fields.body = .mk (.select select)
  wildcard : getQualifiedWildcardAlias select.projection ≠ none
  tables : getTableAliases select.fromClause ≠ []

private theorem rewrite_aliased_cases (s : Statement) :
    rewrite (AliasDuplicatedProjectionRewrite.rewrite s) =
        AliasDuplicatedProjectionRewrite.rewrite s ∨
    ∃ select table, Reaches s select ∧ rewrite (AliasDuplicatedProjectionRewrite.rewrite s) =
      resolved (qualify table select) .statement .statement
        (AliasDuplicatedProjectionRewrite.rewrite s) := by
  rcases statement_cases s with ⟨fields, select, rfl, hbody⟩ | ⟨-, haliased, hself⟩
  · rw [AliasDuplicatedProjectionRewrite.rewrite_queryStatement hbody, rewrite_queryStatement,
      rewriteUnqualifiedIdentifiers_of rfl]
    split
    · rename_i table htable
      rw [AliasDuplicatedProjectionRewrite.wildcardTables_rewriteSelectWithAlias] at htable
      dsimp only
      split
      · exact .inl rfl
      · rename_i htables
        refine .inr ⟨select, table, ⟨⟨fields, rfl, hbody⟩, ?_, fun hnil => htables ?_⟩, rfl⟩
        · rw [getQualifiedWildcardAlias, htable]
          exact Option.some_ne_none table
        · rw [AliasDuplicatedProjectionRewrite.fromClause_rewriteSelectWithAlias, hnil]
          rfl
    · exact .inl rfl
  · rw [haliased, hself]
    exact .inl rfl

private theorem qualify_cases (table : String) {select : Select Node} {path : List Nat}
    (h : Reaches s select) (hoperand : standingAt .statement ⟨.statement, s⟩ path = .operand)
    (ident : Ident) :
    (QualifiedAt s path ident ∧ qualify table select (.mk (.identifier ident)) =
      .mk (.compoundIdentifier [Ident.new table, ident])) ∨
    qualify table select (.mk (.identifier ident)) = .mk (.identifier ident) := by
  rw [qualify, rewriteExpr, AliasDuplicatedProjectionRewrite.fromClause_rewriteSelectWithAlias]
  split
  · rename_i hnot
    refine .inl ⟨⟨select, h.body, h.wildcard, h.tables, hoperand, hnot.1, ?_⟩, rfl⟩
    intro e aliasName hitem heq
    refine hnot.2 ?_
    rw [← heq]
    exact AliasDuplicatedProjectionRewrite.mem_aliases_rewriteSelectWithAlias select hitem
  · exact .inr rfl

/-- A name that gets no qualifier stays as it is where it is. -/
theorem partWay_rewrite {ident : Ident} {way : List (Crossing × Nat)}
    (h : PartWay ⟨.statement, s⟩ way ⟨.expr, .mk (.identifier ident)⟩)
    (hnot : ¬ QualifiedAt s (way.map Prod.snd) ident) :
    PartWay ⟨.statement, rewrite (AliasDuplicatedProjectionRewrite.rewrite s)⟩ way
      ⟨.expr, .mk (.identifier ident)⟩ := by
  have haliased := (AliasDuplicatedProjectionRewrite.partWay_rewrite_iff rfl).mpr h
  rcases rewrite_aliased_cases s with hself | ⟨select, table, hreaches, hrewrite⟩
  · rwa [hself]
  have hway := partWay_resolved table (getTableAliases (rewriteSelectWithAlias select).fromClause)
    (getProjectionAliases (rewriteSelectWithAlias select).projection) haliased .statement
  rw [AliasDuplicatedProjectionRewrite.standingAt_rewrite] at hway
  rw [hrewrite]
  cases hstanding : standingAt .statement ⟨.statement, s⟩ (way.map Prod.snd) with
  | operand =>
    rw [hstanding] at hway
    rcases qualify_cases table hreaches hstanding ident with ⟨hqualified, -⟩ | hkeep
    · exact absurd hqualified hnot
    · change PartWay _ way ⟨.expr, qualify table select (.mk (.identifier ident))⟩ at hway
      rwa [hkeep] at hway
  | _ =>
    rw [hstanding] at hway
    exact hway

private theorem column_of_qualify {p : Ident → Bool} {table : String} {select : Select Node}
    {e : Expr} (h : namesColumn p ⟨.expr, qualify table select e⟩) :
    qualify table select e = e ∨ ∃ ident, e = .mk (.identifier ident) := by
  obtain ⟨form⟩ := e
  cases form with
  | identifier ident => exact .inr ⟨ident, rfl⟩
  | binaryOp left op right =>
    rw [qualify, rewriteExpr] at h
    cases h
  | _ =>
    rw [qualify, rewriteExpr.eq_3 _ _ _ _ (by rintro _ ⟨⟩) (by rintro _ _ _ ⟨⟩)]
    exact .inl rfl

/-- A column reference was there before, or is a name that got its qualifier. -/
theorem column_of_rewrite {p : Ident → Bool} {m : Σ k, Node k}
    (h : m ∈ nodes (rewrite (AliasDuplicatedProjectionRewrite.rewrite s)))
    (hm : namesColumn p m) :
    m ∈ nodes s ∨ ∃ path table ident,
      m = ⟨.expr, .mk (.compoundIdentifier [Ident.new table, ident])⟩ ∧
      s.nodeAt path = some ⟨.expr, .mk (.identifier ident)⟩ ∧ QualifiedAt s path ident := by
  have hexpr : m.1 = .expr := by
    rcases column_cases hm with ⟨ident, rfl⟩ | ⟨idents, rfl⟩ <;> rfl
  obtain ⟨path, hpath⟩ := mem_nodes_iff_nodeAt.mp h
  have hbefore : ∀ {m : Σ k, Node k}, m.1 = .expr →
      (AliasDuplicatedProjectionRewrite.rewrite s).nodeAt path = some m → s.nodeAt path = some m :=
    fun hm => (AliasDuplicatedProjectionRewrite.nodeAt_rewrite_iff hm).mp
  rcases rewrite_aliased_cases s with hself | ⟨select, table, hreaches, hrewrite⟩
  · rw [hself] at hpath
    exact .inl (mem_nodes_iff_nodeAt.mpr ⟨path, hbefore hexpr hpath⟩)
  rw [hrewrite] at hpath
  obtain ⟨⟨k, n⟩, hnode, rfl⟩ := Option.map_eq_some_iff.mp
    ((nodeAt_resolved table (getTableAliases (rewriteSelectWithAlias select).fromClause)
      (getProjectionAliases (rewriteSelectWithAlias select).projection) .statement
      ⟨.statement, AliasDuplicatedProjectionRewrite.rewrite s⟩ path).symm.trans hpath)
  cases hexpr
  rw [AliasDuplicatedProjectionRewrite.standingAt_rewrite] at hm ⊢
  replace hnode := hbefore rfl hnode
  cases hstanding : standingAt .statement ⟨.statement, s⟩ path with
  | operand =>
    rw [hstanding] at hm
    change namesColumn p ⟨.expr, qualify table select n⟩ at hm
    change ⟨.expr, qualify table select n⟩ ∈ nodes s ∨ ∃ path' table' ident',
      (⟨.expr, qualify table select n⟩ : Σ k, Node k) = _ ∧ _
    rcases column_of_qualify hm with hkeep | ⟨ident, rfl⟩
    · rw [hkeep]
      exact .inl (mem_nodes_iff_nodeAt.mpr ⟨path, hnode⟩)
    · rcases qualify_cases table hreaches hstanding ident with ⟨hqualified, hnew⟩ | hkeep
      · rw [hnew]
        exact .inr ⟨path, table, ident, rfl, hnode, hqualified⟩
      · rw [hkeep]
        exact .inl (mem_nodes_iff_nodeAt.mpr ⟨path, hnode⟩)
  | _ => exact .inl (mem_nodes_iff_nodeAt.mpr ⟨path, hnode⟩)

end FirstRules
end ResolveUnqualifiedIdentifier
end DatafusionPostgres.Sql
