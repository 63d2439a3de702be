import DatafusionPostgres.Sql.NameResolution
import DatafusionPostgres.Sql.Shapes

/-! What the first two rules look at: the items of a single SELECT, the aliases of its tables,
and the expressions of WHERE and ORDER BY. -/
namespace DatafusionPostgres.Sql
open DatafusionPostgres.Library

section Outlines

inductive Item
  | unnamed (shape : Shape)
  | named (aliasName : String)
  | qualified (table : String)
  | wildcard
  | other

def Item.of : SelectItem Node → Item
  | .unnamedExpr e => .unnamed (shape .expr e)
  | .exprWithAlias _ aliasName => .named aliasName.value
  | .qualifiedWildcard (.objectName name) _ => .qualified (joinIdents name)
  | .wildcard _ => .wildcard
  | _ => .other

structure Outline where
  items : List Item
  tables : List String
  exprs : List Shape

/-- The expressions of WHERE and ORDER BY. -/
def resolvedExprs (fields : QueryFields Node) (select : Select Node) : List Expr :=
  select.selection.toList ++ (orderByExprs fields.orderBy).map OrderByExpr.expr

def Outline.of (fields : QueryFields Node) (select : Select Node) : Outline where
  items := select.projection.map Item.of
  tables := ResolveUnqualifiedIdentifier.getTableAliases select.fromClause
  exprs := (resolvedExprs fields select).map (shape .expr)

def outline? : Statement → Option Outline
  | .mk (.statementQuery (.mk (.query fields))) =>
    match fields.body with
    | .mk (.select select) => some (.of fields select)
    | _ => none
  | _ => none

theorem outline_select {fields : QueryFields Node} {select : Select Node}
    (h : fields.body = .mk (.select select)) :
    outline? (queryStatement fields) = some (.of fields select) := by
  rw [queryStatement, outline?, h]

theorem outline_none {fields : QueryFields Node} (h : ∀ select, fields.body ≠ .mk (.select select)) :
    outline? (queryStatement fields) = none := by
  rw [queryStatement, outline?]
  split
  · rename_i select hselect
    exact absurd hselect (h select)
  · rfl

variable {fields : QueryFields Node} {select : Select Node}

private theorem mem_nodes_body : ∀ m ∈ nodes fields.body, m ∈ nodes (queryStatement fields) := by
  intro m hm
  refine mem_nodes_of_mem_children (List.mem_singleton_self _) ?_
  exact mem_nodes_of_mem_children (c := ⟨.setExpr, fields.body⟩)
    (List.mem_append_right _ List.mem_cons_self) hm

theorem mem_nodes_resolvedExprs (h : fields.body = .mk (.select select)) {e : Expr}
    (he : e ∈ resolvedExprs fields select) : ⟨.expr, e⟩ ∈ nodes (queryStatement fields) := by
  rcases List.mem_append.mp he with he | he
  · refine mem_nodes_body _ ?_
    rw [h]
    refine mem_nodes_of_mem_children (c := ⟨.expr, e⟩) ?_ (mem_nodes_self e)
    refine List.mem_append_right _ (List.mem_append_right _ (List.mem_append_left _ ?_))
    rw [Option.mem_toList.mp he]
    exact List.mem_singleton_self _
  · obtain ⟨orderByExpr, horderBy, rfl⟩ := List.mem_map.mp he
    refine mem_nodes_of_mem_children (List.mem_singleton_self _) ?_
    refine mem_nodes_of_mem_children (c := ⟨.expr, orderByExpr.expr⟩) ?_ (mem_nodes_self _)
    refine List.mem_append_right _ (List.mem_cons_of_mem _ (List.mem_append_left _ ?_))
    unfold orderByExprs at horderBy
    split at horderBy
    · rename_i exprs rest heq
      rw [heq]
      refine List.mem_append_left _ (List.mem_flatMap.mpr ⟨orderByExpr, horderBy, ?_⟩)
      exact List.mem_cons_self
    · exact absurd horderBy List.not_mem_nil

theorem mem_nodes_item (h : fields.body = .mk (.select select)) {item : SelectItem Node}
    (hitem : item ∈ select.projection) {c : Σ k, Node k} (hc : c ∈ Container.parts item) :
    c ∈ nodes (queryStatement fields) := by
  refine mem_nodes_body _ ?_
  rw [h]
  refine mem_nodes_of_mem_children (c := c) ?_ (mem_nodes_self c.2)
  exact List.mem_append_left _ (List.mem_flatMap.mpr ⟨item, hitem, hc⟩)

end Outlines

section Visits
variable {v : Visitor Node}

private theorem resolvedExprs_map (f : ∀ k, Node k → Node k) (fields : QueryFields Node)
    (select : Select Node) :
    resolvedExprs (Container.map f fields) (Container.map f select) =
      (resolvedExprs fields select).map (f .expr) := by
  obtain ⟨withClause, body, orderBy, limitClause, fetch, rest⟩ := fields
  obtain ⟨projection, fromClause, selection, rest⟩ := select
  have hselection : (Container.mapOption (C := Container.One Kind.expr) f selection).toList =
      selection.toList.map (f .expr) := by
    cases selection <;> rfl
  have horderBy : (orderByExprs (Container.mapOption f orderBy)).map OrderByExpr.expr =
      ((orderByExprs orderBy).map OrderByExpr.expr).map (f .expr) := by
    rcases orderBy with _ | ⟨_ | exprs, rest⟩
    · rfl
    · rfl
    · change (exprs.map _).map _ = (exprs.map _).map _
      rw [List.map_map, List.map_map]
      rfl
  exact (congrArg₂ (· ++ ·) hselection horderBy).trans List.map_append.symm

theorem tableAliases_map {f : ∀ k, Node k → Node k}
    (halias : ∀ t, ResolveUnqualifiedIdentifier.tableAlias? (f .tableFactor t) =
      ResolveUnqualifiedIdentifier.tableAlias? t) (tables : List (TableWithJoins Node)) :
    ResolveUnqualifiedIdentifier.getTableAliases (Container.mapList f tables) =
      ResolveUnqualifiedIdentifier.getTableAliases tables := by
  rw [ResolveUnqualifiedIdentifier.getTableAliases, Container.mapList, List.flatMap_map]
  refine List.flatMap_congr fun twj _ => ?_
  have hrelations : (Container.map f twj).relation :: (Container.map f twj).joins.map Join.relation
      = (twj.relation :: twj.joins.map Join.relation).map (f .tableFactor) := by
    change _ :: (twj.joins.map _).map _ = _ :: (twj.joins.map _).map _
    rw [List.map_map, List.map_map]
    rfl
  rw [hrelations, List.filterMap_map]
  exact List.filterMap_congr fun t _ => halias t

theorem tableAlias_map (f : ∀ k, Node k → Node k) (t : TableFactor) :
    ResolveUnqualifiedIdentifier.tableAlias? (Trees.roll (Forms.map f (Trees.form t))) =
      ResolveUnqualifiedIdentifier.tableAlias? t := by
  obtain ⟨form⟩ := t
  cases form with
  | table name aliasName args rest => cases aliasName <;> rfl
  | _ => rfl

theorem tableAlias_visit (h : ∀ t, ResolveUnqualifiedIdentifier.tableAlias?
    (v.pre .tableFactor t) = ResolveUnqualifiedIdentifier.tableAlias? t) (t : TableFactor) :
    ResolveUnqualifiedIdentifier.tableAlias? (v.visit .tableFactor t) =
      ResolveUnqualifiedIdentifier.tableAlias? t := by
  rw [v.visit_eq, tableAlias_map, h]

theorem mapItems_id (q : Query) : mapItems (fun item => item) q = q := by
  obtain ⟨⟨withClause, ⟨body⟩, orderBy, limitClause, fetch, rest⟩, rfl⟩ := query_eq_mk q
  cases body with
  | select select =>
    rw [mapItems, mapProjection, List.map_id']
  | _ => rfl

theorem visit_queryFields {f : SelectItem Node → SelectItem Node}
    (hquery : ∀ q, v.pre .query q = mapItems f q) (fields : QueryFields Node) :
    v.visit .query (.mk (.query fields)) = .mk (.query (Container.map v.visit
      { fields with body := mapProjection f fields.body })) := by
  rw [v.visit_eq, hquery]
  rfl

theorem visit_setExpr (hbody : ∀ body, v.pre .setExpr body = body) (form : Form Node .setExpr) :
    v.visit .setExpr (.mk form) = .mk (Forms.map v.visit form) := by
  rw [v.visit_eq, hbody]
  rfl

/-- What a visitor makes of the outline, when it changes nothing but items at the queries. -/
theorem outline_visit {f : SelectItem Node → SelectItem Node} {g : Item → Item}
    {tr : Shape → Shape} {P : Expr → Prop} (hstatement : ∀ s, v.pre .statement s = s)
    (hquery : ∀ q, v.pre .query q = mapItems f q) (hbody : ∀ body, v.pre .setExpr body = body)
    (halias : ∀ t, ResolveUnqualifiedIdentifier.tableAlias? (v.visit .tableFactor t) =
      ResolveUnqualifiedIdentifier.tableAlias? t)
    (hitem : ∀ item, (∀ e, ⟨.expr, e⟩ ∈ Container.parts item → P e) →
      Item.of (Container.map v.visit (f item)) = g (Item.of item))
    (hshape : ∀ e, P e → shape .expr (v.visit .expr e) = tr (shape .expr e)) {s : Statement}
    (hs : ∀ e, ⟨.expr, e⟩ ∈ nodes s → P e) :
    outline? (v.visit .statement s) =
      (outline? s).map fun o => ⟨o.items.map g, o.tables, o.exprs.map tr⟩ := by
  obtain ⟨form⟩ := s
  cases form with
  | otherStatement rest =>
    rw [v.visit_eq, hstatement]
    rfl
  | statementQuery q =>
    obtain ⟨fields, rfl⟩ := query_eq_mk q
    change outline? (v.visit .statement (queryStatement fields)) = (outline? (queryStatement fields)).map _
    have hvisit : v.visit .statement (queryStatement fields) =
        queryStatement (Container.map v.visit
          { fields with body := mapProjection f fields.body }) := by
      rw [queryStatement, v.visit_eq, hstatement]
      exact congrArg (fun q => Node.mk (.statementQuery q)) (visit_queryFields hquery fields)
    rw [hvisit]
    cases hform : fields.body with
    | mk form =>
      cases form with
      | select select =>
        have hselect : (Container.map v.visit
            { fields with body := mapProjection f (.mk (.select select)) }).body =
            .mk (.select (Container.map v.visit
              { select with projection := select.projection.map f })) := visit_setExpr hbody _
        rw [outline_select hselect, outline_select hform, Option.map_some, Option.some.injEq,
          Outline.of, Outline.of, resolvedExprs_map, Outline.mk.injEq]
        refine ⟨?_, tableAliases_map halias _, ?_⟩
        · change ((select.projection.map f).map _).map Item.of = (select.projection.map Item.of).map g
          rw [List.map_map, List.map_map, List.map_map]
          exact List.map_congr_left fun item hitem' => hitem item fun e he =>
            hs e (mem_nodes_item hform hitem' he)
        · have hsame : resolvedExprs { fields with body := mapProjection f (.mk (.select select)) }
              { select with projection := select.projection.map f } =
              resolvedExprs fields select := rfl
          rw [hsame, List.map_map, List.map_map]
          exact List.map_congr_left fun e he => hshape e (hs e (mem_nodes_resolvedExprs hform he))
      | _ =>
        have hnone : outline? (queryStatement fields) = none := outline_none (by rw [hform]; nofun)
        rw [hnone, outline_none]
        · rfl
        · intro select
          change v.visit .setExpr (.mk _) ≠ _
          rw [visit_setExpr hbody]
          nofun

/-- What a change of shapes does to an outline. -/
def Item.map (tr : Shape → Shape) : Item → Item
  | .unnamed s => .unnamed (tr s)
  | item => item

def Outline.map (tr : Shape → Shape) (o : Outline) : Outline :=
  ⟨o.items.map (Item.map tr), o.tables, o.exprs.map tr⟩

theorem outline_visit_of_keep {tr : Shape → Shape} {P : Expr → Prop}
    (hstatement : ∀ s, v.pre .statement s = s) (hquery : ∀ q, v.pre .query q = q)
    (hbody : ∀ body, v.pre .setExpr body = body)
    (halias : ∀ t, ResolveUnqualifiedIdentifier.tableAlias? (v.pre .tableFactor t) =
      ResolveUnqualifiedIdentifier.tableAlias? t)
    (hshape : ∀ e, P e → shape .expr (v.visit .expr e) = tr (shape .expr e)) {s : Statement}
    (hs : ∀ e, ⟨.expr, e⟩ ∈ nodes s → P e) :
    outline? (v.visit .statement s) = (outline? s).map (Outline.map tr) := by
  refine outline_visit (f := fun item => item) hstatement (fun q => ?_) hbody
    (tableAlias_visit halias) (fun item hitem => ?_) hshape hs
  · rw [hquery, mapItems_id]
  · cases item with
    | unnamedExpr e => exact congrArg Item.unnamed (hshape e (hitem e (List.mem_singleton_self _)))
    | qualifiedWildcard kind rest => cases kind <;> rfl
    | _ => rfl

end Visits

section TopRules

namespace Shape

def aliasPartial (wildcardTables : List String) : Shape → Option Ident
  | .identifier ident => some ident
  | .compoundIdentifier idents =>
    if 1 < idents.length ∧ joinIdents idents.dropLast ∈ wildcardTables then idents.getLast?
    else none
  | _ => none

def resolve (wildcardAlias : String) (tables aliases : List String) : Shape → Shape
  | .identifier ident =>
    if ident.value ∉ tables ∧ ident.value ∉ aliases then
      .compoundIdentifier [Ident.new wildcardAlias, ident]
    else .identifier ident
  | .binaryOp left right =>
    .binaryOp (resolve wildcardAlias tables aliases left) (resolve wildcardAlias tables aliases right)
  | s => s

/-- The names that are reached through binary operators. -/
def spine : Shape → List Ident
  | .identifier ident => [ident]
  | .binaryOp left right => left.spine ++ right.spine
  | _ => []

end Shape

theorem aliasPartial_shape (wildcardTables : List String) (e : Expr) :
    AliasDuplicatedProjectionRewrite.aliasPartial wildcardTables e =
      (shape .expr e).aliasPartial wildcardTables := by
  obtain ⟨form⟩ := e
  rw [shape_mk]
  cases form with
  | value value =>
    change none = (Shape.ofValue value).aliasPartial wildcardTables
    unfold Shape.ofValue
    split <;> rfl
  | function call =>
    change none = (if _ then _ else _ : Shape).aliasPartial wildcardTables
    split <;> rfl
  | _ => rfl

theorem shape_rewriteExpr (wildcardAlias : String) (tables aliases : List String) (e : Expr) :
    shape .expr (ResolveUnqualifiedIdentifier.rewriteExpr wildcardAlias tables aliases e) =
      (shape .expr e).resolve wildcardAlias tables aliases := by
  fun_induction ResolveUnqualifiedIdentifier.rewriteExpr with
  | case1 ident h => rw [shape_mk, shape_mk]; exact (if_pos h).symm
  | case2 ident h => rw [shape_mk]; exact (if_neg h).symm
  | case3 left op right ihleft ihright =>
    rw [shape_mk, shape_mk]
    exact congrArg₂ Shape.binaryOp ihleft ihright
  | case4 e hidentifier hbinaryOp =>
    cases hshape : shape .expr e with
    | identifier ident => exact absurd (shape_eq_identifier hshape) (hidentifier ident)
    | binaryOp left right =>
      obtain ⟨l, op, r, rfl, -, -⟩ := shape_eq_binaryOp hshape
      exact absurd rfl (hbinaryOp l op r)
    | _ => rfl

theorem rewriteExpr_eq_self {wildcardAlias : String} {tables aliases : List String} {e : Expr}
    (h : ∀ ident ∈ (shape .expr e).spine, ident.value ∈ tables ∨ ident.value ∈ aliases) :
    ResolveUnqualifiedIdentifier.rewriteExpr wildcardAlias tables aliases e = e := by
  fun_induction ResolveUnqualifiedIdentifier.rewriteExpr with
  | case1 ident hident =>
    rw [shape_mk] at h
    rcases h ident (List.mem_singleton_self _) with htable | halias
    · exact absurd htable hident.1
    · exact absurd halias hident.2
  | case2 ident _ => rfl
  | case3 left op right ihleft ihright =>
    rw [shape_mk] at h
    obtain ⟨hleft, hright⟩ := List.forall_mem_append.mp h
    rw [ihleft hleft, ihright hright]
  | case4 e _ _ => rfl

namespace Item

def aliased (wildcardTables : List String) : Item → Item
  | .unnamed s =>
    match s.aliasPartial wildcardTables with
    | some name => .named ("__alias_" ++ name.display)
    | none => .unnamed s
  | item => item

def table? : Item → Option String
  | .qualified table => some table
  | _ => none

def isWildcard : Item → Bool
  | .wildcard => true
  | _ => false

def aliasName? : Item → Option String
  | .named aliasName => some aliasName
  | .unnamed (.identifier ident) => some ident.value
  | _ => none

theorem of_aliasItem (wildcardTables : List String) (item : SelectItem Node) :
    Item.of (AliasDuplicatedProjectionRewrite.aliasItem wildcardTables item) =
      (Item.of item).aliased wildcardTables := by
  cases item with
  | unnamedExpr e =>
    rw [AliasDuplicatedProjectionRewrite.aliasItem, aliasPartial_shape, Item.of, aliased]
    cases (shape .expr e).aliasPartial wildcardTables <;> rfl
  | qualifiedWildcard kind rest => cases kind <;> rfl
  | _ => rfl

theorem table_of (item : SelectItem Node) : (Item.of item).table? = wildcardTable? item := by
  cases item with
  | qualifiedWildcard kind rest => cases kind <;> rfl
  | _ => rfl

theorem isWildcard_of (item : SelectItem Node) :
    (Item.of item).isWildcard = AliasDuplicatedProjectionRewrite.isWildcard item := by
  cases item with
  | qualifiedWildcard kind rest => cases kind <;> rfl
  | _ => rfl

theorem aliasName_of (item : SelectItem Node) :
    (Item.of item).aliasName? = ResolveUnqualifiedIdentifier.projectionAlias? item := by
  cases item with
  | unnamedExpr e =>
    obtain ⟨form⟩ := e
    rw [Item.of, shape_mk]
    cases form with
    | value value =>
      change aliasName? (.unnamed (Shape.ofValue value)) = none
      unfold Shape.ofValue
      split <;> rfl
    | function call =>
      change aliasName? (.unnamed (if _ then _ else _)) = none
      split <;> rfl
    | _ => rfl
  | qualifiedWildcard kind rest => cases kind <;> rfl
  | _ => rfl

end Item

namespace Outline

def wildcardTables (o : Outline) : List String := o.items.filterMap Item.table?

def hasWildcard (o : Outline) : Bool :=
  !o.wildcardTables.isEmpty || o.items.any Item.isWildcard

def aliases (o : Outline) : List String := o.items.filterMap Item.aliasName?

def aliased (o : Outline) : Outline :=
  if o.hasWildcard then { o with items := o.items.map (Item.aliased o.wildcardTables) } else o

def resolved (o : Outline) : Outline :=
  match o.wildcardTables with
  | [table] =>
    if o.tables.isEmpty then o
    else { o with exprs := o.exprs.map (Shape.resolve table o.tables o.aliases) }
  | _ => o

variable (fields : QueryFields Node) (select : Select Node)

theorem wildcardTables_of :
    (Outline.of fields select).wildcardTables = select.projection.filterMap wildcardTable? := by
  rw [wildcardTables, Outline.of, List.filterMap_map]
  exact List.filterMap_congr fun item _ => Item.table_of item

theorem aliases_of : (Outline.of fields select).aliases =
    ResolveUnqualifiedIdentifier.getProjectionAliases select.projection := by
  rw [aliases, Outline.of, List.filterMap_map]
  exact List.filterMap_congr fun item _ => Item.aliasName_of item

theorem hasWildcard_of : (Outline.of fields select).hasWildcard =
    !((select.projection.filterMap wildcardTable?).isEmpty &&
      !select.projection.any AliasDuplicatedProjectionRewrite.isWildcard) := by
  rw [hasWildcard, wildcardTables_of, Outline.of, List.any_map, Bool.not_and, Bool.not_not]
  refine congrArg (_ || ·) (congrArg (List.any _) (funext fun item => ?_))
  exact Item.isWildcard_of item

end Outline

/-- A statement that the first two rules look into, or one that they leave alone. -/
theorem statement_cases (s : Statement) :
    (∃ fields select, s = queryStatement fields ∧ fields.body = .mk (.select select)) ∨
    (outline? s = none ∧ AliasDuplicatedProjectionRewrite.rewrite s = s ∧
      ResolveUnqualifiedIdentifier.rewrite s = s) := by
  obtain ⟨form⟩ := s
  cases form with
  | otherStatement rest => exact .inr ⟨rfl, rfl, rfl⟩
  | statementQuery q =>
    obtain ⟨⟨withClause, ⟨body⟩, orderBy, limitClause, fetch, rest⟩, rfl⟩ := query_eq_mk q
    cases body with
    | select select => exact .inl ⟨_, select, rfl, rfl⟩
    | _ => exact .inr ⟨rfl, rfl, rfl⟩

namespace AliasDuplicatedProjectionRewrite

theorem rewrite_queryStatement {fields : QueryFields Node} {select : Select Node}
    (h : fields.body = .mk (.select select)) :
    rewrite (queryStatement fields) =
      queryStatement { fields with body := .mk (.select (rewriteSelectWithAlias select)) } := by
  rw [queryStatement, rewrite, h]
  rfl

theorem parts_aliasItem (wildcardTables : List String) (item : SelectItem Node) :
    Container.parts (aliasItem wildcardTables item) = Container.parts item := by
  cases item with
  | unnamedExpr e =>
    rw [aliasItem]
    split <;> rfl
  | _ => rfl

theorem rewriteSelectWithAlias_of (fields : QueryFields Node) (select : Select Node) :
    rewriteSelectWithAlias select =
      let f := aliasItem (select.projection.filterMap wildcardTable?)
      if (Outline.of fields select).hasWildcard then
        { select with projection := select.projection.map f }
      else select := by
  rw [rewriteSelectWithAlias, Outline.hasWildcard_of]
  dsimp only
  split
  · rename_i h
    rw [h]
    rfl
  · rename_i h
    rw [Bool.eq_false_iff.mpr h]
    rfl

theorem outline_rewrite (s : Statement) :
    outline? (rewrite s) = (outline? s).map Outline.aliased := by
  rcases statement_cases s with ⟨fields, select, rfl, h⟩ | ⟨hnone, hself, -⟩
  · rw [rewrite_queryStatement h, outline_select rfl, outline_select h, Option.map_some,
      rewriteSelectWithAlias_of fields, Outline.aliased]
    split
    · rw [Outline.wildcardTables_of, Option.some.injEq, Outline.of, Outline.mk.injEq]
      refine ⟨?_, rfl, rfl⟩
      change (select.projection.map _).map Item.of = (select.projection.map Item.of).map _
      rw [List.map_map, List.map_map]
      exact List.map_congr_left fun item _ => Item.of_aliasItem _ item
    · rfl
  · rw [hself, hnone]
    rfl

theorem rewrite_eq_self {s : Statement} (h : ∀ o, outline? s = some o → o.hasWildcard →
    ∀ t, .unnamed t ∈ o.items → t.aliasPartial o.wildcardTables = none) : rewrite s = s := by
  rcases statement_cases s with ⟨fields, select, rfl, hbody⟩ | ⟨-, hself, -⟩
  · have hselect : rewriteSelectWithAlias select = select := by
      rw [rewriteSelectWithAlias_of fields]
      dsimp only
      split
      · rename_i hwildcard
        have hitems : select.projection.map
            (aliasItem (select.projection.filterMap wildcardTable?)) = select.projection := by
          refine (List.map_congr_left fun item hitem => ?_).trans (List.map_id' _)
          cases item with
          | unnamedExpr e =>
            have hnone := h _ (outline_select hbody) hwildcard (shape .expr e)
              (List.mem_map.mpr ⟨_, hitem, rfl⟩)
            rw [Outline.wildcardTables_of] at hnone
            rw [aliasItem, aliasPartial_shape, hnone]
          | _ => rfl
        rw [hitems]
      · rfl
    rw [rewrite_queryStatement hbody, hselect, ← hbody]
  · exact hself

theorem forall_nodes_rewrite {P : (Σ k, Node k) → Prop} (hstatement : ∀ s, P ⟨.statement, s⟩)
    (hquery : ∀ q, P ⟨.query, q⟩) (hbody : ∀ body, P ⟨.setExpr, body⟩) {s : Statement}
    (h : ∀ m ∈ nodes s, P m) : ∀ m ∈ nodes (rewrite s), P m := by
  rcases statement_cases s with ⟨fields, select, rfl, hselect⟩ | ⟨-, hself, -⟩
  · rw [rewrite_queryStatement hselect, rewriteSelectWithAlias_of fields]
    dsimp only
    split
    · refine forall_nodes_iff.mpr ⟨hstatement _, fun c hc => ?_⟩
      rw [List.mem_singleton.mp hc]
      have hmap : Node.mk (.query { fields with body := .mk (.select { select with
          projection := select.projection.map
            (aliasItem (select.projection.filterMap wildcardTable?)) }) }) =
          mapItems (aliasItem (select.projection.filterMap wildcardTable?))
            (.mk (.query fields)) := by
        rw [mapItems, hselect]
        rfl
      rw [hmap]
      refine forall_nodes_mapItems hquery hbody (fun item hitem c hc => ?_)
        ((forall_nodes_iff.mp h).2 ⟨.query, .mk (.query fields)⟩ (List.mem_singleton_self _))
      rw [parts_aliasItem] at hc
      exact hitem c hc
    · rwa [← hselect]
  · rwa [hself]

end AliasDuplicatedProjectionRewrite

namespace ResolveUnqualifiedIdentifier

theorem rewriteUnqualifiedIdentifiers_of {fields : QueryFields Node} {select : Select Node}
    (h : fields.body = .mk (.select select)) : rewriteUnqualifiedIdentifiers fields =
      match select.projection.filterMap wildcardTable? with
      | [table] =>
        let tables := getTableAliases select.fromClause
        let f := rewriteExpr table tables (getProjectionAliases select.projection)
        if tables.isEmpty then fields
        else { fields with
          body := .mk (.select { select with selection := select.selection.map f })
          orderBy := fields.orderBy.map (rewriteOrderBy f) }
      | _ => fields := by
  rw [rewriteUnqualifiedIdentifiers, h]
  dsimp only
  rw [getQualifiedWildcardAlias]
  cases select.projection.filterMap wildcardTable? with
  | nil => rfl
  | cons table tables => cases tables <;> rfl

private theorem orderByExprs_rewrite (f : Expr → Expr) (orderBy : Option (OrderBy Node)) :
    (orderByExprs (orderBy.map (rewriteOrderBy f))).map OrderByExpr.expr =
      ((orderByExprs orderBy).map OrderByExpr.expr).map f := by
  rcases orderBy with _ | ⟨_ | exprs, rest⟩
  · rfl
  · rfl
  · change (exprs.map _).map _ = (exprs.map _).map _
    rw [List.map_map, List.map_map]
    rfl

private theorem resolvedExprs_rewrite (f : Expr → Expr) (fields : QueryFields Node)
    (select : Select Node) :
    resolvedExprs { fields with
        body := .mk (.select { select with selection := select.selection.map f })
        orderBy := fields.orderBy.map (rewriteOrderBy f) }
      { select with selection := select.selection.map f } =
      (resolvedExprs fields select).map f := by
  have hselection : (select.selection.map f).toList = select.selection.toList.map f := by
    cases select.selection <;> rfl
  exact (congrArg₂ (· ++ ·) hselection (orderByExprs_rewrite f _)).trans List.map_append.symm

private theorem selection_map_eq_self {f : Expr → Expr} {selection : Option Expr}
    (h : ∀ e ∈ selection.toList, f e = e) : selection.map f = selection := by
  cases selection with
  | none => rfl
  | some e => rw [Option.map_some, h e (List.mem_singleton_self _)]

private theorem orderBy_map_eq_self {f : Expr → Expr} {orderBy : Option (OrderBy Node)}
    (h : ∀ e ∈ orderByExprs orderBy, f e.expr = e.expr) :
    orderBy.map (rewriteOrderBy f) = orderBy := by
  rcases orderBy with _ | ⟨_ | exprs, rest⟩
  · rfl
  · rfl
  · have hexprs : exprs.map (fun e => { e with expr := f e.expr }) = exprs := by
      refine (List.map_congr_left fun e he => ?_).trans (List.map_id' _)
      rw [h e he]
    exact congrArg (fun exprs => some (OrderBy.mk (.expressions exprs) rest)) hexprs

theorem rewrite_queryStatement (fields : QueryFields Node) :
    rewrite (queryStatement fields) = queryStatement (rewriteUnqualifiedIdentifiers fields) := rfl

theorem outline_rewrite (s : Statement) :
    outline? (rewrite s) = (outline? s).map Outline.resolved := by
  rcases statement_cases s with ⟨fields, select, rfl, h⟩ | ⟨hnone, -, hself⟩
  · rw [rewrite_queryStatement, rewriteUnqualifiedIdentifiers_of h, outline_select h,
      Option.map_some, Outline.resolved, Outline.wildcardTables_of, Outline.aliases_of]
    split
    · by_cases htables : (getTableAliases select.fromClause).isEmpty
      · have htables' : (Outline.of fields select).tables.isEmpty := htables
        dsimp only
        rw [if_pos htables, if_pos htables']
        exact outline_select h
      · have htables' : ¬ (Outline.of fields select).tables.isEmpty := htables
        dsimp only
        rw [if_neg htables, if_neg htables', outline_select rfl, Outline.of,
          resolvedExprs_rewrite, Outline.of, List.map_map, List.map_map]
        refine congrArg some (congrArg (Outline.mk _ _) (List.map_congr_left fun e _ => ?_))
        exact shape_rewriteExpr _ _ _ e
    · exact outline_select h
  · rw [hself, hnone]
    rfl

theorem rewrite_eq_self {s : Statement} (h : ∀ o table, outline? s = some o →
    o.wildcardTables = [table] → o.tables ≠ [] →
    ∀ t ∈ o.exprs, ∀ ident ∈ t.spine, ident.value ∈ o.tables ∨ ident.value ∈ o.aliases) :
    rewrite s = s := by
  rcases statement_cases s with ⟨fields, select, rfl, hbody⟩ | ⟨-, -, hself⟩
  · rw [rewrite_queryStatement, rewriteUnqualifiedIdentifiers_of hbody]
    split
    · rename_i table htable
      dsimp only
      split
      · rfl
      · rename_i htables
        have hf : ∀ e ∈ resolvedExprs fields select, rewriteExpr table
            (getTableAliases select.fromClause) (getProjectionAliases select.projection) e = e := by
          intro e he
          refine rewriteExpr_eq_self fun ident hident => ?_
          rw [← Outline.aliases_of fields select]
          refine h _ table (outline_select hbody) ?_ ?_ (shape .expr e)
            (List.mem_map.mpr ⟨e, he, rfl⟩) ident hident
          · rw [Outline.wildcardTables_of, htable]
          · exact fun hnil => htables (List.isEmpty_iff.mpr hnil)
        obtain ⟨hselection, horderBy⟩ := List.forall_mem_append.mp hf
        rw [selection_map_eq_self hselection, ← hbody, orderBy_map_eq_self fun e he =>
          horderBy e.expr (List.mem_map.mpr ⟨e, he, rfl⟩)]
    · rfl
  · exact hself

theorem forall_nodes_rewriteExpr {P : (Σ k, Node k) → Prop}
    (hcompound : ∀ idents, P ⟨.expr, .mk (.compoundIdentifier idents)⟩)
    (hbinaryOp : ∀ left op right, P ⟨.expr, .mk (.binaryOp left op right)⟩)
    (wildcardAlias : String) (tables aliases : List String) {e : Expr} (h : ∀ m ∈ nodes e, P m) :
    ∀ m ∈ nodes (rewriteExpr wildcardAlias tables aliases e), P m := by
  fun_induction rewriteExpr with
  | case1 ident _ => exact forall_nodes_iff.mpr ⟨hcompound _, nofun⟩
  | case2 ident _ => exact h
  | case3 left op right ihleft ihright =>
    have hparts := (forall_nodes_iff.mp h).2
    refine forall_nodes_iff.mpr ⟨hbinaryOp _ _ _, fun c hc => ?_⟩
    simp only [children_mk, Form.parts, List.mem_cons, List.not_mem_nil, or_false] at hc
    rcases hc with rfl | rfl
    · exact ihleft (hparts ⟨.expr, left⟩ List.mem_cons_self)
    · exact ihright (hparts ⟨.expr, right⟩ (List.mem_cons_of_mem _ List.mem_cons_self))
  | case4 e _ _ => exact h

private theorem forall_nodes_orderBy {P : (Σ k, Node k) → Prop} {f : Expr → Expr}
    (hf : ∀ e, (∀ m ∈ nodes e, P m) → ∀ m ∈ nodes (f e), P m) {orderBy : Option (OrderBy Node)}
    (h : ∀ c ∈ Container.partsOption orderBy, ∀ m ∈ nodes c.2, P m) :
    ∀ c ∈ Container.partsOption (orderBy.map (rewriteOrderBy f)), ∀ m ∈ nodes c.2, P m := by
  rcases orderBy with _ | ⟨_ | exprs, rest⟩
  · exact h
  · exact h
  · intro c hc
    rcases List.mem_append.mp hc with hc | hc
    · obtain ⟨e', he', hc⟩ := List.mem_flatMap.mp hc
      obtain ⟨e, he, rfl⟩ := List.mem_map.mp he'
      have hparts : ∀ c ∈ Container.parts e, ∀ m ∈ nodes c.2, P m := fun c hc =>
        h c (List.mem_append_left _ (List.mem_flatMap.mpr ⟨e, he, hc⟩))
      rcases List.mem_cons.mp hc with rfl | hc
      · exact hf e.expr (hparts ⟨.expr, e.expr⟩ List.mem_cons_self)
      · exact hparts c (List.mem_cons_of_mem _ hc)
    · exact h c (List.mem_append_right _ hc)

theorem forall_nodes_rewrite {P : (Σ k, Node k) → Prop} (hstatement : ∀ s, P ⟨.statement, s⟩)
    (hquery : ∀ q, P ⟨.query, q⟩) (hbody : ∀ body, P ⟨.setExpr, body⟩)
    (hcompound : ∀ idents, P ⟨.expr, .mk (.compoundIdentifier idents)⟩)
    (hbinaryOp : ∀ left op right, P ⟨.expr, .mk (.binaryOp left op right)⟩) {s : Statement}
    (h : ∀ m ∈ nodes s, P m) : ∀ m ∈ nodes (rewrite s), P m := by
  rcases statement_cases s with ⟨fields, select, rfl, hselect⟩ | ⟨-, -, hself⟩
  · rw [rewrite_queryStatement, rewriteUnqualifiedIdentifiers_of hselect]
    split
    · rename_i table htable
      dsimp only
      split
      · exact h
      · have hf := fun e => forall_nodes_rewriteExpr (e := e) hcompound hbinaryOp table
          (getTableAliases select.fromClause) (getProjectionAliases select.projection)
        have hquery' := (forall_nodes_iff.mp ((forall_nodes_iff.mp h).2
          ⟨.query, .mk (.query fields)⟩ (List.mem_singleton_self _))).2
        obtain ⟨hwith, hrest⟩ := List.forall_mem_append.mp hquery'
        obtain ⟨hbody', hrest⟩ := List.forall_mem_cons.mp hrest
        obtain ⟨horderBy, hrest⟩ := List.forall_mem_append.mp hrest
        rw [hselect] at hbody'
        obtain ⟨hprojection, hselect'⟩ := List.forall_mem_append.mp (forall_nodes_iff.mp hbody').2
        obtain ⟨hfrom, hselect'⟩ := List.forall_mem_append.mp hselect'
        obtain ⟨hselection, hselectRest⟩ := List.forall_mem_append.mp hselect'
        refine forall_nodes_iff.mpr ⟨hstatement _, fun c hc => ?_⟩
        rw [List.mem_singleton.mp hc]
        refine forall_nodes_iff.mpr ⟨hquery _, ?_⟩
        refine List.forall_mem_append.mpr ⟨hwith, List.forall_mem_cons.mpr ⟨?_,
          List.forall_mem_append.mpr ⟨forall_nodes_orderBy hf horderBy, hrest⟩⟩⟩
        refine forall_nodes_iff.mpr ⟨hbody _, List.forall_mem_append.mpr ⟨hprojection,
          List.forall_mem_append.mpr ⟨hfrom, List.forall_mem_append.mpr ⟨?_, hselectRest⟩⟩⟩⟩
        cases hsome : select.selection with
        | none => exact nofun
        | some e =>
          rw [hsome] at hselection
          intro c hc
          rw [List.mem_singleton.mp hc]
          exact hf e (hselection ⟨.expr, e⟩ (List.mem_singleton_self _))
    · exact h
  · rwa [hself]

end ResolveUnqualifiedIdentifier

end TopRules
end DatafusionPostgres.Sql
