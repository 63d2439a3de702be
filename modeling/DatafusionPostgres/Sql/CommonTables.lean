import DatafusionPostgres.Sql.Relations
import DatafusionPostgres.Sql.Rewriting

/-! Common tables: where a `WITH` clause is in scope, and which references to its tables keep
their name. -/
namespace DatafusionPostgres.Sql
open DatafusionPostgres.Library

section Scope

/-- The tables in front of the one that a part belongs to. -/
def earlierTables : List (Cte Node) → Nat → List Ident
  | [], _ => []
  | cte :: ctes, i =>
    if i < (Container.parts cte).length then []
    else cte.aliasName.name :: earlierTables ctes (i - (Container.parts cte).length)

/-- What a query's `WITH` clause brings into scope for a part of the query: all of its tables,
but for a table that is not recursive only those in front of it. -/
def withTables : (Σ k, Node k) → Nat → List Ident
  | ⟨.query, .mk (.query fields)⟩, i =>
    match fields.withClause with
    | some ⟨true, ctes⟩ => ctes.map fun cte => cte.aliasName.name
    | some ⟨false, ctes⟩ => earlierTables ctes i
    | none => []
  | _, _ => []

/-- The common tables in scope at a place. -/
def tablesInScope : (Σ k, Node k) → List Nat → List Ident
  | _, [] => []
  | n, i :: path =>
    withTables n i ++ (children n.2)[i]?.elim [] fun c => tablesInScope c path

def tableName? : (Σ k, Node k) → Option ObjectName
  | ⟨.tableFactor, .mk (.table name _ none _)⟩ => some name
  | _ => none

/-- The name that the table at a place goes by. -/
def tableNameAt (s : Statement) (path : List Nat) : Option ObjectName :=
  (s.nodeAt path).bind tableName?

/-- A table without a qualifier that stands for a common table in scope. -/
structure CommonTableReference (s : Statement) (path : List Nat) (ident : Ident) : Prop where
  name : tableNameAt s path = some [ident]
  bound : ∃ table ∈ tablesInScope ⟨.statement, s⟩ path, table.folded = ident.folded

end Scope

namespace PrependUnqualifiedPgTableName

def prependName : ObjectName → ObjectName
  | [ident] => if isPgCatalogTable ident.value then [Ident.new "pg_catalog", ident] else [ident]
  | name => name

private theorem tableName_map (f : ∀ k, Node k → Node k) {k : Kind} (n : Node k) :
    tableName? ⟨k, Trees.roll (Forms.map f (Trees.form n))⟩ = tableName? ⟨k, n⟩ := by
  obtain ⟨form⟩ := n
  cases form with
  | table name aliasName args rest => cases args <;> rfl
  | _ => rfl

private theorem tableName_preVisitTableFactor (t : TableFactor) :
    tableName? ⟨.tableFactor, preVisitTableFactor t⟩ =
      (tableName? ⟨.tableFactor, t⟩).map prependName := by
  obtain ⟨form⟩ := t
  cases form with
  | table name aliasName args rest =>
    match name, args with
    | [ident], none =>
      by_cases hcatalog : isPgCatalogTable ident.value
      · rw [preVisitTableFactor, if_pos hcatalog, tableName?, tableName?, Option.map_some,
          prependName, if_pos hcatalog]
      · rw [preVisitTableFactor, if_neg hcatalog, tableName?, Option.map_some, prependName,
          if_neg hcatalog]
    | [], args => cases args <;> rfl
    | _ :: _ :: _, args => cases args <;> rfl
    | [_], some _ => rfl
  | _ => rfl

theorem tableName_visit (n : Σ k, Node k) :
    tableName? ⟨n.1, visitor.visit n.1 n.2⟩ = (tableName? n).map prependName := by
  obtain ⟨k, n⟩ := n
  rw [visitor.visit_eq]
  refine (tableName_map _ _).trans ?_
  cases k with
  | tableFactor => exact tableName_preVisitTableFactor n
  | _ => rfl

theorem tableNameAt_rewrite (s : Statement) (path : List Nat) :
    tableNameAt (rewrite s) path = (tableNameAt s path).map prependName := by
  have hnode : (rewrite s).nodeAt path = (s.nodeAt path).map fun m => ⟨m.1, visitor.visit m.1 m.2⟩ :=
    Visitor.nodeAt_visit (fun _ => children_pre) ⟨Kind.statement, s⟩ path
  rw [tableNameAt, tableNameAt, hnode]
  cases s.nodeAt path with
  | none => rfl
  | some n => exact tableName_visit n

/-- A reference to a common table keeps its name exactly if no relation of the catalog has it. -/
theorem commonTable_kept_iff {s : Statement} {path : List Nat} {ident : Ident}
    (h : CommonTableReference s path ident) :
    tableNameAt (rewrite s) path = some [ident] ↔ isPgCatalogTable ident.value = false := by
  rw [tableNameAt_rewrite, h.name, Option.map_some, prependName]
  constructor
  · intro hname
    refine eq_false_of_ne_true fun hcatalog => ?_
    rw [if_pos hcatalog] at hname
    exact absurd hname (by simp)
  · intro hcatalog
    rw [if_neg (Bool.eq_false_iff.mp hcatalog)]

section References

/-- `WITH <name> AS (SELECT x) SELECT * FROM <name>` -/
def readsCommonTable (name : String) : Statement :=
  let x : Expr := .mk (.identifier (Ident.new "x"))
  let table : TableFactor := .mk (.table [Ident.new name] none none .none)
  let query (item : SelectItem Node) (fromClause : List (TableWithJoins Node))
      (withClause : Option (With Node)) : Query :=
    .mk (.query ⟨withClause, .mk (.select ⟨[item], fromClause, none, .none⟩), none, none, none,
      .none⟩)
  let cte : Cte Node := ⟨⟨Ident.new name, []⟩, query (.unnamedExpr x) [] none, .none⟩
  .mk (.statementQuery (query (.wildcard .none) [⟨table, []⟩] (some ⟨false, [cte]⟩)))

private theorem readsCommonTable_reference (name : String) :
    CommonTableReference (readsCommonTable name) [0, 1, 0] (Ident.new name) where
  name := rfl
  bound := ⟨Ident.new name, List.mem_singleton.mpr rfl, rfl⟩

/-- `WITH recent AS (SELECT x) SELECT * FROM recent` -/
theorem recent_kept :
    tableNameAt (rewrite (readsCommonTable "recent")) [0, 1, 0] = some [Ident.new "recent"] :=
  (commonTable_kept_iff (readsCommonTable_reference "recent")).mpr (by decide +kernel)

/-- `WITH pg_class AS (SELECT x) SELECT * FROM pg_class` reads the catalog. -/
theorem pgClass_captured :
    CommonTableReference (readsCommonTable "pg_class") [0, 1, 0] (Ident.new "pg_class") ∧
      tableNameAt (rewrite (readsCommonTable "pg_class")) [0, 1, 0] =
        some [Ident.new "pg_catalog", Ident.new "pg_class"] := by
  refine ⟨readsCommonTable_reference "pg_class", ?_⟩
  have hcatalog : isPgCatalogTable (Ident.new "pg_class").value :=
    List.any_eq_true.mpr ⟨"pg_class", by simp [pgCatalogTables], rfl⟩
  rw [tableNameAt_rewrite, (readsCommonTable_reference "pg_class").name, Option.map_some,
    prependName, if_pos hcatalog]

end References
end PrependUnqualifiedPgTableName
end DatafusionPostgres.Sql
