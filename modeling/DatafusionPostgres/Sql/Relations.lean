import DatafusionPostgres.Sql.Rules

/-! The relations of a FROM clause and the names that they go by. -/
namespace DatafusionPostgres.Sql
open DatafusionPostgres.Library

/-- A name without quotes is the same name in lower case. -/
def Ident.folded (ident : Ident) : String :=
  if ident.quoteStyle.isNone then toLowercase ident.value else ident.value

/-- The name that a relation goes by: its alias, or else the last part of a table's name. -/
def relationName? : TableFactor → Option Ident
  | .mk (.table name aliasName _ _) => (aliasName.map TableAlias.name).or name.getLast?
  | .mk (.derived _ _ aliasName _) => aliasName.map TableAlias.name
  | .mk (.nestedJoin _ aliasName) => aliasName.map TableAlias.name
  | .mk (.otherFactor aliasName _) => aliasName.map TableAlias.name

/-- The relations that a node brings in: those of a nested join that has no alias for them
all, or else itself. -/
def relationsStep : ∀ k, Node k → Form (fun _ => List TableFactor) k → List TableFactor
  | .tableFactor, _, .nestedJoin ⟨relation, joins⟩ none => relation ++ joins.flatMap Join.relation
  | .tableFactor, table, _ => [table]
  | _, _, _ => []

def relationsIn (table : TableFactor) : List TableFactor :=
  fold (M := fun _ => List TableFactor) relationsStep .tableFactor table

theorem relationsIn_table (name : ObjectName) (aliasName : Option TableAlias)
    (args : Option (Rest Node)) (rest : Rest Node) :
    relationsIn (.mk (.table name aliasName args rest)) =
      [.mk (.table name aliasName args rest)] := by
  rw [relationsIn, fold_eq]
  rfl

theorem relationsIn_nestedJoin (relation : TableFactor) (joins : List (Join Node)) :
    relationsIn (.mk (.nestedJoin ⟨relation, joins⟩ none)) =
      relationsIn relation ++ joins.flatMap fun join => relationsIn join.relation := by
  rw [relationsIn, fold_eq]
  exact congrArg (_ ++ ·) (List.flatMap_map _ _ joins)

theorem relationsIn_singleton {table : TableFactor}
    (h : ∀ twj, table ≠ .mk (.nestedJoin twj none)) : relationsIn table = [table] := by
  rw [relationsIn, fold_eq]
  obtain ⟨form⟩ := table
  cases form with
  | nestedJoin twj aliasName =>
    cases aliasName with
    | none => exact absurd rfl (h twj)
    | some aliasName => rfl
  | table => rfl
  | derived => rfl
  | otherFactor => rfl

/-- The relations of a FROM clause, in order. -/
def Select.relations (select : Select Node) : List TableFactor :=
  select.fromClause.flatMap fun twj =>
    (twj.relation :: twj.joins.map Join.relation).flatMap relationsIn

end DatafusionPostgres.Sql
