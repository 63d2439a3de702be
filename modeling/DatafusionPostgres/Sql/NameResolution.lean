import DatafusionPostgres.Sql.Relations

/-! Names without a qualifier: what they stand for in the WHERE and ORDER BY of a single SELECT,
and when the qualifier put in front of one keeps that. -/
namespace DatafusionPostgres.Sql
open DatafusionPostgres.Library

section Resolution

/-- A column of the relation with an index, or the output of the item with an index where that
is no column of a relation. -/
inductive Target
  | column (relation : Nat) (name : String)
  | output (item : Nat)

/-- Where an expression of a query stands. -/
inductive Place
  | selection
  | orderBy (i : Nat)

variable (select : Select Node) (columns : Nat → String → Prop)
  (exprName : Expr → Option String)

def HasColumn (i : Nat) (name : String) : Prop := i < select.relations.length ∧ columns i name

def Named (i : Nat) (name : String) : Prop :=
  ∃ table ident, select.relations[i]? = some table ∧ relationName? table = some ident ∧
    ident.folded = name

/-- The relations with the name have one column of that name among them. -/
def ResolvesQualified (qualifier name : Ident) (target : Target) : Prop :=
  ∃ i, target = .column i name.folded ∧ Named select i qualifier.folded ∧
    HasColumn select columns i name.folded ∧
    ∀ j, Named select j qualifier.folded → HasColumn select columns j name.folded → j = i

/-- All the relations have one column of that name among them. -/
def ResolvesColumn (name : Ident) (target : Target) : Prop :=
  ∃ i, target = .column i name.folded ∧ HasColumn select columns i name.folded ∧
    ∀ j, HasColumn select columns j name.folded → j = i

/-- The column that an expression is. -/
def IsColumn : Expr → Target → Prop
  | .mk (.identifier name), target => ResolvesColumn select columns name target
  | .mk (.compoundIdentifier idents), target =>
    ∃ front qualifier name, idents = front ++ [qualifier, name] ∧
      ResolvesQualified select columns qualifier name target
  | _, _ => False

def ItemTarget (item : Nat) (e : Expr) (target : Target) : Prop :=
  IsColumn select columns e target ∨
    (∀ target', ¬ IsColumn select columns e target') ∧ target = .output item

/-- The name of an item's output: that of the column, or what the engine makes of it. -/
def outputName : Expr → Option String
  | .mk (.identifier name) => some name.folded
  | .mk (.compoundIdentifier idents) => idents.getLast?.map Ident.folded
  | e => exprName e

/-- An item of the projection puts out the target under the name. -/
def Outputs (item : Nat) (name : String) (target : Target) : SelectItem Node → Prop
  | .unnamedExpr e => outputName exprName e = some name ∧ ItemTarget select columns item e target
  | .exprWithAlias e aliasName => aliasName.folded = name ∧ ItemTarget select columns item e target
  | .qualifiedWildcard (.objectName qualifier) _ => ∃ i ident, qualifier.getLast? = some ident ∧
    Named select i ident.folded ∧ HasColumn select columns i name ∧ target = .column i name
  | .wildcard _ => ∃ i, HasColumn select columns i name ∧ target = .column i name
  | _ => False

def IsOutput (name : String) (target : Target) : Prop :=
  ∃ k item, select.projection[k]? = some item ∧
    Outputs select columns exprName k name target item

/-- What a name without a qualifier stands for, if it is clear: in ORDER BY the only output of
the name where there is one, and else the only column. -/
def Resolves (place : Place) (name : Ident) (target : Target) : Prop :=
  match place with
  | .selection => ResolvesColumn select columns name target
  | .orderBy _ =>
    (IsOutput select columns exprName name.folded target ∧
      ∀ target', IsOutput select columns exprName name.folded target' → target' = target) ∨
    (∀ target', ¬ IsOutput select columns exprName name.folded target') ∧
      ResolvesColumn select columns name target

end Resolution

section Places

/-- The query that a statement is. -/
def queryStatement (fields : QueryFields Node) : Statement :=
  .mk (.statementQuery (.mk (.query fields)))

def selection? : SetExpr → Option Expr
  | .mk (.select select) => select.selection
  | _ => none

def orderByExprs : Option (OrderBy Node) → List (OrderByExpr Node)
  | some ⟨.expressions exprs, _⟩ => exprs
  | _ => []

def expressionAt (fields : QueryFields Node) : Place → Option Expr
  | .selection => selection? fields.body
  | .orderBy i => (orderByExprs fields.orderBy)[i]?.map OrderByExpr.expr

def partOf (e : Expr) (path : List Nat) : Option (Σ k, Node k) := nodeAt ⟨.expr, e⟩ path

/-- A part of the expression at a place. -/
def partAt (fields : QueryFields Node) (place : Place) (path : List Nat) :
    Option (Σ k, Node k) :=
  (expressionAt fields place).bind (partOf · path)

end Places

namespace ResolveUnqualifiedIdentifier

section Spine

/-- The operands of binary operators, and of those in turn. -/
def onSpine : Expr → List Nat → Bool
  | _, [] => true
  | .mk (.binaryOp left _ right), i :: path => onSpine (if i = 0 then left else right) path
  | _, _ :: _ => false

variable (wildcardAlias : String) (tableAliases projectionAliases : List String)

theorem rewriteExpr_binaryOp (left right : Expr) (op : BinaryOperator) :
    rewriteExpr wildcardAlias tableAliases projectionAliases (.mk (.binaryOp left op right)) =
      .mk (.binaryOp (rewriteExpr wildcardAlias tableAliases projectionAliases left) op
        (rewriteExpr wildcardAlias tableAliases projectionAliases right)) := by
  rw [rewriteExpr]

theorem partOf_rewriteExpr {e : Expr} {path : List Nat} {ident : Ident}
    (h : partOf e path = some ⟨.expr, .mk (.identifier ident)⟩) :
    partOf (rewriteExpr wildcardAlias tableAliases projectionAliases e) path =
      some ⟨.expr, if onSpine e path then
        rewriteExpr wildcardAlias tableAliases projectionAliases (.mk (.identifier ident))
        else .mk (.identifier ident)⟩ := by
  induction path generalizing e with
  | nil =>
    cases Option.some.inj h
    rfl
  | cons i path ih =>
    obtain ⟨form⟩ := e
    cases form with
    | binaryOp left op right =>
      rw [rewriteExpr_binaryOp]
      match i with
      | 0 => exact ih h
      | 1 => exact ih h
      | i + 2 => exact absurd h nofun
    | identifier name => exact absurd h nofun
    | _ =>
      rw [rewriteExpr.eq_3 _ _ _ _ (by rintro _ ⟨⟩) (by rintro _ _ _ ⟨⟩)]
      exact h

end Spine

section Qualifying

/-- The rule puts a qualifier in front of the name at the place. -/
structure Qualifies (fields : QueryFields Node) (select : Select Node) (place : Place)
    (path : List Nat) (ident : Ident) : Prop where
  body : fields.body = .mk (.select select)
  wildcard : getQualifiedWildcardAlias select.projection ≠ none
  tables : getTableAliases select.fromClause ≠ []
  spine : ∃ e, expressionAt fields place = some e ∧ onSpine e path
  notTable : ident.value ∉ getTableAliases select.fromClause
  notAlias : ident.value ∉ getProjectionAliases select.projection

theorem expressionAt_rewrite {fields : QueryFields Node} {select : Select Node}
    (hbody : fields.body = .mk (.select select)) {wildcardAlias : String}
    (hwildcard : getQualifiedWildcardAlias select.projection = some wildcardAlias)
    (htables : getTableAliases select.fromClause ≠ []) (place : Place) :
    expressionAt (rewriteUnqualifiedIdentifiers fields) place = (expressionAt fields place).map
      (rewriteExpr wildcardAlias (getTableAliases select.fromClause)
        (getProjectionAliases select.projection)) := by
  obtain ⟨withClause, body, orderBy, limitClause, fetch, rest⟩ := fields
  cases hbody
  have htables' : (getTableAliases select.fromClause).isEmpty = false :=
    Bool.eq_false_iff.mpr fun h => htables (List.isEmpty_iff.mp h)
  rw [rewriteUnqualifiedIdentifiers]
  dsimp only
  rw [hwildcard, htables']
  cases place with
  | selection => rfl
  | orderBy i =>
    cases orderBy with
    | none => rfl
    | some orderBy =>
      obtain ⟨kind, rest⟩ := orderBy
      cases kind with
      | all rest => rfl
      | expressions exprs =>
        change ((exprs.map _)[i]?).map OrderByExpr.expr = (exprs[i]?.map OrderByExpr.expr).map _
        rw [List.getElem?_map, Option.map_map, Option.map_map]
        rfl

private theorem rewrite_self {fields : QueryFields Node} {select : Select Node}
    (hbody : fields.body = .mk (.select select))
    (h : getQualifiedWildcardAlias select.projection = none ∨
      getTableAliases select.fromClause = []) :
    rewriteUnqualifiedIdentifiers fields = fields := by
  rw [rewriteUnqualifiedIdentifiers, hbody]
  dsimp only
  rcases h with h | h
  · rw [h]
  · rw [h]
    split <;> rfl

/-- A name at a place, and what the rule makes of it. -/
theorem partAt_rewrite {fields : QueryFields Node} {select : Select Node}
    (hbody : fields.body = .mk (.select select)) {place : Place} {path : List Nat} {ident : Ident}
    (h : partAt fields place path = some ⟨.expr, .mk (.identifier ident)⟩) :
    (¬ Qualifies fields select place path ident ∧
      partAt (rewriteUnqualifiedIdentifiers fields) place path =
        some ⟨.expr, .mk (.identifier ident)⟩) ∨
    Qualifies fields select place path ident ∧ ∃ wildcardAlias,
      getQualifiedWildcardAlias select.projection = some wildcardAlias ∧
      partAt (rewriteUnqualifiedIdentifiers fields) place path =
        some ⟨.expr, .mk (.compoundIdentifier [Ident.new wildcardAlias, ident])⟩ := by
  cases hwildcard : getQualifiedWildcardAlias select.projection with
  | none =>
    exact .inl ⟨fun hq => hq.wildcard hwildcard,
      by rwa [rewrite_self hbody (.inl hwildcard)]⟩
  | some w =>
    by_cases htables : getTableAliases select.fromClause = []
    · exact .inl ⟨fun hq => hq.tables htables, by rwa [rewrite_self hbody (.inr htables)]⟩
    obtain ⟨e, he, hpart⟩ := Option.bind_eq_some_iff.mp h
    rw [partAt, expressionAt_rewrite hbody hwildcard htables, he, Option.map_some,
      Option.bind_some, partOf_rewriteExpr _ _ _ hpart, rewriteExpr]
    by_cases hspine : onSpine e path
    · rw [if_pos hspine]
      split
      · rename_i hnot
        exact .inr ⟨⟨hbody, by rw [hwildcard]; exact Option.some_ne_none w, htables, ⟨e, he, hspine⟩, hnot.1, hnot.2⟩,
          w, rfl, rfl⟩
      · rename_i hnot
        exact .inl ⟨fun hq => hnot ⟨hq.notTable, hq.notAlias⟩, rfl⟩
    · rw [if_neg hspine]
      refine .inl ⟨fun hq => ?_, rfl⟩
      obtain ⟨e', he', hspine'⟩ := hq.spine
      cases he.symm.trans he'
      exact hspine hspine'

end Qualifying

section Keeping

/-- The name at the place is left alone, or is a qualified name of the same column. -/
def KeepsTarget (select : Select Node) (columns : Nat → String → Prop) (fields : QueryFields Node)
    (place : Place) (path : List Nat) (ident : Ident) (target : Target) : Prop :=
  partAt fields place path = some ⟨.expr, .mk (.identifier ident)⟩ ∨
    ∃ qualifier name,
      partAt fields place path = some ⟨.expr, .mk (.compoundIdentifier [qualifier, name])⟩ ∧
      ResolvesQualified select columns qualifier name target

/-- The only qualified wildcard names the relation that the column is in, and no other relation
of that name has such a column. -/
def WildcardNames (select : Select Node) (columns : Nat → String → Prop) (ident : Ident)
    (target : Target) : Prop :=
  ∃ wildcardAlias i, getQualifiedWildcardAlias select.projection = some wildcardAlias ∧
    target = .column i ident.folded ∧ Named select i (toLowercase wildcardAlias) ∧
    ∀ j, Named select j (toLowercase wildcardAlias) → HasColumn select columns j ident.folded →
      j = i

private theorem hasColumn_of_resolvesColumn {select : Select Node}
    {columns : Nat → String → Prop} {ident : Ident} {i : Nat} {name : String}
    (h : ResolvesColumn select columns ident (.column i name)) : HasColumn select columns i name := by
  obtain ⟨j, htarget, hhas, -⟩ := h
  cases htarget
  exact hhas

private theorem hasColumn_of_itemTarget {select : Select Node} {columns : Nat → String → Prop}
    {item : Nat} {e : Expr} {i : Nat} {name : String}
    (h : ItemTarget select columns item e (.column i name)) : HasColumn select columns i name := by
  rcases h with h | ⟨-, h⟩
  · unfold IsColumn at h
    split at h
    · exact hasColumn_of_resolvesColumn h
    · obtain ⟨front, qualifier, ident, -, j, htarget, -, hhas, -⟩ := h
      cases htarget
      exact hhas
    · exact h.elim
  · exact absurd h nofun

private theorem hasColumn_of_outputs {select : Select Node} {columns : Nat → String → Prop}
    {exprName : Expr → Option String} {k : Nat} {output : String} {item : SelectItem Node} {i : Nat}
    {name : String} (h : Outputs select columns exprName k output (.column i name) item) :
    HasColumn select columns i name := by
  unfold Outputs at h
  split at h
  · exact hasColumn_of_itemTarget h.2
  · exact hasColumn_of_itemTarget h.2
  · obtain ⟨j, ident, -, -, hhas, htarget⟩ := h
    cases htarget
    exact hhas
  · obtain ⟨j, hhas, htarget⟩ := h
    cases htarget
    exact hhas
  · exact h.elim

theorem hasColumn_of_resolves {select : Select Node} {columns : Nat → String → Prop}
    {exprName : Expr → Option String} {place : Place} {ident : Ident} {i : Nat} {name : String}
    (h : Resolves select columns exprName place ident (.column i name)) :
    HasColumn select columns i name := by
  cases place with
  | selection => exact hasColumn_of_resolvesColumn h
  | orderBy k =>
    rcases h with ⟨⟨k, item, -, hout⟩, -⟩ | ⟨-, h⟩
    · exact hasColumn_of_outputs hout
    · exact hasColumn_of_resolvesColumn h

/-- A name that is clear before the rule stays so exactly if it is not qualified or belongs to
the relation of the wildcard. -/
theorem name_kept_iff {fields : QueryFields Node} {select : Select Node}
    (hbody : fields.body = .mk (.select select)) {place : Place} {path : List Nat} {ident : Ident}
    (hident : partAt fields place path = some ⟨.expr, .mk (.identifier ident)⟩) :
    rewrite (queryStatement fields) = queryStatement (rewriteUnqualifiedIdentifiers fields) ∧
    (¬ Qualifies fields select place path ident →
      partAt (rewriteUnqualifiedIdentifiers fields) place path =
        some ⟨.expr, .mk (.identifier ident)⟩) ∧
    ∀ (columns : Nat → String → Prop) (exprName : Expr → Option String) (target : Target),
      Resolves select columns exprName place ident target →
      (KeepsTarget select columns (rewriteUnqualifiedIdentifiers fields) place path ident target ↔
        (Qualifies fields select place path ident →
          WildcardNames select columns ident target)) := by
  refine ⟨rfl, fun hnot => ?_, fun columns exprName target hresolves => ?_⟩
  · rcases partAt_rewrite hbody hident with ⟨-, hkeep⟩ | ⟨hqualifies, -⟩
    · exact hkeep
    · exact absurd hqualifies hnot
  rcases partAt_rewrite hbody hident with ⟨hnot, hkeep⟩ | ⟨hqualifies, w, hw, hpart⟩
  · exact iff_of_true (.inl hkeep) fun h => absurd h hnot
  constructor
  · rintro (hkeep | ⟨qualifier, name, hname, i, htarget, hnamed, -, hunique⟩) -
    · rw [hpart] at hkeep
      exact absurd hkeep (by simp)
    · rw [hpart] at hname
      cases hname
      exact ⟨w, i, hw, htarget, hnamed, hunique⟩
  · intro h
    obtain ⟨w', i, hw', rfl, hnamed, hunique⟩ := h hqualifies
    cases hw.symm.trans hw'
    exact .inr ⟨_, _, hpart, i, rfl, hnamed, hasColumn_of_resolves hresolves, hunique⟩

end Keeping

section Names

def aliasedTable (name aliasName : String) : TableFactor :=
  .mk (.table [Ident.new name] (some ⟨Ident.new aliasName, []⟩) none .none)

def wildcardSelect (selection : Expr) : Select Node :=
  ⟨[.qualifiedWildcard (.objectName [Ident.new "n"]) .none],
    [⟨aliasedTable "pg_namespace" "n", []⟩, ⟨aliasedTable "pg_description" "d", []⟩],
    some selection, .none⟩

def nameTest (name : String) : Expr :=
  .mk (.binaryOp (.mk (.identifier (Ident.new name))) .eq
    (.mk (.value (.singleQuotedString "public"))))

/-- `SELECT n.* FROM pg_namespace n, pg_description d WHERE <name> = 'public'` -/
def wildcardQuery (name : String) : QueryFields Node :=
  ⟨none, .mk (.select (wildcardSelect (nameTest name))), none, none, none, .none⟩

/-- One column for each of the two tables. -/
def twoColumns (i : Nat) (name : String) : Prop :=
  i = 0 ∧ name = "nspname" ∨ i = 1 ∧ name = "description"

private theorem relations_wildcardSelect (selection : Expr) :
    (wildcardSelect selection).relations =
      [aliasedTable "pg_namespace" "n", aliasedTable "pg_description" "d"] := by
  simp only [Select.relations, wildcardSelect, aliasedTable, List.map_nil, List.flatMap_cons,
    List.flatMap_nil, relationsIn_table, List.append_nil, List.cons_append, List.nil_append]

private theorem hasColumn_wildcardSelect (selection : Expr) (i : Nat) (name : String) :
    HasColumn (wildcardSelect selection) twoColumns i name ↔ twoColumns i name := by
  rw [HasColumn, relations_wildcardSelect, and_iff_right_iff_imp]
  rintro (⟨rfl, -⟩ | ⟨rfl, -⟩) <;> decide

private theorem named_wildcardSelect (selection : Expr) (i : Nat) :
    Named (wildcardSelect selection) i "n" ↔ i = 0 := by
  rw [Named, relations_wildcardSelect]
  constructor
  · rintro ⟨table, ident, htable, hname, hfolded⟩
    match i with
    | 0 => rfl
    | 1 =>
      cases Option.some.inj htable
      cases Option.some.inj hname
      exact absurd hfolded (by decide)
    | i + 2 => exact absurd htable nofun
  · rintro rfl
    exact ⟨_, _, rfl, rfl, rfl⟩

private theorem resolves_wildcardSelect {selection : Expr} {i : Nat} (name : Ident)
    (hcolumn : twoColumns i name.folded) (hunique : ∀ j, twoColumns j name.folded → j = i) :
    Resolves (wildcardSelect selection) twoColumns (fun _ => none) .selection name
      (.column i name.folded) :=
  ⟨i, rfl, (hasColumn_wildcardSelect _ _ _).mpr hcolumn,
    fun j hj => hunique j ((hasColumn_wildcardSelect _ _ _).mp hj)⟩

/-- `WHERE nspname = 'public'` becomes `WHERE n.nspname = 'public'`. -/
theorem nspname_kept :
    KeepsTarget (wildcardSelect (nameTest "nspname")) twoColumns
      (rewriteUnqualifiedIdentifiers (wildcardQuery "nspname")) .selection [0]
      (Ident.new "nspname") (.column 0 "nspname") := by
  refine ((name_kept_iff rfl rfl).2.2 twoColumns (fun _ => none) _ ?_).mpr fun _ => ?_
  · refine resolves_wildcardSelect (Ident.new "nspname") (.inl ⟨rfl, rfl⟩) ?_
    rintro j (⟨rfl, -⟩ | ⟨-, h⟩)
    · rfl
    · exact absurd h (by decide)
  · exact ⟨"n", 0, rfl, rfl, (named_wildcardSelect _ _).mpr rfl,
      fun j hj _ => (named_wildcardSelect _ _).mp hj⟩

/-- `WHERE description = 'public'` becomes `WHERE n.description = 'public'`, with no such
column. -/
theorem description_not_kept :
    Resolves (wildcardSelect (nameTest "description")) twoColumns (fun _ => none) .selection
        (Ident.new "description") (.column 1 "description") ∧
      ¬ KeepsTarget (wildcardSelect (nameTest "description")) twoColumns
        (rewriteUnqualifiedIdentifiers (wildcardQuery "description")) .selection [0]
        (Ident.new "description") (.column 1 "description") := by
  refine ⟨resolves_wildcardSelect (Ident.new "description") (.inr ⟨rfl, rfl⟩) ?_, ?_⟩
  · rintro j (⟨-, h⟩ | ⟨rfl, -⟩)
    · exact absurd h (by decide)
    · rfl
  have hpart : partAt (wildcardQuery "description") .selection [0] =
      some ⟨.expr, .mk (.identifier (Ident.new "description"))⟩ := rfl
  rcases partAt_rewrite rfl hpart with ⟨hnot, -⟩ | ⟨-, w, hw, hnew⟩
  · exact absurd ⟨rfl, nofun, nofun, ⟨_, rfl, rfl⟩, by decide, by decide⟩ hnot
  cases hw
  rintro (hkeep | ⟨qualifier, name, hname, i, htarget, hnamed, -, -⟩)
  · rw [hnew] at hkeep
    exact absurd hkeep (by simp)
  · rw [hnew] at hname
    cases hname
    cases htarget
    exact absurd ((named_wildcardSelect _ 1).mp hnamed) (by decide)

end Names
end ResolveUnqualifiedIdentifier
end DatafusionPostgres.Sql
