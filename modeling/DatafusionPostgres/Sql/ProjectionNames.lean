import DatafusionPostgres.Sql.Relations
import Mathlib.Data.List.Nodup

/-! The names of the columns that a SELECT returns, when the columns of its table stand next to a
wildcard and are given aliases. -/
namespace DatafusionPostgres.Sql

/-- The texts that are read as one identifier without quotes. -/
structure WordRules where
  IsWord : String → Prop
  prefixed : ∀ {value}, IsWord value → IsWord ("__alias_" ++ value)
  unquoted : ∀ {value}, IsWord value → '"' ∉ value.toList

/-- A reference to a column of the table. -/
structure ColumnReference where
  qualifier : Option Ident
  column : Ident

def ColumnReference.expr (ref : ColumnReference) : Expr :=
  match ref.qualifier with
  | none => .mk (.identifier ref.column)
  | some qualifier => .mk (.compoundIdentifier [qualifier, ref.column])

/-- The columns of the table, under its qualifier if there is one. -/
def wildcardItem : Option Ident → SelectItem Node
  | none => .wildcard .none
  | some qualifier => .qualifiedWildcard (.objectName [qualifier]) .none

/-- A SELECT over one table, of one wildcard and references to columns. -/
structure TableSelect (rules : WordRules) where
  query : QueryFields Node
  select : Select Node
  relation : TableFactor
  table : Ident
  columns : List String
  before : List ColumnReference
  wildcard : Option Ident
  after : List ColumnReference
  qualified : relationName? relation = some table
  nodup : columns.Nodup
  notPrefixed : ∀ column ∈ columns, ∀ rest, column ≠ "__alias_" ++ rest
  wildcardQualifier : ∀ qualifier ∈ wildcard, qualifier.folded = table.folded
  qualifier : ∀ ref ∈ before ++ after, ∀ qualifier ∈ ref.qualifier,
    qualifier.folded = table.folded
  column : ∀ ref ∈ before ++ after, ref.column.folded ∈ columns
  word : ∀ ref ∈ before ++ after, ref.column.quoteStyle = none → rules.IsWord ref.column.value
  quoteStyle : ∀ ref ∈ before ++ after, ∀ quote ∈ ref.column.quoteStyle, quote = '"'

namespace TableSelect
variable {rules : WordRules} (s : TableSelect rules)

def references : List ColumnReference := s.before ++ s.after

def projection : List (SelectItem Node) :=
  s.before.map (fun ref => .unnamedExpr ref.expr) ++
    wildcardItem s.wildcard :: s.after.map fun ref => .unnamedExpr ref.expr

def statement : Statement :=
  .mk (.statementQuery (.mk (.query { s.query with
    body := .mk (.select { s.select with
      projection := s.projection
      fromClause := [⟨s.relation, []⟩] }) })))

end TableSelect

def projection : Statement → List (SelectItem Node)
  | .mk (.statementQuery (.mk (.query { body := .mk (.select select), .. }))) => select.projection
  | _ => []

section Output
variable (table : Ident) (columns : List String)

/-- The column of the table that a reference denotes. -/
def referredColumn? : Expr → Option String
  | .mk (.identifier column) =>
    if column.folded ∈ columns then some (column.folded) else none
  | .mk (.compoundIdentifier [qualifier, column]) =>
    if qualifier.folded = table.folded ∧ column.folded ∈ columns then
      some (column.folded)
    else none
  | _ => none

/-- The columns that an item denotes. -/
def denotedColumns? : SelectItem Node → Option (List String)
  | .wildcard _ => some columns
  | .qualifiedWildcard (.objectName [qualifier]) _ =>
    if qualifier.folded = table.folded then some columns else none
  | .unnamedExpr expr => (referredColumn? table columns expr).map ([·])
  | .exprWithAlias expr _ => (referredColumn? table columns expr).map ([·])
  | _ => none

/-- The names under which an item is returned. -/
def outputNames : SelectItem Node → List String
  | .exprWithAlias _ aliasName => [aliasName.folded]
  | item => (denotedColumns? table columns item).getD []

end Output

namespace TableSelect
variable {rules : WordRules} (s : TableSelect rules)

def rewritten : List (SelectItem Node) :=
  Sql.projection (AliasDuplicatedProjectionRewrite.rewrite s.statement)

/-- No two columns are returned under one name, every item denotes what it did, and the aliases
are printed as single identifiers. -/
structure Apart : Prop where
  names : (s.rewritten.flatMap (outputNames s.table s.columns)).Nodup
  columns : s.rewritten.map (denotedColumns? s.table s.columns) =
    s.projection.map (denotedColumns? s.table s.columns)
  words : ∀ expr aliasName, .exprWithAlias expr aliasName ∈ s.rewritten →
    rules.IsWord aliasName.display

/-- Every reference has an alias coming: it is unqualified, or its qualifier is spelled as that
of the wildcard. -/
def Matched (ref : ColumnReference) : Prop :=
  ref.qualifier = none ∨ ∃ qualifier ∈ ref.qualifier, ∃ wildcard ∈ s.wildcard,
    qualifier.value = wildcard.value

/-- The aliases keep the names apart. -/
structure Aliased : Prop where
  matched : ∀ ref ∈ s.references, s.Matched ref
  unquoted : ∀ ref ∈ s.references, ref.column.quoteStyle = none
  distinct : (s.references.map fun ref => ref.column.folded).Nodup

section Rewritten
open AliasDuplicatedProjectionRewrite

private def wildcardTables : List String := s.wildcard.toList.map Ident.value

/-- A reference as it is projected after the rule. -/
private def aliased (ref : ColumnReference) : SelectItem Node :=
  aliasItem s.wildcardTables (.unnamedExpr ref.expr)

private theorem filterMap_references (refs : List ColumnReference) :
    (refs.map fun ref => SelectItem.unnamedExpr ref.expr).filterMap wildcardTable? = [] := by
  rw [List.filterMap_map]
  exact List.filterMap_eq_nil_iff.mpr fun _ _ => rfl

private theorem filterMap_projection : s.projection.filterMap wildcardTable? = s.wildcardTables := by
  rw [projection, List.filterMap_append, List.filterMap_cons, filterMap_references,
    filterMap_references, wildcardTables]
  cases s.wildcard with
  | none => rfl
  | some qualifier => rfl

private theorem rewritten_eq :
    s.rewritten = s.before.map s.aliased ++ wildcardItem s.wildcard :: s.after.map s.aliased := by
  have hsome : ((s.projection.filterMap wildcardTable?).isEmpty &&
      !s.projection.any isWildcard) = false := by
    rw [filterMap_projection, wildcardTables, projection, List.any_append, List.any_cons]
    cases s.wildcard with
    | none => simp [wildcardItem, isWildcard]
    | some qualifier => rfl
  have hitems : s.rewritten = s.projection.map (aliasItem s.wildcardTables) := by
    rw [← filterMap_projection]
    change (if (s.projection.filterMap wildcardTable?).isEmpty && !s.projection.any isWildcard then
      _ else _ : Select Node).projection = _
    rw [hsome]
    rfl
  rw [hitems, projection, List.map_append, List.map_cons, List.map_map, List.map_map]
  congr 2
  cases s.wildcard with
  | none => rfl
  | some qualifier => rfl

private theorem aliased_of_matched {ref : ColumnReference} (h : s.Matched ref) :
    s.aliased ref = .exprWithAlias ref.expr (Ident.new ("__alias_" ++ ref.column.display)) := by
  cases ref with
  | mk qualifier column =>
    rcases h with rfl | ⟨qualifier, rfl, wildcard, hwildcard, heq⟩
    · rfl
    · have hmem : joinIdents [qualifier] ∈ s.wildcardTables := by
        rw [wildcardTables, Option.mem_def.mp hwildcard, joinIdents, List.map_singleton,
          String.intercalate_singleton, heq]
        exact List.mem_cons_self
      rw [aliased, ColumnReference.expr, aliasItem, aliasPartial,
        if_pos ⟨Nat.one_lt_two, hmem⟩]
      rfl

private theorem aliased_of_not_matched {ref : ColumnReference} (h : ¬ s.Matched ref) :
    s.aliased ref = .unnamedExpr ref.expr := by
  cases ref with
  | mk qualifier column =>
    cases qualifier with
    | none => exact absurd (.inl rfl) h
    | some qualifier =>
      have hmem : joinIdents [qualifier] ∉ s.wildcardTables := by
        rw [joinIdents, List.map_singleton, String.intercalate_singleton]
        intro hmem
        obtain ⟨wildcard, hwildcard, heq⟩ := List.mem_map.mp hmem
        exact h (.inr ⟨qualifier, rfl, wildcard, Option.mem_toList.mp hwildcard, heq.symm⟩)
      rw [aliased, ColumnReference.expr, aliasItem, aliasPartial, if_neg fun h => hmem h.2]

theorem rewritten_columns : s.rewritten.map (denotedColumns? s.table s.columns) =
    s.projection.map (denotedColumns? s.table s.columns) := by
  have href : ∀ ref, denotedColumns? s.table s.columns (s.aliased ref) =
      denotedColumns? s.table s.columns (.unnamedExpr ref.expr) := by
    intro ref
    by_cases h : s.Matched ref
    · rw [s.aliased_of_matched h]
      rfl
    · rw [s.aliased_of_not_matched h]
  rw [s.rewritten_eq, projection]
  simp only [List.map_append, List.map_cons, List.map_map]
  exact congrArg₂ _ (List.map_congr_left fun ref _ => href ref)
    (congrArg _ (List.map_congr_left fun ref _ => href ref))

private theorem outputNames_wildcard :
    outputNames s.table s.columns (wildcardItem s.wildcard) = s.columns := by
  have hqualifier := s.wildcardQualifier
  cases hw : s.wildcard with
  | none => rfl
  | some qualifier =>
    rw [hw] at hqualifier
    rw [wildcardItem, outputNames, denotedColumns?, if_pos (hqualifier qualifier rfl)]
    · rfl
    · exact nofun

private theorem outputNames_reference {ref : ColumnReference} (h : ref ∈ s.references) :
    outputNames s.table s.columns (.unnamedExpr ref.expr) = [ref.column.folded] := by
  have hqualifier := s.qualifier ref h
  have hcolumn := s.column ref h
  cases ref with
  | mk qualifier column =>
    have hdenoted : referredColumn? s.table s.columns (ColumnReference.expr ⟨qualifier, column⟩) =
        some column.folded := by
      cases qualifier with
      | none => exact if_pos hcolumn
      | some qualifier => exact if_pos ⟨hqualifier qualifier rfl, hcolumn⟩
    rw [outputNames, denotedColumns?, hdenoted]
    · rfl
    · exact nofun

private theorem names_perm :
    (s.rewritten.flatMap (outputNames s.table s.columns)).Perm
      (s.columns ++ s.references.flatMap fun ref =>
        outputNames s.table s.columns (s.aliased ref)) := by
  rw [s.rewritten_eq, references, List.flatMap_append, List.flatMap_cons, List.flatMap_append,
    List.flatMap_map, List.flatMap_map, outputNames_wildcard]
  exact List.perm_append_comm_assoc _ _ _

end Rewritten

section Names

private theorem toLowercase_append (text text' : String) :
    toLowercase (text ++ text') = toLowercase text ++ toLowercase text' := by
  rw [toLowercase, String.toList_append, List.map_append, String.ofList_append]
  rfl

private theorem folded_prefixed {column : Ident} (h : column.quoteStyle = none) :
    (Ident.new ("__alias_" ++ column.display)).folded = "__alias_" ++ column.folded := by
  cases column with
  | mk value quoteStyle =>
    subst h
    exact toLowercase_append "__alias_" value

private theorem display_unquoted {column : Ident} (h : column.quoteStyle = none) :
    column.display = column.value := by
  cases column with
  | mk value quoteStyle =>
    subst h
    rfl

private theorem display_quoted {column : Ident} (h : column.quoteStyle = some '"') :
    '"' ∈ column.display.toList := by
  cases column with
  | mk value quoteStyle =>
    subst h
    rw [Ident.display, String.toList_ofList]
    exact List.mem_cons_self

private theorem names_of_matched (hmatched : ∀ ref ∈ s.references, s.Matched ref)
    (hunquoted : ∀ ref ∈ s.references, ref.column.quoteStyle = none) :
    (s.references.flatMap fun ref => outputNames s.table s.columns (s.aliased ref)) =
      (s.references.map fun ref => ref.column.folded).map ("__alias_" ++ ·) := by
  rw [List.map_map, List.map_eq_flatMap]
  refine List.flatMap_congr fun ref href => ?_
  rw [s.aliased_of_matched (hmatched ref href), outputNames,
    folded_prefixed (hunquoted ref href)]
  rfl

private theorem matched_of_apart (h : s.Apart) : ∀ ref ∈ s.references, s.Matched ref := by
  intro ref href
  by_contra hmatched
  have hnames := s.names_perm.nodup_iff.mp h.names
  refine (List.nodup_append.mp hnames).2.2 _ (s.column ref href) _
    (List.mem_flatMap_of_mem href ?_) rfl
  rw [s.aliased_of_not_matched hmatched, s.outputNames_reference href]
  exact List.mem_singleton_self _

private theorem unquoted_of_apart (h : s.Apart) :
    ∀ ref ∈ s.references, ref.column.quoteStyle = none := by
  intro ref href
  have hitem : s.aliased ref ∈ s.rewritten := by
    rw [s.rewritten_eq, List.mem_append, List.mem_cons]
    rcases List.mem_append.mp href with href | href
    · exact .inl (List.mem_map_of_mem href)
    · exact .inr (.inr (List.mem_map_of_mem href))
  rw [s.aliased_of_matched (s.matched_of_apart h ref href)] at hitem
  have hword := rules.unquoted (h.words _ _ hitem)
  cases hquote : ref.column.quoteStyle with
  | none => rfl
  | some quote =>
    rw [s.quoteStyle ref href quote hquote] at hquote
    refine absurd (display_quoted hquote) fun hmem => hword ?_
    change '"' ∈ ("__alias_" ++ ref.column.display).toList
    rw [String.toList_append]
    exact List.mem_append_right _ hmem

private theorem words_of_aliased (h : s.Aliased) {expr : Expr} {aliasName : Ident}
    (hitem : .exprWithAlias expr aliasName ∈ s.rewritten) : rules.IsWord aliasName.display := by
  have href : ∃ ref ∈ s.references, s.aliased ref = .exprWithAlias expr aliasName := by
    rw [s.rewritten_eq, List.mem_append, List.mem_cons] at hitem
    rcases hitem with hitem | hitem | hitem
    · obtain ⟨ref, href, heq⟩ := List.mem_map.mp hitem
      exact ⟨ref, List.mem_append_left _ href, heq⟩
    · cases hw : s.wildcard with
      | none =>
        rw [hw] at hitem
        cases hitem
      | some qualifier =>
        rw [hw] at hitem
        cases hitem
    · obtain ⟨ref, href, heq⟩ := List.mem_map.mp hitem
      exact ⟨ref, List.mem_append_right _ href, heq⟩
  obtain ⟨ref, href, heq⟩ := href
  have hunquoted := h.unquoted ref href
  rw [s.aliased_of_matched (h.matched ref href)] at heq
  cases heq
  have hword := rules.prefixed (s.word ref href hunquoted)
  rw [← display_unquoted hunquoted] at hword
  exact hword

end Names

/-- The names are apart exactly if every reference gets an alias of its own, without quotes. -/
theorem apart_iff_aliased : s.Apart ↔ s.Aliased := by
  constructor
  · intro h
    have hmatched := s.matched_of_apart h
    have hunquoted := s.unquoted_of_apart h
    have hnames := s.names_perm.nodup_iff.mp h.names
    rw [s.names_of_matched hmatched hunquoted] at hnames
    exact ⟨hmatched, hunquoted, List.Nodup.of_map _ (List.nodup_append.mp hnames).2.1⟩
  · intro h
    refine ⟨s.names_perm.nodup_iff.mpr ?_, s.rewritten_columns, fun _ _ => s.words_of_aliased h⟩
    rw [s.names_of_matched h.matched h.unquoted]
    have hinj : Function.Injective ("__alias_" ++ · : String → String) :=
      fun _ _ => (String.append_right_inj _).mp
    refine List.nodup_append.mpr ⟨s.nodup, List.Nodup.map hinj h.distinct, ?_⟩
    rintro column hcolumn name hname rfl
    obtain ⟨rest, -, heq⟩ := List.mem_map.mp hname
    exact s.notPrefixed column hcolumn rest heq.symm

end TableSelect

def isWordChar (c : Char) : Bool := c == '_' || c.isAlphanum

/-- Letters, digits and underscores, with no digit in front. -/
def referenceWords : WordRules where
  IsWord value := value.toList.head?.any (fun c => !c.isDigit) ∧ value.toList.all isWordChar
  prefixed {value} h := by
    rw [String.toList_append, List.all_append, h.2]
    exact ⟨rfl, rfl⟩
  unquoted {value} h hmem := absurd (List.all_eq_true.mp h.2 _ hmem) (by decide)

section Namespaces

private theorem namespaceColumns_notPrefixed :
    ∀ column ∈ ["oid", "nspname"], ∀ rest, column ≠ "__alias_" ++ rest := by
  intro column hcolumn rest heq
  have hhead := congrArg (fun text => text.toList.head?) heq
  simp only [String.toList_append, List.head?_append] at hhead
  rcases List.mem_cons.mp hcolumn with rfl | hcolumn
  · exact absurd (Option.some.inj hhead) (by decide)
  · rw [List.mem_singleton.mp hcolumn] at hhead
    exact absurd (Option.some.inj hhead) (by decide)

def namespaceReference (column : String) : ColumnReference :=
  ⟨some (Ident.new "n"), Ident.new column⟩

/-- `n.oid` or `n.nspname`. -/
def ToNamespace (ref : ColumnReference) : Prop :=
  ref = namespaceReference "oid" ∨ ref = namespaceReference "nspname"

private theorem qualifier_of_toNamespace {ref : ColumnReference} (h : ToNamespace ref) :
    ∀ qualifier ∈ ref.qualifier, qualifier.folded = (Ident.new "n").folded := by
  rcases h with rfl | rfl <;> rintro _ ⟨⟩ <;> rfl

private theorem column_of_toNamespace {ref : ColumnReference} (h : ToNamespace ref) :
    ref.column.folded ∈ ["oid", "nspname"] := by
  rcases h with rfl | rfl <;> decide

private theorem word_of_toNamespace {ref : ColumnReference} (h : ToNamespace ref) :
    ref.column.quoteStyle = none → referenceWords.IsWord ref.column.value := by
  rintro -
  rcases h with rfl | rfl <;> exact ⟨rfl, rfl⟩

private theorem quoteStyle_of_toNamespace {ref : ColumnReference} (h : ToNamespace ref) :
    ∀ quote ∈ ref.column.quoteStyle, quote = '"' := by
  rcases h with rfl | rfl <;> exact nofun

/-- `SELECT n.oid, n.nspname, n.* FROM pg_namespace n`, with any such references in front. -/
def namespaceSelect (before : List ColumnReference) (hbefore : ∀ ref ∈ before, ToNamespace ref) :
    TableSelect referenceWords where
  query := ⟨none, .mk (.otherSetExpr .none), none, none, none, .none⟩
  select := ⟨[], [], none, .none⟩
  relation := .mk (.table [Ident.new "pg_namespace"] (some ⟨Ident.new "n", []⟩) none .none)
  table := Ident.new "n"
  columns := ["oid", "nspname"]
  before := before
  wildcard := some (Ident.new "n")
  after := []
  qualified := rfl
  nodup := by decide
  notPrefixed := namespaceColumns_notPrefixed
  wildcardQualifier := by
    rintro _ ⟨⟩
    rfl
  qualifier ref href := qualifier_of_toNamespace (hbefore ref (List.append_nil before ▸ href))
  column ref href := column_of_toNamespace (hbefore ref (List.append_nil before ▸ href))
  word ref href := word_of_toNamespace (hbefore ref (List.append_nil before ▸ href))
  quoteStyle ref href := quoteStyle_of_toNamespace (hbefore ref (List.append_nil before ▸ href))

/-- `SELECT n.oid, n.nspname, n.* FROM pg_namespace n` -/
theorem twoReferences_apart :
    (namespaceSelect [namespaceReference "oid", namespaceReference "nspname"]
      (List.forall_mem_cons.mpr ⟨.inl rfl, List.forall_mem_cons.mpr
        ⟨.inr rfl, List.forall_mem_nil _⟩⟩)).Apart := by
  refine (TableSelect.apart_iff_aliased _).mpr ⟨?_, ?_, by decide⟩
  · exact List.forall_mem_cons.mpr ⟨.inr ⟨_, rfl, _, rfl, rfl⟩, List.forall_mem_cons.mpr
      ⟨.inr ⟨_, rfl, _, rfl, rfl⟩, List.forall_mem_nil _⟩⟩
  · exact List.forall_mem_cons.mpr ⟨rfl, List.forall_mem_cons.mpr ⟨rfl, List.forall_mem_nil _⟩⟩

/-- `SELECT n.oid, n.oid, n.* FROM pg_namespace n` returns two columns named `__alias_oid`. -/
theorem sameReferences_notApart :
    ¬ (namespaceSelect [namespaceReference "oid", namespaceReference "oid"]
      (List.forall_mem_cons.mpr ⟨.inl rfl, List.forall_mem_cons.mpr
        ⟨.inl rfl, List.forall_mem_nil _⟩⟩)).Apart := by
  intro h
  exact absurd h.names (by decide)

end Namespaces
end DatafusionPostgres.Sql
