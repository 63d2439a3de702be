import DatafusionPostgres.PgCatalog.JoinIntegrity

/-! `pg_catalog/pg_tables.rs`: the list of tables, and that it is the join of `pg_class` with
`pg_namespace` which PostgreSQL defines it to be. -/
namespace DatafusionPostgres.PgCatalog
open Library

structure PgTablesRow where
  catalogName : String
  schemaname : String
  tablename : String
  tableowner : String
  tablespace : Option String
  hasindex : Bool
  hasrules : Bool
  hastriggers : Bool
  rowsecurity : Bool

namespace PgTablesTable

/-- The rows pushed so far. -/
abbrev RowBuilder := EStateM DataFusionError (List PgTablesRow)

def visitTable (catalogName schemaName tableName : String) : RowBuilder PUnit :=
  modifyGet fun rows => (⟨⟩, rows ++ [{
    catalogName
    schemaname := schemaName
    tablename := tableName
    tableowner := "postgres"
    tablespace := none
    hasindex := false
    hasrules := false
    hastriggers := false
    rowsecurity := false }])

def visitSchema (catalogList : CatalogInfo) (catalogName schemaName : String) : RowBuilder PUnit := do
  let catalogTableNames ← liftExcept (catalogList.tableNames catalogName schemaName)
  match catalogTableNames with
  | some catalogTableNames => forM catalogTableNames (visitTable catalogName schemaName)
  | none => pure ⟨⟩

def visitCatalog (catalogList : CatalogInfo) (catalogName : String) : RowBuilder PUnit := do
  let catalogSchemaNames ← liftExcept (catalogList.schemaNames catalogName)
  match catalogSchemaNames with
  | some catalogSchemaNames => forM catalogSchemaNames (visitSchema catalogList catalogName)
  | none => pure ⟨⟩

def collect (catalogList : CatalogInfo) : RowBuilder PUnit := do
  let catalogNames ← liftExcept catalogList.catalogNames
  forM catalogNames (visitCatalog catalogList)

/-- The build reads the catalog list alone: it has no OIDs to hand out. -/
def getData (catalogList : CatalogInfo) : Except DataFusionError (List PgTablesRow) :=
  match collect catalogList [] with
  | .ok _ rows => .ok rows
  | .error error _ => .error error

end PgTablesTable

def PgTablesRow.key (row : PgTablesRow) : OidCacheKey :=
  .table row.catalogName row.schemaname row.tablename

section Rows
open PgTablesTable
variable {catalogList : CatalogInfo}

/-- A successful run adds a row for each of the keys. -/
private def Lists (prog : RowBuilder PUnit) (keys : List OidCacheKey) : Prop :=
  ∀ rows, Meets prog rows
    (fun _ rows' => rows'.map PgTablesRow.key = rows.map PgTablesRow.key ++ keys) fun _ => True

private theorem lists_forM {names : List String} {body : String → RowBuilder PUnit}
    {keys : String → List OidCacheKey} (hbody : ∀ name, Lists (body name) (keys name)) :
    Lists (forM names body) (names.flatMap keys) := by
  intro rows
  apply Meets.loop fun done (rows' : List PgTablesRow) =>
    rows'.map PgTablesRow.key = rows.map PgTablesRow.key ++ done.flatMap keys
  · intro done name rows₁ _ h₁
    apply (hbody name rows₁).mono
    intro _ rows₂ h₂
    rw [h₂, h₁, List.flatMap_append, List.append_assoc, List.flatMap_singleton]
  · rw [List.flatMap_nil, List.append_nil]

private theorem lists_visitTable (catalogName schemaName tableName : String) :
    Lists (visitTable catalogName schemaName tableName)
      [.table catalogName schemaName tableName] := by
  intro rows
  apply Meets.modifyGet
  rw [List.map_append]
  rfl

private theorem lists_visitSchema (catalogName schemaName : String) :
    Lists (visitSchema catalogList catalogName schemaName)
      ((catalogList.content.tables catalogName schemaName).map fun t =>
        .table catalogName schemaName t) := by
  intro rows
  apply Meets.bind
  refine Meets.call (fun names hnames => ?_) trivial
  rw [CatalogList.tables, ← CatalogInfo.answer_ok hnames,
    List.map_eq_flatMap (f := fun t => OidCacheKey.table catalogName schemaName t)]
  cases names with
  | none => exact Meets.pure (List.append_nil _).symm
  | some names => exact lists_forM (lists_visitTable catalogName schemaName) rows

private theorem lists_visitCatalog (catalogName : String) :
    Lists (visitCatalog catalogList catalogName)
      ((catalogList.content.schemas catalogName).flatMap fun s =>
        (catalogList.content.tables catalogName s).map fun t => .table catalogName s t) := by
  intro rows
  apply Meets.bind
  refine Meets.call (fun names hnames => ?_) trivial
  rw [CatalogList.schemas, ← CatalogInfo.answer_ok hnames]
  cases names with
  | none => exact Meets.pure (List.append_nil _).symm
  | some names => exact lists_forM (lists_visitSchema catalogName) rows

/-- The rows of `pg_tables`: one for each listed table, in the order of `pg_attribute`. -/
theorem pgTables_rows {rows : List PgTablesRow} (h : getData catalogList = .ok rows) :
    rows.map PgTablesRow.key = SystemTable.pgAttribute.visits catalogList.content := by
  have hcollect : Lists (collect catalogList)
      (SystemTable.pgAttribute.visits catalogList.content) := by
    intro rows
    apply Meets.bind
    refine Meets.call (fun names hnames => ?_) trivial
    rw [SystemTable.visits, ← CatalogInfo.answer_ok hnames]
    exact lists_forM lists_visitCatalog rows
  have hmeets := hcollect []
  unfold Meets at hmeets
  unfold getData at h
  cases hrun : collect catalogList [] with
  | ok _ rows' =>
    rw [hrun] at h hmeets
    cases h
    exact hmeets
  | error error rows' =>
    rw [hrun] at h
    cases h

end Rows

/-- A system schema with tables in it is the only system schema. -/
def CatalogList.SystemTablesApart (content : CatalogList) : Prop :=
  ∀ c c' t, content.Lists (.table c "pg_catalog" t) → content.Lists (.schema c' "pg_catalog") →
    c = c'

/-- Every listed table is there when its columns are asked for. -/
def CatalogList.TablesPresent (content : CatalogList) : Prop :=
  ∀ c s t, content.Lists (.table c s t) → (content.tableSchema c s t).isSome

namespace PgCatalogSchemaProvider

/-- The names of each relation and its namespace, found by the OID of the namespace. -/
def relationNames (classes : List PgClassRow) (namespaces : List PgNamespaceRow) :
    List (String × String) :=
  (innerJoin (fun row schema => schema.oid = row.relnamespace) classes namespaces).map
    fun pair => (pair.2.nspname, pair.1.relname)

/-- The two names by which `pg_tables` knows a table. -/
private def names : OidCacheKey → String × String
  | .table _ schemaName tableName => (schemaName, tableName)
  | _ => ("", "")

section Steady
variable {content : CatalogList} {builds : List Build} {i j : Nat} {classes : List PgClassRow}
  {namespaces : List PgNamespaceRow}

private theorem oneSystemSchema_of_table (hapart : content.SystemTablesApart) {c t : String}
    (h : content.Lists (.table c "pg_catalog" t)) : content.OneSystemSchema :=
  fun c₁ c₂ h₁ h₂ => (hapart c c₁ t h h₁).symm.trans (hapart c c₂ t h h₂)

variable (hcontent : ∀ build ∈ builds, build.catalogList.content = content)
include hcontent

private theorem ClassRows.keys (hpresent : content.TablesPresent)
    (h : ClassRows builds i classes) :
    classes.map PgClassRow.key = SystemTable.pgAttribute.visits content := by
  have hkeys := congrArg (List.map Prod.fst) (h.keyed hcontent)
  rw [List.map_map] at hkeys
  refine hkeys.trans (keyed_keys fun key hkey => ?_)
  obtain ⟨c, hc, hkey⟩ := List.mem_flatMap.mp hkey
  obtain ⟨s, hs, hkey⟩ := List.mem_flatMap.mp hkey
  obtain ⟨t, ht, rfl⟩ := List.mem_map.mp hkey
  obtain ⟨schema, hschema⟩ := Option.isSome_iff_exists.mp (hpresent c s t ⟨hc, hs, ht⟩)
  rw [CatalogList.relnatts, CatalogList.columns, hschema]
  rfl

private theorem ClassRows.namespace (hnodup : content.NamesNodup)
    (hclasses : ClassRows builds i classes) (hnamespaces : NamespaceRows builds j namespaces)
    {row : PgClassRow} (hrow : row ∈ classes) :
    ∃ schema ∈ namespaces, schema.key = row.schemaKey ∧ schema.oid = row.relnamespace := by
  have hreported := hclasses.reported_relnamespace hrow
  have hmem : row.schemaKey ∈ namespaces.map PgNamespaceRow.key := by
    rw [hnamespaces.keys hcontent]
    exact mem_visits_pgNamespace (lists_of_reported hcontent hreported trivial)
  obtain ⟨schema, hschema, hkey⟩ := List.mem_map.mp hmem
  have hkind : row.schemaKey.IsSchemaOrTable := trivial
  refine ⟨schema, hschema, hkey, ?_⟩
  exact oid_eq_of_key_eq hcontent hnodup hkind (hkey ▸ hnamespaces.reported hschema) hreported

private theorem ClassRows.one_namespace (hnodup : content.NamesNodup)
    (hwrap : (after builds).oidCounter.NotWrapped) (hapart : content.SystemTablesApart)
    (hclasses : ClassRows builds i classes) (hnamespaces : NamespaceRows builds j namespaces)
    {row : PgClassRow} (hrow : row ∈ classes) :
    ∃ schema, namespaces.filter (fun schema => schema.oid = row.relnamespace) = [schema] ∧
      (schema.nspname, row.relname) = (row.schemaName, row.relname) := by
  obtain ⟨schema, hschema, hkey, _⟩ := hclasses.namespace hcontent hnodup hnamespaces hrow
  have hname : schema.nspname = row.schemaName := (OidCacheKey.schema.inj hkey).2
  refine ⟨schema, ?_, by rw [hname]⟩
  have hone : fixedOid row.schemaKey ≠ none → content.OneSystemSchema := by
    intro hfixed
    obtain ⟨fixed, hf⟩ := Option.ne_none_iff_exists'.mp hfixed
    obtain ⟨c, hsystem⟩ := (fixedOid_eq_some hf).2
    have hlists := lists_of_reported hcontent (hclasses.reported_oid hrow) trivial
    rw [PgClassRow.key, (OidCacheKey.schema.inj hsystem).2] at hlists
    exact oneSystemSchema_of_table hapart hlists
  apply filter_eq_singleton (hnamespaces.keys hcontent ▸ visits_nodup _ hnodup) hschema
  intro schema' hschema'
  rw [decide_eq_true_eq, hkey, eq_comm, eq_comm (a := schema'.key)]
  exact oid_eq_iff hcontent hnodup hwrap (hclasses.reported_relnamespace hrow)
    (hnamespaces.reported hschema') trivial hone

private theorem systemTablesApart_of_one (hpresent : content.TablesPresent)
    (hclasses : ClassRows builds i classes) (hnamespaces : NamespaceRows builds j namespaces)
    (hone : ∀ row ∈ classes,
      (namespaces.filter fun schema => schema.oid = row.relnamespace).length = 1) :
    content.SystemTablesApart := by
  intro c c' t htable hschema
  have hmem := mem_visits_pgAttribute htable
  rw [← hclasses.keys hcontent hpresent] at hmem
  obtain ⟨row, hrow, hkey⟩ := List.mem_map.mp hmem
  obtain ⟨hcatalog, hsystem, _⟩ := OidCacheKey.table.inj hkey
  have hrelnamespace : row.relnamespace = pgCatalogNamespaceOid.toInt32 := by
    refine reported_fixed (hclasses.reported_relnamespace hrow) ?_
    rw [PgClassRow.schemaKey, hsystem]
    rfl
  have hfound : ∀ d, content.Lists (.schema d "pg_catalog") →
      ∃ schema ∈ namespaces.filter (fun schema => schema.oid = row.relnamespace),
        schema.key = .schema d "pg_catalog" := by
    intro d hd
    have hmem := mem_visits_pgNamespace hd
    rw [← hnamespaces.keys hcontent] at hmem
    obtain ⟨schema, hschema, hkey⟩ := List.mem_map.mp hmem
    have hoid := reported_fixed (hnamespaces.reported hschema) (by rw [hkey]; rfl)
    refine ⟨schema, List.mem_filter.mpr ⟨hschema, ?_⟩, hkey⟩
    rw [decide_eq_true_eq, hoid, hrelnamespace]
  obtain ⟨only, honly⟩ := List.length_eq_one_iff.mp (hone row hrow)
  rw [honly] at hfound
  obtain ⟨first, hfirst, hkey⟩ := hfound c ⟨htable.1, htable.2.1⟩
  obtain ⟨second, hsecond, hkey'⟩ := hfound c' hschema
  rw [List.mem_singleton.mp hfirst, ← List.mem_singleton.mp hsecond, hkey'] at hkey
  exact (OidCacheKey.schema.inj hkey).1.symm

end Steady

/-- While the counter has not wrapped, `pg_tables` is the join of `pg_class` with `pg_namespace`,
row for row, whichever reads of a run the two come from, unless a system schema with tables has
another one beside it. -/
theorem pgTables_eq_relationNames_iff (content : CatalogList) (builds : List Build)
    (hcontent : ∀ build ∈ builds, build.catalogList.content = content)
    (hnodup : content.NamesNodup) (hpresent : content.TablesPresent)
    (hwrap : (after builds).oidCounter.NotWrapped) {i j : Nat} {classes : List PgClassRow}
    {namespaces : List PgNamespaceRow} {catalogList : CatalogInfo} {rows : List PgTablesRow}
    (hclasses : ClassRows builds i classes) (hnamespaces : NamespaceRows builds j namespaces)
    (htables : catalogList.content = content) (hrows : PgTablesTable.getData catalogList = .ok rows) :
    (rows.map fun row => (row.schemaname, row.tablename)) = relationNames classes namespaces ↔
      content.SystemTablesApart := by
  have hkeys : rows.map PgTablesRow.key = classes.map PgClassRow.key := by
    rw [pgTables_rows hrows, htables, hclasses.keys hcontent hpresent]
  have hnames : (rows.map fun row => (row.schemaname, row.tablename)) =
      classes.map fun row => (row.schemaName, row.relname) := by
    have hboth := congrArg (List.map names) hkeys
    rw [List.map_map, List.map_map] at hboth
    exact hboth
  rw [hnames, relationNames]
  constructor
  · intro heq
    have hlength := congrArg List.length heq
    rw [List.length_map, List.length_map] at hlength
    refine systemTablesApart_of_one hcontent hpresent hclasses hnamespaces
      (one_partner (fun row hrow => ?_) hlength.symm)
    obtain ⟨schema, hschema, _, hoid⟩ := hclasses.namespace hcontent hnodup hnamespaces hrow
    exact List.ne_nil_of_mem (List.mem_filter.mpr ⟨hschema, decide_eq_true hoid⟩)
  · intro hapart
    exact (map_innerJoin fun row hrow =>
      hclasses.one_namespace hcontent hnodup hwrap hapart hnamespaces hrow).symm

section Examples

theorem userTable_relationNames : ∃ classes namespaces rows,
    ClassRows (readsOf userTable [.pgNamespace, .pgClass]) 1 classes ∧
      NamespaceRows (readsOf userTable [.pgNamespace, .pgClass]) 0 namespaces ∧
      PgTablesTable.getData ⟨userTable, fun _ => none⟩ = .ok rows ∧
      (rows.map fun row => (row.schemaname, row.tablename)) = relationNames classes namespaces := by
  have hclasses : ∃ classes,
      ClassRows (readsOf userTable [.pgNamespace, .pgClass]) 1 classes := ⟨_, _, rfl, rfl⟩
  have hnamespaces : ∃ namespaces,
      NamespaceRows (readsOf userTable [.pgNamespace, .pgClass]) 0 namespaces := ⟨_, _, rfl, rfl⟩
  have hrows : ∃ rows, PgTablesTable.getData ⟨userTable, fun _ => none⟩ = .ok rows := ⟨_, rfl⟩
  obtain ⟨classes, hclasses⟩ := hclasses
  obtain ⟨namespaces, hnamespaces⟩ := hnamespaces
  obtain ⟨rows, hrows⟩ := hrows
  refine ⟨classes, namespaces, rows, hclasses, hnamespaces, hrows, ?_⟩
  refine (pgTables_eq_relationNames_iff userTable (readsOf userTable [.pgNamespace, .pgClass])
    (readsOf_content _ _) userTable_nodup (fun _ _ _ _ => rfl) (by decide) hclasses hnamespaces
    rfl hrows).mpr ?_
  intro c c' t htable hschema
  exact (List.mem_singleton.mp htable.1).trans (List.mem_singleton.mp hschema.1).symm

end Examples
end PgCatalogSchemaProvider
end DatafusionPostgres.PgCatalog
