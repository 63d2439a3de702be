import DatafusionPostgres.PgCatalog.BuildRows
import DatafusionPostgres.PgCatalog.OidOwnership

/-! The rows of any two builds over an unchanging catalog list join on their OIDs as
the objects they are about belong together. -/
namespace DatafusionPostgres.PgCatalog
open Library

/-- One catalog at most has the system schema. -/
def CatalogList.OneSystemSchema (content : CatalogList) : Prop :=
  ∀ c c', content.Lists (.schema c "pg_catalog") → content.Lists (.schema c' "pg_catalog") → c = c'

/-- The number of columns of every table is an `i16`. -/
def CatalogList.ColumnsFit (content : CatalogList) : Prop :=
  ∀ c s t schema, content.tableSchema c s t = some schema → schema.fields.length ≤ 32767

namespace PgCatalogSchemaProvider

section Rows
variable (builds : List Build) (i : Nat)

/-- The build at position `i` of the run is one of `pg_class`, and these are its rows. -/
def ClassRows (rows : List PgClassRow) : Prop :=
  ∃ catalogList, builds[i]? = some ⟨.pgClass, catalogList⟩ ∧
    (PgClassTable.getData catalogList (after (builds.take i))).1 = .ok rows

def AttributeRows (rows : List PgAttributeRow) : Prop :=
  ∃ catalogList, builds[i]? = some ⟨.pgAttribute, catalogList⟩ ∧
    (PgAttributeTable.getData catalogList (after (builds.take i))).1 = .ok rows

def NamespaceRows (rows : List PgNamespaceRow) : Prop :=
  ∃ catalogList, builds[i]? = some ⟨.pgNamespace, catalogList⟩ ∧
    (PgNamespaceTable.getData catalogList (after (builds.take i))).1 = .ok rows

def DatabaseRows (rows : List PgDatabaseRow) : Prop :=
  ∃ catalogList, builds[i]? = some ⟨.pgDatabase, catalogList⟩ ∧
    (PgDatabaseTable.getData catalogList (after (builds.take i))).1 = .ok rows

end Rows

/-- The joins that clients make between the tables of a run, whichever builds they read. -/
structure JoinsUp (builds : List Build) : Prop where
  attributeClass : ∀ i j attributes classes, AttributeRows builds i attributes →
    ClassRows builds j classes → ∀ column ∈ attributes, ∃ row,
      classes.filter (fun row => row.oid = column.attrelid) = [row] ∧ row.key = column.key
  attributeNumbers : ∀ i j attributes classes, AttributeRows builds i attributes →
    ClassRows builds j classes → ∀ row ∈ classes, ∃ natts : Nat, row.relnatts.toInt = natts ∧
      (attributes.filter fun column => column.attrelid = row.oid).map (·.attnum.toInt) =
        (List.range' 1 natts).map Int.ofNat
  classNamespace : ∀ i j classes namespaces, ClassRows builds i classes →
    NamespaceRows builds j namespaces → ∀ row ∈ classes, ∃ schema,
      namespaces.filter (fun schema => schema.oid = row.relnamespace) = [schema] ∧
        schema.key = row.schemaKey
  classOids : ∀ i rows, ClassRows builds i rows → (rows.map PgClassRow.oid).Nodup
  namespaceOids : ∀ i rows, NamespaceRows builds i rows → (rows.map PgNamespaceRow.oid).Nodup
  databaseOids : ∀ i rows, DatabaseRows builds i rows → (rows.map PgDatabaseRow.oid).Nodup

section Reports
variable {builds : List Build} {i : Nat}

private theorem mem_reportsOf {ρ : Type} {reports : ρ → List Report}
    {result : Except DataFusionError (List ρ)} {rows : List ρ} (hrows : result = .ok rows)
    {row : ρ} (hrow : row ∈ rows) {report : Report} (hreport : report ∈ reports row) :
    report ∈ reportsOf reports result := by
  rw [hrows]
  exact List.mem_flatMap.mpr ⟨row, hrow, hreport⟩

theorem ClassRows.reported {rows : List PgClassRow} (h : ClassRows builds i rows)
    {row : PgClassRow} (hrow : row ∈ rows) {key : OidCacheKey} {oid : Int32}
    (hreport : (key, oid) ∈ row.reports) : Reported builds i key oid := by
  obtain ⟨catalogList, hbuild, hrows⟩ := h
  exact ⟨_, hbuild, mem_reportsOf hrows hrow hreport⟩

theorem AttributeRows.reported {rows : List PgAttributeRow} (h : AttributeRows builds i rows)
    {row : PgAttributeRow} (hrow : row ∈ rows) : Reported builds i row.key row.attrelid := by
  obtain ⟨catalogList, hbuild, hrows⟩ := h
  exact ⟨_, hbuild, mem_reportsOf hrows hrow List.mem_cons_self⟩

theorem NamespaceRows.reported {rows : List PgNamespaceRow} (h : NamespaceRows builds i rows)
    {row : PgNamespaceRow} (hrow : row ∈ rows) : Reported builds i row.key row.oid := by
  obtain ⟨catalogList, hbuild, hrows⟩ := h
  exact ⟨_, hbuild, mem_reportsOf hrows hrow List.mem_cons_self⟩

theorem DatabaseRows.reported {rows : List PgDatabaseRow} (h : DatabaseRows builds i rows)
    {row : PgDatabaseRow} (hrow : row ∈ rows) : Reported builds i row.key row.oid := by
  obtain ⟨catalogList, hbuild, hrows⟩ := h
  exact ⟨_, hbuild, mem_reportsOf hrows hrow List.mem_cons_self⟩

theorem ClassRows.reported_oid {rows : List PgClassRow} (h : ClassRows builds i rows)
    {row : PgClassRow} (hrow : row ∈ rows) : Reported builds i row.key row.oid :=
  h.reported hrow List.mem_cons_self

theorem ClassRows.reported_relnamespace {rows : List PgClassRow} (h : ClassRows builds i rows)
    {row : PgClassRow} (hrow : row ∈ rows) : Reported builds i row.schemaKey row.relnamespace :=
  h.reported hrow
    (List.mem_cons_of_mem _ List.mem_cons_self)

end Reports

section Steady
variable {content : CatalogList} {builds : List Build}

/-- Only the system schema of a catalog has a fixed OID. -/
theorem fixedOid_eq_some {key : OidCacheKey} {oid : Oid} (h : fixedOid key = some oid) :
    oid = pgCatalogNamespaceOid ∧ ∃ c, key = .schema c "pg_catalog" := by
  cases key with
  | catalog c => cases h
  | table c s t => cases h
  | schema c s =>
    by_cases hs : s = "pg_catalog"
    · subst hs
      exact ⟨(Option.some.inj h).symm, c, rfl⟩
    · simp [fixedOid, hs] at h

variable (hcontent : ∀ build ∈ builds, build.catalogList.content = content)
include hcontent

theorem lists_of_reported {i : Nat} {key : OidCacheKey} {shown : Int32}
    (h : Reported builds i key shown) (hkind : key.IsSchemaOrTable) : content.Lists key := by
  obtain ⟨build, hbuild, hmem⟩ := h
  rw [← hcontent build (List.mem_of_getElem? hbuild)]
  exact lists_of_mem_visits ((getData_built build _).mem_visits hmem) hkind

omit hcontent in
theorem reported_fixed {i : Nat} {key : OidCacheKey} {shown : Int32} {fixed : Oid}
    (h : Reported builds i key shown) (hf : fixedOid key = some fixed) :
    shown = fixed.toInt32 := by
  obtain ⟨build, hbuild, hmem⟩ := h
  refine (getData_built build _).shown_of_known ?_ hmem
  rw [PgCatalogSchemaProvider.known, knownId, hf, Option.some_or]

theorem oid_eq_of_key_eq (hnodup : content.NamesNodup) {i j : Nat} {key : OidCacheKey}
    {oid oid' : Int32} (hkind : key.IsSchemaOrTable) (hi : Reported builds i key oid)
    (hj : Reported builds j key oid') : oid = oid' := by
  have hnames : ∀ build ∈ builds, build.catalogList.content.NamesNodup := by
    intro build hbuild
    rw [hcontent build hbuild]
    exact hnodup
  have hlisted : ∀ (k : Nat) (build : Build), builds[k]? = some build →
      build.catalogList.content.Lists key := by
    intro k build hbuild
    rw [hcontent build (List.mem_of_getElem? hbuild)]
    exact lists_of_reported hcontent hi hkind
  rcases Nat.le_total i j with hle | hle
  · exact reported_eq hnames hkind hle (fun k build _ _ => hlisted k build) hi hj
  · exact (reported_eq hnames hkind hle (fun k build _ _ => hlisted k build) hj hi).symm

private theorem key_eq_of_oid_eq (hwrap : (after builds).oidCounter.NotWrapped) {i j : Nat}
    {key key' : OidCacheKey} {oid : Int32} (hi : Reported builds i key oid)
    (hj : Reported builds j key' oid) (hone : fixedOid key ≠ none → content.OneSystemSchema) :
    key = key' := by
  have hapart : ∀ {i j : Nat} {key key' : OidCacheKey} {fixed : Oid}, Reported builds i key oid →
      Reported builds j key' oid → fixedOid key = some fixed → fixedOid key' ≠ none := by
    intro i j key key' fixed hi hj hf hf'
    have hle := firstOid_le_of_reported hwrap hj hf'
    rw [reported_fixed hi hf, UInt32.toUInt32_toInt32, (fixedOid_eq_some hf).1] at hle
    exact absurd hle (by decide)
  cases hf : fixedOid key with
  | none =>
    cases hf' : fixedOid key' with
    | none => exact reported_key_eq hwrap hi hj hf hf'
    | some fixed => exact absurd hf (hapart hj hi hf')
  | some fixed =>
    obtain ⟨fixed', hf'⟩ := Option.ne_none_iff_exists'.mp (hapart hi hj hf)
    obtain ⟨_, c, rfl⟩ := fixedOid_eq_some hf
    obtain ⟨_, c', rfl⟩ := fixedOid_eq_some hf'
    rw [hone (by rw [hf]; exact Option.some_ne_none _) c c'
      (lists_of_reported hcontent hi trivial) (lists_of_reported hcontent hj trivial)]

theorem oid_eq_iff (hnodup : content.NamesNodup)
    (hwrap : (after builds).oidCounter.NotWrapped) {i j : Nat} {key key' : OidCacheKey}
    {oid oid' : Int32} (hi : Reported builds i key oid) (hj : Reported builds j key' oid')
    (hkind : key.IsSchemaOrTable) (hone : fixedOid key ≠ none → content.OneSystemSchema) :
    oid = oid' ↔ key = key' := by
  constructor
  · rintro rfl
    exact key_eq_of_oid_eq hcontent hwrap hi hj hone
  · rintro rfl
    exact oid_eq_of_key_eq hcontent hnodup hkind hi hj

section Tables
variable {i j : Nat} {classes : List PgClassRow} {attributes : List PgAttributeRow}
  {namespaces : List PgNamespaceRow}

theorem ClassRows.keyed (h : ClassRows builds i classes) :
    (classes.map fun row => (row.key, row.relnatts)) =
      keyed content.relnatts (SystemTable.pgAttribute.visits content) := by
  obtain ⟨catalogList, hbuild, hrows⟩ := h
  cases hcontent _ (List.mem_of_getElem? hbuild)
  exact pgClass_rows hrows

private theorem AttributeRows.keyed (h : AttributeRows builds i attributes) :
    (attributes.map fun row => (row.key, row.attnum)) =
      keyed content.attnums (SystemTable.pgAttribute.visits content) := by
  obtain ⟨catalogList, hbuild, hrows⟩ := h
  cases hcontent _ (List.mem_of_getElem? hbuild)
  exact pgAttribute_rows hrows

theorem NamespaceRows.keys (h : NamespaceRows builds i namespaces) :
    namespaces.map PgNamespaceRow.key = SystemTable.pgNamespace.visits content := by
  obtain ⟨catalogList, hbuild, hrows⟩ := h
  cases hcontent _ (List.mem_of_getElem? hbuild)
  exact pgNamespace_rows hrows

theorem DatabaseRows.keys {databases : List PgDatabaseRow}
    (h : DatabaseRows builds i databases) :
    databases.map PgDatabaseRow.key = SystemTable.pgDatabase.visits content := by
  obtain ⟨catalogList, hbuild, hrows⟩ := h
  cases hcontent _ (List.mem_of_getElem? hbuild)
  exact pgDatabase_rows hrows

private theorem ClassRows.keys_nodup (hnodup : content.NamesNodup) (h : ClassRows builds i classes) :
    (classes.map PgClassRow.key).Nodup := by
  have hkeys : classes.map PgClassRow.key =
      (classes.map fun row => (row.key, row.relnatts)).map Prod.fst := by
    rw [List.map_map]
    rfl
  rw [hkeys, h.keyed hcontent]
  apply keyed_keys_nodup (visits_nodup _ hnodup)
  intro key
  unfold CatalogList.relnatts
  cases content.columns key <;> simp

private theorem ClassRows.columns (h : ClassRows builds i classes) {row : PgClassRow}
    (hrow : row ∈ classes) : row.key ∈ SystemTable.pgAttribute.visits content ∧
      ∃ schema, content.columns row.key = some schema ∧
        row.relnatts = .ofNat schema.fields.length := by
  have hmem : (row.key, row.relnatts) ∈ classes.map fun row => (row.key, row.relnatts) :=
    List.mem_map_of_mem hrow
  rw [h.keyed hcontent, mem_keyed] at hmem
  obtain ⟨hkey, hvalue⟩ := hmem
  obtain ⟨schema, hschema, hnatts⟩ := List.mem_map.mp hvalue
  exact ⟨hkey, schema, Option.mem_toList.mp hschema, hnatts.symm⟩

private theorem AttributeRows.class (hattributes : AttributeRows builds i attributes)
    (hclasses : ClassRows builds j classes) {column : PgAttributeRow} (hcolumn : column ∈ attributes) :
    ∃ row ∈ classes, row.key = column.key := by
  have hmem : (column.key, column.attnum) ∈ attributes.map fun row => (row.key, row.attnum) :=
    List.mem_map_of_mem hcolumn
  rw [hattributes.keyed hcontent, mem_keyed] at hmem
  obtain ⟨hkey, hvalue⟩ := hmem
  obtain ⟨schema, hschema, _⟩ := List.mem_flatMap.mp hvalue
  have hrow : (column.key, Int16.ofNat schema.fields.length) ∈
      classes.map fun row => (row.key, row.relnatts) := by
    rw [hclasses.keyed hcontent, mem_keyed]
    exact ⟨hkey, List.mem_map.mpr ⟨schema, hschema, rfl⟩⟩
  obtain ⟨row, hrow, heq⟩ := List.mem_map.mp hrow
  exact ⟨row, hrow, congrArg Prod.fst heq⟩

private theorem AttributeRows.attnums (hnodup : content.NamesNodup)
    (h : AttributeRows builds i attributes) {key : OidCacheKey} {schema : ArrowPg.Schema}
    (hkey : key ∈ SystemTable.pgAttribute.visits content)
    (hschema : content.columns key = some schema) (hfit : schema.fields.length ≤ 32767) :
    (attributes.filter fun column => column.key = key).map (·.attnum.toInt) =
      (List.range' 1 schema.fields.length).map Int.ofNat := by
  have hfilter := congrArg (List.filter fun row => row.1 = key) (h.keyed hcontent)
  rw [filter_keyed (visits_nodup _ hnodup) hkey, List.filter_map] at hfilter
  have hnums := congrArg (List.map fun row => row.2.toInt) hfilter
  simp only [List.map_map, CatalogList.attnums, hschema, Option.toList_some,
    List.flatMap_singleton] at hnums
  rw [List.range'_eq_map_range, List.map_map]
  apply hnums.trans
  apply List.map_congr_left
  intro n hn
  have hlt : n + 1 < 2 ^ 15 := by
    have := List.mem_range.mp hn
    omega
  change (Int16.ofNat (n + 1)).toInt = ((1 + n : Nat) : Int)
  rw [Int16.toInt_ofNat_of_lt hlt, Nat.add_comm]

private theorem joinsUp_attributeClass (hnodup : content.NamesNodup)
    (hwrap : (after builds).oidCounter.NotWrapped) (hattributes : AttributeRows builds i attributes)
    (hclasses : ClassRows builds j classes) {column : PgAttributeRow} (hcolumn : column ∈ attributes) :
    ∃ row, classes.filter (fun row => row.oid = column.attrelid) = [row] ∧
      row.key = column.key := by
  obtain ⟨row, hrow, hkey⟩ := hattributes.class hcontent hclasses hcolumn
  refine ⟨row, ?_, hkey⟩
  apply filter_eq_singleton (hclasses.keys_nodup hcontent hnodup) hrow
  intro row' hrow'
  rw [decide_eq_true_eq, hkey]
  exact oid_eq_iff hcontent hnodup hwrap (hclasses.reported_oid hrow')
    (hattributes.reported hcolumn) trivial fun hf => absurd rfl hf

private theorem joinsUp_attributeNumbers (hnodup : content.NamesNodup) (hfit : content.ColumnsFit)
    (hwrap : (after builds).oidCounter.NotWrapped) (hattributes : AttributeRows builds i attributes)
    (hclasses : ClassRows builds j classes) {row : PgClassRow} (hrow : row ∈ classes) :
    ∃ natts : Nat, row.relnatts.toInt = natts ∧
      (attributes.filter fun column => column.attrelid = row.oid).map (·.attnum.toInt) =
        (List.range' 1 natts).map Int.ofNat := by
  obtain ⟨hkey, schema, hschema, hnatts⟩ := hclasses.columns hcontent hrow
  have hlen : schema.fields.length ≤ 32767 := hfit _ _ _ schema hschema
  refine ⟨schema.fields.length, ?_, ?_⟩
  · rw [hnatts]
    exact Int16.toInt_ofNat_of_lt (by omega)
  · rw [← hattributes.attnums hcontent hnodup hkey hschema hlen]
    congr 1
    apply List.filter_congr
    intro column hcolumn
    rw [decide_eq_decide]
    exact oid_eq_iff hcontent hnodup hwrap (hattributes.reported hcolumn)
      (hclasses.reported_oid hrow) trivial fun hf => absurd rfl hf

private theorem joinsUp_classNamespace (hnodup : content.NamesNodup)
    (hwrap : (after builds).oidCounter.NotWrapped) (hone : content.OneSystemSchema)
    (hclasses : ClassRows builds i classes) (hnamespaces : NamespaceRows builds j namespaces)
    {row : PgClassRow} (hrow : row ∈ classes) :
    ∃ schema, namespaces.filter (fun schema => schema.oid = row.relnamespace) = [schema] ∧
      schema.key = row.schemaKey := by
  have hkeys := hnamespaces.keys hcontent
  have hreported := hclasses.reported_relnamespace hrow
  have hmem : row.schemaKey ∈ namespaces.map PgNamespaceRow.key := by
    rw [hkeys]
    exact mem_visits_pgNamespace (lists_of_reported hcontent hreported trivial)
  obtain ⟨schema, hschema, hkey⟩ := List.mem_map.mp hmem
  refine ⟨schema, ?_, hkey⟩
  apply filter_eq_singleton (hkeys ▸ visits_nodup _ hnodup) hschema
  intro schema' hschema'
  rw [decide_eq_true_eq, hkey]
  exact oid_eq_iff hcontent hnodup hwrap (hnamespaces.reported hschema') hreported trivial
    fun _ => hone

private theorem joinsUp_classOids (hnodup : content.NamesNodup)
    (hwrap : (after builds).oidCounter.NotWrapped) (h : ClassRows builds i classes) :
    (classes.map PgClassRow.oid).Nodup := by
  apply nodup_map_of_keys (h.keys_nodup hcontent hnodup)
  intro row hrow row' hrow' heq
  exact key_eq_of_oid_eq hcontent hwrap (heq ▸ h.reported_oid hrow) (h.reported_oid hrow')
    fun hf => absurd rfl hf

private theorem joinsUp_namespaceOids (hnodup : content.NamesNodup)
    (hwrap : (after builds).oidCounter.NotWrapped) (hone : content.OneSystemSchema)
    (h : NamespaceRows builds i namespaces) : (namespaces.map PgNamespaceRow.oid).Nodup := by
  apply nodup_map_of_keys (h.keys hcontent ▸ visits_nodup _ hnodup)
  intro row hrow row' hrow' heq
  exact key_eq_of_oid_eq hcontent hwrap (heq ▸ h.reported hrow) (h.reported hrow') fun _ => hone

private theorem joinsUp_databaseOids (hnodup : content.NamesNodup)
    (hwrap : (after builds).oidCounter.NotWrapped) {databases : List PgDatabaseRow}
    (h : DatabaseRows builds i databases) : (databases.map PgDatabaseRow.oid).Nodup := by
  apply nodup_map_of_keys (h.keys hcontent ▸ visits_nodup _ hnodup)
  intro row hrow row' hrow' heq
  exact key_eq_of_oid_eq hcontent hwrap (heq ▸ h.reported hrow) (h.reported hrow')
    fun hf => absurd rfl hf

private theorem oneSystemSchema_of_nodup (h : NamespaceRows builds i namespaces)
    (hoids : (namespaces.map PgNamespaceRow.oid).Nodup) : content.OneSystemSchema := by
  have hrow : ∀ c, content.Lists (.schema c "pg_catalog") → ∃ row ∈ namespaces,
      row.key = .schema c "pg_catalog" ∧ row.oid = pgCatalogNamespaceOid.toInt32 := by
    intro c hlists
    have hmem := mem_visits_pgNamespace hlists
    rw [← h.keys hcontent] at hmem
    obtain ⟨row, hrow, hkey⟩ := List.mem_map.mp hmem
    exact ⟨row, hrow, hkey, reported_fixed (h.reported hrow) (by rw [hkey]; rfl)⟩
  intro c c' hlists hlists'
  obtain ⟨row, hrow₁, hkey, hoid⟩ := hrow c hlists
  obtain ⟨row', hrow₂, hkey', hoid'⟩ := hrow c' hlists'
  have heq := List.inj_on_of_nodup_map hoids hrow₁ hrow₂ (hoid.trans hoid'.symm)
  rw [← heq, hkey] at hkey'
  exact (OidCacheKey.schema.inj hkey').1

end Tables
end Steady

/-- While the counter has not wrapped, the rows of all builds over one catalog list join
up, unless `pg_namespace` is read and lists two system schemas. -/
theorem joinsUp_iff (content : CatalogList) (builds : List Build)
    (hcontent : ∀ build ∈ builds, build.catalogList.content = content)
    (hnodup : content.NamesNodup) (hfit : content.ColumnsFit)
    (hwrap : (after builds).oidCounter.NotWrapped) :
    JoinsUp builds ↔ ((∃ i rows, NamespaceRows builds i rows) → content.OneSystemSchema) := by
  constructor
  · rintro h ⟨i, rows, hrows⟩
    exact oneSystemSchema_of_nodup hcontent hrows (h.namespaceOids i rows hrows)
  · intro hone
    refine ⟨?_, ?_, ?_, ?_, ?_, ?_⟩
    · intro i j attributes classes hattributes hclasses column hcolumn
      exact joinsUp_attributeClass hcontent hnodup hwrap hattributes hclasses hcolumn
    · intro i j attributes classes hattributes hclasses row hrow
      exact joinsUp_attributeNumbers hcontent hnodup hfit hwrap hattributes hclasses hrow
    · intro i j classes namespaces hclasses hnamespaces row hrow
      exact joinsUp_classNamespace hcontent hnodup hwrap (hone ⟨j, namespaces, hnamespaces⟩)
        hclasses hnamespaces hrow
    · exact fun i rows hrows => joinsUp_classOids hcontent hnodup hwrap hrows
    · exact fun i rows hrows =>
        joinsUp_namespaceOids hcontent hnodup hwrap (hone ⟨i, rows, hrows⟩) hrows
    · exact fun i rows hrows => joinsUp_databaseOids hcontent hnodup hwrap hrows

section Examples

/-- Reads of the tables over one catalog list, none of which fails. -/
def readsOf (content : CatalogList) (tables : List SystemTable) : List Build :=
  tables.map fun table => ⟨table, content, fun _ => none⟩

theorem readsOf_content (content : CatalogList) (tables : List SystemTable) :
    ∀ build ∈ readsOf content tables, build.catalogList.content = content := by
  intro build hbuild
  obtain ⟨table, _, rfl⟩ := List.mem_map.mp hbuild
  rfl

theorem userTableReads_joinUp : JoinsUp (readsOf userTable
    [.pgNamespace, .pgAttribute, .pgClass, .pgDatabase, .pgNamespace]) := by
  refine (joinsUp_iff userTable _ (readsOf_content _ _) userTable_nodup ?_ (by decide)).mpr ?_
  · intro c s t schema hschema
    cases hschema
    decide
  · rintro _ c c' ⟨hc, _⟩ ⟨hc', _⟩
    exact (List.mem_singleton.mp hc).trans (List.mem_singleton.mp hc').symm

/-- Two catalogs that both have a system schema. -/
def twoSystemSchemas : CatalogList where
  catalogNames := ["datafusion", "archive"]
  schemaNames _ := some ["pg_catalog"]
  tableNames _ _ := none
  tableSchema _ _ _ := none
  tableType _ _ _ := none

theorem twoSystemSchemas_not_joinsUp :
    ¬ ∀ (content : CatalogList) (builds : List Build),
      (∀ build ∈ builds, build.catalogList.content = content) → content.NamesNodup →
        content.ColumnsFit → JoinsUp builds := by
  intro h
  have hjoins := h twoSystemSchemas (readsOf twoSystemSchemas [.pgNamespace])
    (readsOf_content _ _) ⟨by decide, fun _ => (by decide : ["pg_catalog"].Nodup), fun _ _ => List.nodup_nil⟩
    (fun _ _ _ _ hschema => nomatch hschema)
  exact absurd (hjoins.namespaceOids 0 _ ⟨_, rfl, rfl⟩) (by decide)

end Examples
end PgCatalogSchemaProvider
end DatafusionPostgres.PgCatalog
