import DatafusionPostgres.ArrowPg.TypeMapping
import DatafusionPostgres.Library.Run
import DatafusionPostgres.PgCatalog.OidCache

/-! `get_data` of the four system tables that hand out OIDs: `pg_class`,
`pg_attribute`, `pg_namespace` and `pg_database`. The name of the catalog or schema
that a row is about is kept beside its columns. -/
namespace DatafusionPostgres.PgCatalog
open ArrowPg Library

/-- The locals of a running build: the map it fills and the rows so far. -/
structure Work (ρ : Type) where
  oidCounter : AtomicU32
  localCache : HashMap OidCacheKey Oid
  rows : List ρ

abbrev Builder (ρ : Type) := EStateM DataFusionError (Work ρ)

section Builder
variable {ρ : Type}

/-- `resolve_oid` against the shared cache, stored in the map of the build. -/
def assign (oidCache : HashMap OidCacheKey Oid) (key : OidCacheKey) : Builder ρ Oid :=
  modifyGet fun work =>
    let (oid, oidCounter) := resolveOid key oidCache work.oidCounter
    (oid, { work with oidCounter, localCache := work.localCache.insert key oid })

def pushRow (row : ρ) : Builder ρ PUnit :=
  modifyGet fun work => (⟨⟩, { work with rows := work.rows ++ [row] })

/-- `if let Some(names) = … { for name in names { … } }`. -/
def forNames (names : Option (List String)) (body : String → Builder ρ PUnit) : Builder ρ PUnit :=
  match names with
  | some names => forM names body
  | none => pure ⟨⟩

/-- A build holds the lock of the cache to its end, and stores into it only then: a
failed one has moved the counter and nothing else. -/
def getDataWith (collect : HashMap OidCacheKey Oid → Builder ρ PUnit)
    (reconcile : HashMap OidCacheKey Oid → HashMap OidCacheKey Oid → HashMap OidCacheKey Oid)
    (provider : PgCatalogSchemaProvider) :
    Except DataFusionError (List ρ) × PgCatalogSchemaProvider :=
  match collect provider.oidCache ⟨provider.oidCounter, .empty, []⟩ with
  | .ok _ work => (.ok work.rows, ⟨work.oidCounter, reconcile provider.oidCache work.localCache⟩)
  | .error error work => (.error error, { provider with oidCounter := work.oidCounter })

end Builder

structure PgClassRow where
  catalogName : String
  schemaName : String
  oid : Int32
  relname : String
  relnamespace : Int32
  reltype : Int32
  reloftype : Option Int32
  relowner : Int32
  relam : Int32
  relfilenode : Int32
  reltablespace : Int32
  relpages : Int32
  reltuples : Float
  relallvisible : Int32
  reltoastrelid : Int32
  relhasindex : Bool
  relisshared : Bool
  relpersistence : String
  relkind : String
  relnatts : Int16
  relchecks : Int16
  relhasrules : Bool
  relhastriggers : Bool
  relhassubclass : Bool
  relrowsecurity : Bool
  relforcerowsecurity : Bool
  relispopulated : Bool
  relreplident : String
  relispartition : Bool
  relrewrite : Option Int32
  relfrozenxid : Int32
  relminmxid : Int32
  relpartbound : String

namespace PgClassTable

def visitTable (catalogList : CatalogInfo) (oidCache : HashMap OidCacheKey Oid)
    (catalogName schemaName : String) (schemaOid : Oid) (tableName : String) :
    Builder PgClassRow PUnit := do
  let tableOid ← assign oidCache (.table catalogName schemaName tableName)
  let tableSchema ← liftExcept (catalogList.tableSchema catalogName schemaName tableName)
  match tableSchema with
  | some tableSchema => do
    let tableType ← liftExcept (catalogList.tableType catalogName schemaName tableName)
    pushRow {
      catalogName
      schemaName
      oid := tableOid.toInt32
      relname := tableName
      relnamespace := schemaOid.toInt32
      reltype := 0
      reloftype := none
      relowner := 0
      relam := 0
      relfilenode := tableOid.toInt32
      reltablespace := 0
      relpages := 1
      reltuples := 0.0
      relallvisible := 0
      reltoastrelid := 0
      relhasindex := false
      relisshared := false
      relpersistence := "p"
      relkind := tableTypeToString (tableType.getD .temporary)
      relnatts := .ofNat tableSchema.fields.length
      relchecks := 0
      relhasrules := false
      relhastriggers := false
      relhassubclass := false
      relrowsecurity := false
      relforcerowsecurity := false
      relispopulated := true
      relreplident := "d"
      relispartition := false
      relrewrite := none
      relfrozenxid := 0
      relminmxid := 0
      relpartbound := "" }
  | none => pure ⟨⟩

def visitSchema (catalogList : CatalogInfo) (oidCache : HashMap OidCacheKey Oid)
    (catalogName schemaName : String) : Builder PgClassRow PUnit := do
  let schemaOid ← assign oidCache (.schema catalogName schemaName)
  let tableNames ← liftExcept (catalogList.tableNames catalogName schemaName)
  forNames tableNames (visitTable catalogList oidCache catalogName schemaName schemaOid)

def visitCatalog (catalogList : CatalogInfo) (oidCache : HashMap OidCacheKey Oid)
    (catalogName : String) : Builder PgClassRow PUnit := do
  let _ ← assign oidCache (.catalog catalogName)
  let schemaNames ← liftExcept (catalogList.schemaNames catalogName)
  forNames schemaNames (visitSchema catalogList oidCache catalogName)

def collect (catalogList : CatalogInfo) (oidCache : HashMap OidCacheKey Oid) :
    Builder PgClassRow PUnit := do
  let catalogNames ← liftExcept catalogList.catalogNames
  forM catalogNames (visitCatalog catalogList oidCache)

/-- The new map replaces the cache, in case schemas or tables were dropped. -/
def reconcile (_oidCache swapCache : HashMap OidCacheKey Oid) : HashMap OidCacheKey Oid := swapCache

def getData (catalogList : CatalogInfo) (provider : PgCatalogSchemaProvider) :
    Except DataFusionError (List PgClassRow) × PgCatalogSchemaProvider :=
  getDataWith (collect catalogList) reconcile provider

end PgClassTable

structure PgAttributeRow where
  catalogName : String
  schemaName : String
  tableName : String
  attrelid : Int32
  attname : String
  atttypid : Int32
  attstattarget : Int32
  attlen : Int16
  attnum : Int16
  attndims : Int32
  attcacheoff : Int32
  atttypmod : Int32
  attbyval : Bool
  attalign : String
  attstorage : String
  attcompression : Option String
  attnotnull : Bool
  atthasdef : Bool
  atthasmissing : Bool
  attidentity : String
  attgenerated : String
  attisdropped : Bool
  attislocal : Bool
  attinhcount : Int32
  attcollation : Int32
  attacl : Option String
  attoptions : Option String
  attfdwoptions : Option String
  attmissingval : Option String

namespace PgAttributeTable

/-- OID, length, pass-by-value, alignment and storage of the type of a column. -/
def datafusionToPgType (dataType : DataType) : UInt32 × Int16 × Bool × String × String :=
  match intoPgType dataType with
  | .ok .bool => (PgType.bool.typeOid, 1, true, "c", "p")
  | .ok .char => (PgType.char.typeOid, 1, true, "c", "p")
  | .ok .int2 => (PgType.int2.typeOid, 2, true, "s", "p")
  | .ok .int4 => (PgType.int4.typeOid, 4, true, "i", "p")
  | .ok .int8 => (PgType.int8.typeOid, 8, true, "d", "p")
  | .ok .float4 => (PgType.float4.typeOid, 4, true, "i", "p")
  | .ok .float8 => (PgType.float8.typeOid, 8, true, "d", "p")
  | .ok .text => (PgType.text.typeOid, -1, false, "i", "x")
  | .ok .bytea => (PgType.bytea.typeOid, -1, false, "i", "x")
  | .ok .date => (PgType.date.typeOid, 4, true, "i", "p")
  | .ok .time => (PgType.time.typeOid, 8, true, "d", "p")
  | .ok .timestamp => (PgType.timestamp.typeOid, 8, true, "d", "p")
  | .ok .numeric => (PgType.numeric.typeOid, -1, false, "i", "m")
  | _ => (PgType.text.typeOid, -1, false, "i", "x")

def attributeRow (catalogName schemaName tableName : String) (tableOid : Oid) (columnIdx : Nat)
    (field : Field) : PgAttributeRow :=
  let (pgTypeOid, typeLen, byVal, align, storage) := datafusionToPgType field.dataType
  { catalogName
    schemaName
    tableName
    attrelid := tableOid.toInt32
    attname := field.name
    atttypid := pgTypeOid.toInt32
    attstattarget := -1
    attlen := typeLen
    attnum := .ofNat (columnIdx + 1)
    attndims := 0
    attcacheoff := -1
    atttypmod := -1
    attbyval := byVal
    attalign := align
    attstorage := storage
    attcompression := none
    attnotnull := !field.nullable
    atthasdef := false
    atthasmissing := false
    attidentity := ""
    attgenerated := ""
    attisdropped := false
    attislocal := true
    attinhcount := 0
    attcollation := 0
    attacl := none
    attoptions := none
    attfdwoptions := none
    attmissingval := none }

def visitTable (catalogList : CatalogInfo) (oidCache : HashMap OidCacheKey Oid)
    (catalogName schemaName tableName : String) : Builder PgAttributeRow PUnit := do
  let tableOid ← assign oidCache (.table catalogName schemaName tableName)
  let tableSchema ← liftExcept (catalogList.tableSchema catalogName schemaName tableName)
  match tableSchema with
  | some tableSchema =>
    forM tableSchema.fields.zipIdx fun (field, columnIdx) =>
      pushRow (attributeRow catalogName schemaName tableName tableOid columnIdx field)
  | none => pure ⟨⟩

def visitSchema (catalogList : CatalogInfo) (oidCache : HashMap OidCacheKey Oid)
    (catalogName schemaName : String) : Builder PgAttributeRow PUnit := do
  let tableNames ← liftExcept (catalogList.tableNames catalogName schemaName)
  forNames tableNames (visitTable catalogList oidCache catalogName schemaName)

def visitCatalog (catalogList : CatalogInfo) (oidCache : HashMap OidCacheKey Oid)
    (catalogName : String) : Builder PgAttributeRow PUnit := do
  let schemaNames ← liftExcept (catalogList.schemaNames catalogName)
  forNames schemaNames (visitSchema catalogList oidCache catalogName)

def collect (catalogList : CatalogInfo) (oidCache : HashMap OidCacheKey Oid) :
    Builder PgAttributeRow PUnit := do
  let catalogNames ← liftExcept catalogList.catalogNames
  forM catalogNames (visitCatalog catalogList oidCache)

/-- Stale tables go; catalogs and schemas stay, since this build does not list them. -/
def reconcile (oidCache tableOidCache : HashMap OidCacheKey Oid) : HashMap OidCacheKey Oid :=
  let retained := oidCache.retain fun key =>
    match key with
    | .catalog _ => true
    | .schema _ _ => true
    | .table _ _ _ => tableOidCache.containsKey key
  retained.extend tableOidCache

def getData (catalogList : CatalogInfo) (provider : PgCatalogSchemaProvider) :
    Except DataFusionError (List PgAttributeRow) × PgCatalogSchemaProvider :=
  getDataWith (collect catalogList) reconcile provider

end PgAttributeTable

structure PgNamespaceRow where
  catalogName : String
  oid : Int32
  nspname : String
  nspowner : Int32
  nspacl : Option String
  options : Option String

namespace PgNamespaceTable

def visitSchema (oidCache : HashMap OidCacheKey Oid) (catalogName schemaName : String) :
    Builder PgNamespaceRow PUnit := do
  let schemaOid ← assign oidCache (.schema catalogName schemaName)
  pushRow {
    catalogName
    oid := schemaOid.toInt32
    nspname := schemaName
    nspowner := 10
    nspacl := none
    options := none }

def visitCatalog (catalogList : CatalogInfo) (oidCache : HashMap OidCacheKey Oid)
    (catalogName : String) : Builder PgNamespaceRow PUnit := do
  let schemaNames ← liftExcept (catalogList.schemaNames catalogName)
  forNames schemaNames (visitSchema oidCache catalogName)

def collect (catalogList : CatalogInfo) (oidCache : HashMap OidCacheKey Oid) :
    Builder PgNamespaceRow PUnit := do
  let catalogNames ← liftExcept catalogList.catalogNames
  forM catalogNames (visitCatalog catalogList oidCache)

/-- Every schema goes, and each table of a schema that is no longer listed. -/
def reconcile (oidCache schemaOidCache : HashMap OidCacheKey Oid) : HashMap OidCacheKey Oid :=
  let retained := oidCache.retain fun key =>
    match key with
    | .catalog _ => true
    | .schema _ _ => false
    | .table catalog schemaName _ => schemaOidCache.containsKey (.schema catalog schemaName)
  retained.extend schemaOidCache

def getData (catalogList : CatalogInfo) (provider : PgCatalogSchemaProvider) :
    Except DataFusionError (List PgNamespaceRow) × PgCatalogSchemaProvider :=
  getDataWith (collect catalogList) reconcile provider

end PgNamespaceTable

structure PgDatabaseRow where
  oid : Int32
  datname : String
  datdba : Int32
  encoding : Int32
  datlocprovider : String
  datcollate : String
  datctype : String
  datistemplate : Bool
  datallowconn : Bool
  datconnlimit : Int32
  datlastsysoid : Int32
  datfrozenxid : Int32
  datminmxid : Int32
  dattablespace : Int32
  daticulocale : Option String
  daticurules : Option String
  datacl : Option (List (Option Int32))

namespace PgDatabaseTable

def visitCatalog (oidCache : HashMap OidCacheKey Oid) (catalogName : String) :
    Builder PgDatabaseRow PUnit := do
  let catalogOid ← assign oidCache (.catalog catalogName)
  pushRow {
    oid := catalogOid.toInt32
    datname := catalogName
    datdba := 10
    encoding := 6
    datlocprovider := "libc"
    datcollate := "en_US.UTF-8"
    datctype := "en_US.UTF-8"
    datistemplate := false
    datallowconn := true
    datconnlimit := -1
    datlastsysoid := 100000
    datfrozenxid := 1
    datminmxid := 1
    dattablespace := 1663
    daticulocale := none
    daticurules := none
    datacl := none }

def defaultDatname : String := "postgres"

def collect (catalogList : CatalogInfo) (oidCache : HashMap OidCacheKey Oid) :
    Builder PgDatabaseRow PUnit := do
  let catalogNames ← liftExcept catalogList.catalogNames
  forM catalogNames (visitCatalog oidCache)
  let work ← get
  if (work.rows.map PgDatabaseRow.datname).contains defaultDatname then pure ⟨⟩
  else visitCatalog oidCache defaultDatname

/-- Every catalog goes, and what belongs to a catalog that is no longer listed. -/
def reconcile (oidCache catalogOidCache : HashMap OidCacheKey Oid) : HashMap OidCacheKey Oid :=
  let retained := oidCache.retain fun key =>
    match key with
    | .catalog _ => false
    | .schema catalog _ => catalogOidCache.containsKey (.catalog catalog)
    | .table catalog _ _ => catalogOidCache.containsKey (.catalog catalog)
  retained.extend catalogOidCache

def getData (catalogList : CatalogInfo) (provider : PgCatalogSchemaProvider) :
    Except DataFusionError (List PgDatabaseRow) × PgCatalogSchemaProvider :=
  getDataWith (collect catalogList) reconcile provider

end PgDatabaseTable

/-- An OID that a row shows, with the object it stands for. -/
abbrev Report := OidCacheKey × Int32

def PgClassRow.reports (row : PgClassRow) : List Report :=
  [(.table row.catalogName row.schemaName row.relname, row.oid),
    (.schema row.catalogName row.schemaName, row.relnamespace),
    (.table row.catalogName row.schemaName row.relname, row.relfilenode)]

def PgAttributeRow.reports (row : PgAttributeRow) : List Report :=
  [(.table row.catalogName row.schemaName row.tableName, row.attrelid)]

def PgNamespaceRow.reports (row : PgNamespaceRow) : List Report :=
  [(.schema row.catalogName row.nspname, row.oid)]

def PgDatabaseRow.reports (row : PgDatabaseRow) : List Report := [(.catalog row.datname, row.oid)]

inductive SystemTable where
  | pgClass | pgAttribute | pgNamespace | pgDatabase
  deriving DecidableEq, Repr

/-- One build: which table, over which catalog list. -/
structure Build where
  table : SystemTable
  catalogList : CatalogInfo

def reportsOf {ρ : Type} (reports : ρ → List Report) :
    Except DataFusionError (List ρ) → List Report
  | .ok rows => rows.flatMap reports
  | .error _ => []

namespace PgCatalogSchemaProvider

/-- The state after a build, and what the build reports. -/
def getData (provider : PgCatalogSchemaProvider) (build : Build) :
    List Report × PgCatalogSchemaProvider :=
  match build.table with
  | .pgClass =>
    let (rows, provider) := PgClassTable.getData build.catalogList provider
    (reportsOf PgClassRow.reports rows, provider)
  | .pgAttribute =>
    let (rows, provider) := PgAttributeTable.getData build.catalogList provider
    (reportsOf PgAttributeRow.reports rows, provider)
  | .pgNamespace =>
    let (rows, provider) := PgNamespaceTable.getData build.catalogList provider
    (reportsOf PgNamespaceRow.reports rows, provider)
  | .pgDatabase =>
    let (rows, provider) := PgDatabaseTable.getData build.catalogList provider
    (reportsOf PgDatabaseRow.reports rows, provider)

def step (provider : PgCatalogSchemaProvider) (build : Build) : PgCatalogSchemaProvider :=
  (provider.getData build).2

/-- The state after a run of builds from a new provider. -/
def after (builds : List Build) : PgCatalogSchemaProvider := run step tryNew builds

/-- The build at position `i` of the run shows `oid` for the object. -/
def Reported (builds : List Build) (i : Nat) (key : OidCacheKey) (oid : Int32) : Prop :=
  ∃ build, builds[i]? = some build ∧ (key, oid) ∈ ((after (builds.take i)).getData build).1

end PgCatalogSchemaProvider
end DatafusionPostgres.PgCatalog
