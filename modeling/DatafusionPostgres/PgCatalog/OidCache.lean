import DatafusionPostgres.Library.Allocation
import DatafusionPostgres.Library.HashMap
import DatafusionPostgres.PgCatalog.CatalogInfo

/-! `datafusion-pg-catalog/src/pg_catalog.rs`: the OID cache and the counter that
the system tables share. -/
namespace DatafusionPostgres.PgCatalog
open Library

abbrev Oid := UInt32

inductive OidCacheKey where
  | catalog (name : String)
  | schema (catalogName name : String)
  | table (catalogName schemaName name : String)
  deriving DecidableEq, Repr

def pgCatalogNamespaceOid : Oid := 11

/-- The OID that the static catalog rows refer to, for an object that has one. -/
def fixedOid : OidCacheKey → Option Oid
  | .schema _ schema => if schema = "pg_catalog" then some pgCatalogNamespaceOid else none
  | _ => none

/-- A wrapping counter as the number of increments behind it, starting value included. -/
structure AtomicU32 where
  count : Nat
  deriving DecidableEq, Repr

namespace AtomicU32

def new (value : UInt32) : AtomicU32 := ⟨value.toNat⟩

def load (counter : AtomicU32) : UInt32 := .ofNat counter.count

/-- `fetch_add(1)`: the value before the increment. -/
def fetchAdd (counter : AtomicU32) : UInt32 × AtomicU32 := (counter.load, ⟨counter.count + 1⟩)

def NotWrapped (counter : AtomicU32) : Prop := counter.count < UInt32.size

instance (counter : AtomicU32) : Decidable counter.NotWrapped := Nat.decLt _ _

end AtomicU32

def resolveOid (key : OidCacheKey) (oidCache : HashMap OidCacheKey Oid) (oidCounter : AtomicU32) :
    Oid × AtomicU32 :=
  match fixedOid key with
  | some oid => (oid, oidCounter)
  | none =>
    match oidCache.get key with
    | some oid => (oid, oidCounter)
    | none => oidCounter.fetchAdd

/-- What the provider of the system tables keeps between builds. -/
structure PgCatalogSchemaProvider where
  oidCounter : AtomicU32
  oidCache : HashMap OidCacheKey Oid

def PgCatalogSchemaProvider.tryNew : PgCatalogSchemaProvider where
  oidCounter := .new 16384
  oidCache := .empty

/-- One resolution is one assignment of the allocator. -/
theorem resolveOid_assigned (key : OidCacheKey) (oidCache : HashMap OidCacheKey Oid)
    (oidCounter : AtomicU32) :
    Assigned fixedOid UInt32.ofNat oidCache.get oidCounter.count
      [(key, (resolveOid key oidCache oidCounter).1)]
      (resolveOid key oidCache oidCounter).2.count := by
  unfold resolveOid
  cases hf : fixedOid key with
  | some oid => exact .known (by simp [knownId, hf]) (.done _)
  | none =>
    cases hc : oidCache.get key with
    | some oid => exact .known (by simp [knownId, hf, hc]) (.done _)
    | none => exact .fresh (by simp [knownId, hf, hc]) (.done _)

namespace CatalogList

def Lists (content : CatalogList) : OidCacheKey → Prop
  | .catalog name => name ∈ content.catalogNames
  | .schema catalogName name =>
    catalogName ∈ content.catalogNames ∧ name ∈ content.schemas catalogName
  | .table catalogName schemaName name =>
    catalogName ∈ content.catalogNames ∧ schemaName ∈ content.schemas catalogName ∧
      name ∈ content.tables catalogName schemaName

end CatalogList
end DatafusionPostgres.PgCatalog
