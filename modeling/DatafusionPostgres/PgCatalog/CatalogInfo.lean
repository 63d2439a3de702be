import DatafusionPostgres.ArrowPg.DataType
import Mathlib.Data.List.Nodup

/-! `datafusion-pg-catalog/src/pg_catalog/catalog_info.rs`: what the system tables
read of the catalog list. -/
namespace DatafusionPostgres.PgCatalog
open ArrowPg

/-- The error of a provider, by its text. -/
structure DataFusionError where
  message : String
  deriving DecidableEq, Repr

inductive TableType where
  | base | view | temporary
  deriving DecidableEq, Repr

/-- The content of a catalog list at one moment. -/
structure CatalogList where
  catalogNames : List String
  schemaNames : String → Option (List String)
  tableNames : String → String → Option (List String)
  tableSchema : String → String → String → Option Schema
  tableType : String → String → String → Option TableType

inductive CatalogCall where
  | catalogNames
  | schemaNames (catalogName : String)
  | tableNames (catalogName schemaName : String)
  | tableSchema (catalogName schemaName tableName : String)
  | tableType (catalogName schemaName tableName : String)
  deriving DecidableEq, Repr

/-- The content together with the calls that fail instead of telling it. -/
structure CatalogInfo where
  content : CatalogList
  failure : CatalogCall → Option DataFusionError

namespace CatalogInfo

def answer {α : Type} (info : CatalogInfo) (call : CatalogCall) (value : α) :
    Except DataFusionError α :=
  match info.failure call with
  | some error => .error error
  | none => .ok value

def catalogNames (info : CatalogInfo) : Except DataFusionError (List String) :=
  info.answer .catalogNames info.content.catalogNames

def schemaNames (info : CatalogInfo) (catalogName : String) :
    Except DataFusionError (Option (List String)) :=
  info.answer (.schemaNames catalogName) (info.content.schemaNames catalogName)

def tableNames (info : CatalogInfo) (catalogName schemaName : String) :
    Except DataFusionError (Option (List String)) :=
  info.answer (.tableNames catalogName schemaName) (info.content.tableNames catalogName schemaName)

def tableSchema (info : CatalogInfo) (catalogName schemaName tableName : String) :
    Except DataFusionError (Option Schema) :=
  info.answer (.tableSchema catalogName schemaName tableName)
    (info.content.tableSchema catalogName schemaName tableName)

def tableType (info : CatalogInfo) (catalogName schemaName tableName : String) :
    Except DataFusionError (Option TableType) :=
  info.answer (.tableType catalogName schemaName tableName)
    (info.content.tableType catalogName schemaName tableName)

theorem answer_ok {α : Type} {info : CatalogInfo} {call : CatalogCall} {value a : α}
    (h : info.answer call value = .ok a) : a = value := by
  unfold answer at h
  split at h
  · cases h
  · exact (Except.ok.inj h).symm

end CatalogInfo

def tableTypeToString : TableType → String
  | .base => "r"
  | .view => "v"
  | .temporary => "r"

namespace CatalogList

/-- The schemas of a catalog, none when the list does not have the catalog. -/
def schemas (content : CatalogList) (catalogName : String) : List String :=
  (content.schemaNames catalogName).getD []

def tables (content : CatalogList) (catalogName schemaName : String) : List String :=
  (content.tableNames catalogName schemaName).getD []

/-- No provider lists a name twice. -/
structure NamesNodup (content : CatalogList) : Prop where
  catalogs : content.catalogNames.Nodup
  schemas : ∀ catalogName, (content.schemas catalogName).Nodup
  tables : ∀ catalogName schemaName, (content.tables catalogName schemaName).Nodup

end CatalogList
end DatafusionPostgres.PgCatalog
