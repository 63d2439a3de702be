import DatafusionPostgres.Library.Text
import DatafusionPostgres.Sql.Syntax

/-! The rewrite rules, each as its visitor makes it. -/
namespace DatafusionPostgres.Sql
open DatafusionPostgres.Library

/-- A visitor's hooks; a kind of node without one is kept. -/
def hooks (query : Query → Query) (tableFactor : TableFactor → TableFactor) (expr : Expr → Expr) :
    ∀ k, Node k → Node k
  | .query, n => query n
  | .tableFactor, n => tableFactor n
  | .expr, n => expr n
  | .setExpr, n => n
  | .statement, n => n

def Rest.none {ν : Kind → Type} : Rest ν := ⟨"", []⟩

/-- The quotes in a quoted text doubled, unless they are doubled or escaped already. -/
def escapeQuotedString (quote : Char) : (previous : Char) → List Char → List Char
  | _, [] => []
  | previous, [c] => if c = quote ∧ previous ≠ '\\' then [c, c] else [c]
  | previous, c :: next :: cs =>
    if c = quote then
      if previous = '\\' then c :: escapeQuotedString quote previous (next :: cs)
      else if next = quote then c :: next :: escapeQuotedString quote c cs
      else c :: c :: escapeQuotedString quote c (next :: cs)
    else c :: escapeQuotedString quote c (next :: cs)

def Ident.display (ident : Ident) : String :=
  match ident.quoteStyle with
  | some quote => String.ofList
    (quote :: escapeQuotedString quote (Char.ofNat 0) ident.value.toList ++ [quote])
  | none => ident.value

mutual

def DataType.display : DataType → String
  | .text => "TEXT"
  | .varchar length => "VARCHAR" ++ (length.map fun n => "(" ++ n ++ ")").getD ""
  | .char length => "CHAR" ++ (length.map fun n => "(" ++ n ++ ")").getD ""
  | .string length => "STRING" ++ (length.map fun n => "(" ++ toString n ++ ")").getD ""
  | .array elem => elem.display
  | .other display => display

def ArrayElemTypeDef.display : ArrayElemTypeDef → String
  | .none => "ARRAY"
  | .angleBracket elem => "ARRAY<" ++ elem.display ++ ">"
  | .squareBracket elem size => elem.display ++ "[" ++ (size.map toString).getD "" ++ "]"
  | .parenthesis elem => "Array(" ++ elem.display ++ ")"

end

/-- Lower case as far as it matters: the words that a rule looks for have ASCII letters only,
and no letter with an uppercase form outside of ASCII. -/
def toLowercase (text : String) : String := String.ofList (text.toList.map Char.toLower)

def joinIdents (idents : List Ident) : String := ".".intercalate (idents.map Ident.value)

def wildcardTable? : SelectItem Node → Option String
  | .qualifiedWildcard (.objectName name) _ => some (joinIdents name)
  | _ => none

namespace AliasDuplicatedProjectionRewrite

def isWildcard : SelectItem Node → Bool
  | .wildcard _ => true
  | _ => false

/-- The name that a projected expression of a wildcard's table gets its alias from. -/
def aliasPartial (wildcardTables : List String) : Expr → Option Ident
  | .mk (.identifier ident) => some ident
  | .mk (.compoundIdentifier idents) =>
    if 1 < idents.length ∧ joinIdents idents.dropLast ∈ wildcardTables then idents.getLast?
    else none
  | _ => none

def aliasItem (wildcardTables : List String) : SelectItem Node → SelectItem Node
  | .unnamedExpr expr =>
    match aliasPartial wildcardTables expr with
    | some name => .exprWithAlias expr (Ident.new ("__alias_" ++ name.display))
    | none => .unnamedExpr expr
  | item => item

def rewriteSelectWithAlias (select : Select Node) : Select Node :=
  let wildcardTables := select.projection.filterMap wildcardTable?
  if wildcardTables.isEmpty && !select.projection.any isWildcard then select
  else { select with projection := select.projection.map (aliasItem wildcardTables) }

def rewrite : Statement → Statement
  | .mk (.statementQuery (.mk (.query query))) =>
    match query.body with
    | .mk (.select select) =>
      let body := .mk (.select (rewriteSelectWithAlias select))
      .mk (.statementQuery (.mk (.query { query with body := body })))
    | _ => .mk (.statementQuery (.mk (.query query)))
  | s => s

end AliasDuplicatedProjectionRewrite

namespace ResolveUnqualifiedIdentifier

def tableAlias? : TableFactor → Option String
  | .mk (.table _ (some tableAlias) _ _) => some tableAlias.name.value
  | _ => none

def getTableAliases (tables : List (TableWithJoins Node)) : List String :=
  tables.flatMap fun twj =>
    (twj.relation :: twj.joins.map Join.relation).filterMap tableAlias?

/-- The table of the only qualified wildcard. -/
def getQualifiedWildcardAlias (projection : List (SelectItem Node)) : Option String :=
  match projection.filterMap wildcardTable? with
  | [table] => some table
  | _ => none

def projectionAlias? : SelectItem Node → Option String
  | .exprWithAlias _ aliasName => some aliasName.value
  | .unnamedExpr (.mk (.identifier ident)) => some ident.value
  | _ => none

def getProjectionAliases (projection : List (SelectItem Node)) : List String :=
  projection.filterMap projectionAlias?

def rewriteExpr (wildcardAlias : String) (tableAliases projectionAliases : List String) :
    Expr → Expr
  | .mk (.identifier ident) =>
    if ident.value ∉ tableAliases ∧ ident.value ∉ projectionAliases then
      .mk (.compoundIdentifier [Ident.new wildcardAlias, ident])
    else .mk (.identifier ident)
  | .mk (.binaryOp left op right) =>
    .mk (.binaryOp (rewriteExpr wildcardAlias tableAliases projectionAliases left) op
      (rewriteExpr wildcardAlias tableAliases projectionAliases right))
  | e => e

def rewriteOrderBy (f : Expr → Expr) (orderBy : OrderBy Node) : OrderBy Node :=
  match orderBy.kind with
  | .expressions exprs =>
    { orderBy with kind := .expressions (exprs.map fun e => { e with expr := f e.expr }) }
  | .all _ => orderBy

def rewriteUnqualifiedIdentifiers (query : QueryFields Node) : QueryFields Node :=
  match query.body with
  | .mk (.select select) =>
    let tableAliases := getTableAliases select.fromClause
    match getQualifiedWildcardAlias select.projection with
    | none => query
    | some wildcardAlias =>
      if tableAliases.isEmpty then query
      else
        let f := rewriteExpr wildcardAlias tableAliases (getProjectionAliases select.projection)
        { query with
          body := .mk (.select { select with selection := select.selection.map f })
          orderBy := query.orderBy.map (rewriteOrderBy f) }
  | _ => query

def rewrite : Statement → Statement
  | .mk (.statementQuery (.mk (.query query))) =>
    .mk (.statementQuery (.mk (.query (rewriteUnqualifiedIdentifiers query))))
  | s => s

end ResolveUnqualifiedIdentifier

/-- The elements that both array rules read from a text in braces. -/
def arrayItems (text : List Char) : List String :=
  let items := trimMatches (fun c => c == '{' || c == '}' || c == ' ') text
  let items := (items.splitOn ',').map (trimMatches isWhitespace)
  (items.filter fun item => !item.isEmpty).map String.ofList

def functionCall (name : String) (args : List Expr) : Expr :=
  .mk (.function ⟨[Ident.new name], .list (args.map .unnamed) .none, .none⟩)

namespace RewriteArrayAnyAllOperation

/-- The right operand as an array expression. -/
def arrayOperand : Expr → Expr
  | .mk (.value (.singleQuotedString text)) =>
    let arrayLiteral := trimMatches isWhitespace text.toList
    if arrayLiteral.head? = some '{' ∧ arrayLiteral.getLast? = some '}' then
      .mk (.array ((arrayItems arrayLiteral).map fun s => .mk (.value (.singleQuotedString s))) true)
    else .mk (.value (.singleQuotedString text))
  | right => right

def anyToArrayContains (left right : Expr) : Expr :=
  functionCall "array_contains" [arrayOperand right, left]

def preVisitExpr : Expr → Expr
  | .mk (.anyOp left .eq right _) => anyToArrayContains left right
  | .mk (.allOp left .notEq right) => .mk (.unaryOp .not (anyToArrayContains left right))
  | e => e

end RewriteArrayAnyAllOperation

namespace PrependUnqualifiedPgTableName

def pgCatalogTables : List String :=
  ["pg_aggregate", "pg_am", "pg_amop", "pg_amproc", "pg_cast", "pg_collation", "pg_conversion",
   "pg_language", "pg_opclass", "pg_operator", "pg_opfamily", "pg_proc", "pg_range", "pg_ts_config",
   "pg_ts_dict", "pg_ts_parser", "pg_ts_template", "pg_type", "pg_attribute", "pg_attrdef",
   "pg_auth_members", "pg_authid", "pg_class", "pg_constraint", "pg_database", "pg_db_role_setting",
   "pg_default_acl", "pg_depend", "pg_description", "pg_enum", "pg_event_trigger", "pg_extension",
   "pg_foreign_data_wrapper", "pg_foreign_server", "pg_foreign_table", "pg_index", "pg_inherits",
   "pg_init_privs", "pg_largeobject", "pg_largeobject_metadata", "pg_namespace",
   "pg_partitioned_table", "pg_policy", "pg_publication", "pg_publication_namespace",
   "pg_publication_rel", "pg_replication_origin", "pg_rewrite", "pg_seclabel", "pg_sequence",
   "pg_shdepend", "pg_shdescription", "pg_shseclabel", "pg_statistic", "pg_statistic_ext",
   "pg_statistic_ext_data", "pg_subscription", "pg_subscription_rel", "pg_tablespace", "pg_trigger",
   "pg_user_mapping", "pg_roles", "pg_settings", "pg_stat_gssapi", "pg_tables", "pg_views",
   "pg_matviews", "pg_stat_user_tables", "pg_replication_slots"]

def eqIgnoreAsciiCase (a b : String) : Bool :=
  a.toList.map Char.toLower == b.toList.map Char.toLower

def isPgCatalogTable (name : String) : Bool :=
  pgCatalogTables.any fun table => eqIgnoreAsciiCase table name

def preVisitTableFactor : TableFactor → TableFactor
  | .mk (.table [ident] aliasName none rest) =>
    if isPgCatalogTable ident.value then
      .mk (.table [Ident.new "pg_catalog", ident] aliasName none rest)
    else .mk (.table [ident] aliasName none rest)
  | t => t

end PrependUnqualifiedPgTableName

/-- The last part alone of a name of several parts. -/
def lastIdent (name : ObjectName) : ObjectName :=
  if 1 < name.length then name.getLast?.toList else name

theorem length_lastIdent (name : ObjectName) : (lastIdent name).length ≤ 1 := by
  unfold lastIdent
  split
  · cases name.getLast? <;> simp
  · omega

theorem getLast_lastIdent (name : ObjectName) : (lastIdent name).getLast? = name.getLast? := by
  unfold lastIdent
  split
  · cases name.getLast? <;> rfl
  · rfl

namespace StripCallableQualifier

def preVisitTableFactor : TableFactor → TableFactor
  | .mk (.table name aliasName (some args) rest) =>
    .mk (.table (lastIdent name) aliasName (some args) rest)
  | t => t

def preVisitExpr : Expr → Expr
  | .mk (.function call) => .mk (.function { call with name := lastIdent call.name })
  | e => e

end StripCallableQualifier

namespace FixArrayLiteral

def isStringType : DataType → Bool
  | .text => true
  | .varchar _ => true
  | .char _ => true
  | .string _ => true
  | _ => false

def isText : ArrayElemTypeDef → Bool
  | .angleBracket elem => isStringType elem
  | .squareBracket elem _ => isStringType elem
  | .parenthesis elem => isStringType elem
  | .none => false

def arrayElem (arr : ArrayElemTypeDef) (s : String) : Expr :=
  .mk (.value (if isText arr then .singleQuotedString s else .number s false))

def preVisitExpr : Expr → Expr
  | .mk (.cast .doubleColon (.mk (.value (.singleQuotedString text))) (.array arr) rest) =>
    let elems := (arrayItems text.toList).map (arrayElem arr)
    .mk (.cast .doubleColon (.mk (.array elems true)) (.array arr) rest)
  | e => e

end FixArrayLiteral

namespace CurrentUserVariableToSessionUserFunctionCall

def builtinFunctionRename : List (String × String) :=
  [("current_user", "session_user"), ("current_catalog", "current_database")]

def parenthesisLessKeywords : List String :=
  ["current_catalog", "current_user", "session_user", "user"]

def bareIdentifierToFunction : List (String × String) := [("current_schema", "current_schema")]

def lastIdentLower (name : ObjectName) : Option String :=
  name.getLast?.map fun ident => toLowercase ident.value

def wrapIdentifier : Expr → Expr
  | .mk (.identifier ident) =>
    match ident.quoteStyle, bareIdentifierToFunction.lookup (toLowercase ident.value) with
    | none, some target => functionCall target []
    | _, _ => .mk (.identifier ident)
  | e => e

/-- An argument list for a target that needs its parentheses. -/
def callArgs (target : String) : FunctionArguments Node → FunctionArguments Node
  | .none => if target ∈ parenthesisLessKeywords then .none else .list [] .none
  | args => args

def renameFunction : Expr → Expr
  | .mk (.function call) =>
    match (lastIdentLower call.name).bind (List.lookup · builtinFunctionRename) with
    | some target => .mk (.function ⟨[Ident.new target], callArgs target call.args, call.rest⟩)
    | none => .mk (.function call)
  | e => e

def preVisitExpr (e : Expr) : Expr := renameFunction (wrapIdentifier e)

end CurrentUserVariableToSessionUserFunctionCall

namespace StripCollate

def preVisitExpr : Expr → Expr
  | .mk (.collate inner _) => inner
  | e => e

end StripCollate

namespace RewritePgCatalogOperator

def builtinOperator : String → Option BinaryOperator
  | "~" => some .pgRegexMatch
  | "~*" => some .pgRegexIMatch
  | "!~" => some .pgRegexNotMatch
  | "!~*" => some .pgRegexNotIMatch
  | _ => none

def rewriteOperator : BinaryOperator → BinaryOperator
  | .pgCustomBinaryOperator names =>
    if names.head? = some "pg_catalog" then
      ((names.getLast?).bind builtinOperator).getD (.pgCustomBinaryOperator names)
    else .pgCustomBinaryOperator names
  | op => op

def preVisitExpr : Expr → Expr
  | .mk (.binaryOp left op right) => .mk (.binaryOp left (rewriteOperator op) right)
  | e => e

end RewritePgCatalogOperator

namespace RewriteRegCastToSubquery

def column (qualifier name : String) : Expr :=
  .mk (.compoundIdentifier [Ident.new qualifier, Ident.new name])

def identifier (name : String) : Expr := .mk (.identifier (Ident.new name))

def number (digits : String) : Expr := .mk (.value (.number digits false))

def placeholder : Expr := .mk (.value (.placeholder "$1"))

def pgCatalog (table : String) (aliasName : Option TableAlias) : TableFactor :=
  .mk (.table [Ident.new "pg_catalog", Ident.new table] aliasName none .none)

def selectQuery (item : SelectItem Node) (fromClause : List (TableWithJoins Node))
    (selection : Option Expr) : Query :=
  .mk (.query ⟨none, .mk (.select ⟨[item], fromClause, selection, .none⟩), none, none, none, .none⟩)

def partsLength : Expr := functionCall "array_length" [identifier "parts", number "1"]

def part (index : String) : Expr :=
  .mk (.otherExpr ⟨"Subscript", [⟨.expr, identifier "parts"⟩, ⟨.expr, number index⟩]⟩)

def nested (e : Expr) : Expr := .mk (.otherExpr ⟨"Nested", [⟨.expr, e⟩]⟩)

def and (left right : Expr) : Expr := .mk (.binaryOp left .and right)

def eq (left right : Expr) : Expr := .mk (.binaryOp left .eq right)

/-- `SELECT parse_ident($1::TEXT) AS parts` -/
def parsedName : Query :=
  selectQuery (.exprWithAlias
    (functionCall "parse_ident" [.mk (.cast .doubleColon placeholder .text .none)])
    (Ident.new "parts")) [] none

/-- The lookup of a relation name: by its parsed parts, in the current or the named schema. -/
def regclassQuery : Query :=
  selectQuery (.unnamedExpr (column "c" "oid"))
    [⟨pgCatalog "pg_class" (some ⟨Ident.new "c", []⟩),
      [⟨pgCatalog "pg_namespace" (some ⟨Ident.new "n", []⟩),
        ⟨"JOIN ON", [⟨.expr, eq (column "c" "relnamespace") (column "n" "oid")⟩]⟩⟩,
      ⟨.mk (.derived false parsedName none .none), ⟨"CROSS JOIN", []⟩⟩]⟩]
    (some (and
      (.mk (.otherExpr ⟨"InList",
        [⟨.expr, partsLength⟩, ⟨.expr, number "1"⟩, ⟨.expr, number "2"⟩]⟩))
      (nested (.mk (.binaryOp
        (nested (and (and (eq partsLength (number "1"))
          (eq (column "n" "nspname") (functionCall "current_schema" [])))
          (eq (column "c" "relname") (part "1"))))
        .or
        (nested (and (and (eq partsLength (number "2"))
          (eq (column "n" "nspname") (part "1")))
          (eq (column "c" "relname") (part "2")))))))))

/-- `SELECT oid FROM pg_catalog.<table> WHERE <name> = $1` -/
def lookupQuery (table name : String) : Query :=
  selectQuery (.unnamedExpr (identifier "oid")) [⟨pgCatalog table none, []⟩]
    (some (eq (identifier name) placeholder))

/-- The lookup query of each oid alias type. -/
def regCastSpecs : List (String × Query) :=
  [("regclass", regclassQuery),
    ("regnamespace", lookupQuery "pg_namespace" "nspname"),
    ("regtype", lookupQuery "pg_type" "typname"),
    ("regproc", lookupQuery "pg_proc" "proname")]

/-- A prefix taken off, when the text has it. -/
def stripPrefix (start text : List Char) : List Char :=
  if start.isPrefixOf text then text.drop start.length else text

def normalizeTypeName (dataType : DataType) : String :=
  String.ofList (stripPrefix "pg_catalog.".toList (toLowercase dataType.display).toList)

def isNameOperand : Value → Bool
  | .singleQuotedString _ => true
  | .placeholder _ => true
  | _ => false

def numericStringToLiteral : Value → Option Value
  | .singleQuotedString s =>
    if s ≠ "" ∧ s.toList.all Char.isDigit then some (.number s false) else none
  | _ => none

def replacePlaceholder (operand : Value) : Expr → Expr
  | .mk (.value (.placeholder _)) => .mk (.value operand)
  | e => e

end RewriteRegCastToSubquery

def mapProjection (f : SelectItem Node → SelectItem Node) : SetExpr → SetExpr
  | .mk (.select select) => .mk (.select { select with projection := select.projection.map f })
  | body => body

theorem query_eq_mk : ∀ query : Query, ∃ fields, query = .mk (.query fields)
  | .mk (.query fields) => ⟨fields, rfl⟩

/-- A change of the items of a query that is a single `SELECT`. -/
def mapItems (f : SelectItem Node → SelectItem Node) : Query → Query
  | .mk (.query fields) => .mk (.query { fields with body := mapProjection f fields.body })

namespace RemoveSubqueryFromProjection

/-- What counts as a reference out of the subquery. -/
def correlates (tableAliases : List String) : (Σ k, Node k) → Bool
  | ⟨.expr, .mk (.value (.placeholder _))⟩ => true
  | ⟨.expr, .mk (.compoundIdentifier (ident :: _))⟩ => !tableAliases.contains ident.value
  | _ => false

def hasCorrelation : Query → Bool
  | .mk (.query fields) =>
    match fields.body with
    | .mk (.select select) =>
      (nodes (N := Node) (.mk (.query fields))).any
        (correlates (ResolveUnqualifiedIdentifier.getTableAliases select.fromClause))
    | _ => false

def hasLimit : Query → Bool
  | .mk (.query fields) => fields.limitClause.isSome || fields.fetch.isSome

def limitOne : LimitClause Node :=
  .limitOffset (some (.mk (.value (.number "1" false)))) .none

def addLimit : Query → Query
  | .mk (.query fields) => .mk (.query { fields with limitClause := some limitOne })

def treatExpr : Expr → Expr
  | .mk (.subquery subquery) =>
    if hasCorrelation subquery then .mk (.value .null)
    else if !hasLimit subquery then .mk (.subquery (addLimit subquery))
    else .mk (.subquery subquery)
  | e => e

def treatItem : SelectItem Node → SelectItem Node
  | .unnamedExpr expr => .unnamedExpr (treatExpr expr)
  | .exprWithAlias expr aliasName => .exprWithAlias (treatExpr expr) aliasName
  | item => item

def preVisitQuery (query : Query) : Query := mapItems treatItem query

end RemoveSubqueryFromProjection

namespace FixVersionColumnName

def isVersionCall (call : Function Node) : Bool :=
  match call.name, call.args with
  | [part], .list [] _ => part.value == "version"
  | _, _ => false

def nameItem : SelectItem Node → SelectItem Node
  | .unnamedExpr (.mk (.function call)) =>
    if isVersionCall call then .exprWithAlias (.mk (.function call)) (Ident.new "version")
    else .unnamedExpr (.mk (.function call))
  | item => item

def preVisitQuery (query : Query) : Query := mapItems nameItem query

end FixVersionColumnName

end DatafusionPostgres.Sql
