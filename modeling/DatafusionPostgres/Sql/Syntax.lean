import DatafusionPostgres.Library.Visiting

/-! The statements that sqlparser reads, as far as the rewrite rules look at them. Every other
form, and every field that no rule reads, is kept as a text with the nodes inside of it. -/
namespace DatafusionPostgres.Sql
open DatafusionPostgres.Library

/-- The node types with a hook in sqlparser's visitors, statements and set expressions. -/
inductive Kind
  | expr
  | query
  | setExpr
  | tableFactor
  | statement
  deriving DecidableEq

structure Ident where
  value : String
  quoteStyle : Option Char
  deriving DecidableEq

def Ident.new (value : String) : Ident := ⟨value, none⟩

/-- In the PostgreSQL dialect every part of a name is an identifier. -/
abbrev ObjectName := List Ident

mutual

inductive DataType
  | text
  | varchar (length : Option String)
  | char (length : Option String)
  | string (length : Option Nat)
  | array (elem : ArrayElemTypeDef)
  | other (display : String)

inductive ArrayElemTypeDef
  | none
  | angleBracket (elem : DataType)
  | squareBracket (elem : DataType) (size : Option Nat)
  | parenthesis (elem : DataType)

end

inductive Value
  | number (digits : String) (long : Bool)
  | singleQuotedString (text : String)
  | placeholder (name : String)
  | boolean (b : Bool)
  | null
  | other (display : String)
  deriving DecidableEq

inductive BinaryOperator
  | eq
  | notEq
  | and
  | or
  | pgRegexMatch
  | pgRegexIMatch
  | pgRegexNotMatch
  | pgRegexNotIMatch
  | pgCustomBinaryOperator (names : List String)
  | other (display : String)
  deriving DecidableEq

inductive UnaryOperator
  | not
  | other (display : String)
  deriving DecidableEq

inductive CastKind
  | cast
  | tryCast
  | safeCast
  | doubleColon
  deriving DecidableEq

structure TableAlias where
  name : Ident
  columns : List Ident
  deriving DecidableEq

section Parts
variable (ν : Kind → Type)

/-- A form or fields that no rule reads: a text and the nodes in order. -/
structure Rest where
  text : String
  parts : List (Σ k, ν k)

inductive FunctionArg
  | unnamed (expr : ν .expr)
  | other (rest : Rest ν)

inductive FunctionArguments
  | none
  | subquery (query : ν .query)
  | list (args : List (FunctionArg ν)) (rest : Rest ν)

structure Function where
  name : ObjectName
  args : FunctionArguments ν
  rest : Rest ν

inductive SelectItemQualifiedWildcardKind
  | objectName (name : ObjectName)
  | expr (expr : ν .expr)

inductive SelectItem
  | unnamedExpr (expr : ν .expr)
  | exprWithAlias (expr : ν .expr) (aliasName : Ident)
  | qualifiedWildcard (kind : SelectItemQualifiedWildcardKind ν) (rest : Rest ν)
  | wildcard (rest : Rest ν)
  | other (rest : Rest ν)

structure Join where
  relation : ν .tableFactor
  rest : Rest ν

structure TableWithJoins where
  relation : ν .tableFactor
  joins : List (Join ν)

structure Select where
  projection : List (SelectItem ν)
  fromClause : List (TableWithJoins ν)
  selection : Option (ν .expr)
  rest : Rest ν

structure Cte where
  aliasName : TableAlias
  query : ν .query
  rest : Rest ν

structure With where
  recursive : Bool
  cteTables : List (Cte ν)

structure OrderByExpr where
  expr : ν .expr
  rest : Rest ν

inductive OrderByKind
  | all (rest : Rest ν)
  | expressions (exprs : List (OrderByExpr ν))

structure OrderBy where
  kind : OrderByKind ν
  rest : Rest ν

inductive LimitClause
  | limitOffset (limit : Option (ν .expr)) (rest : Rest ν)
  | other (rest : Rest ν)

structure QueryFields where
  withClause : Option (With ν)
  body : ν .setExpr
  orderBy : Option (OrderBy ν)
  limitClause : Option (LimitClause ν)
  fetch : Option (Rest ν)
  rest : Rest ν

/-- The forms of the nodes of each kind. -/
inductive Form : Kind → Type
  | identifier (ident : Ident) : Form .expr
  | compoundIdentifier (idents : List Ident) : Form .expr
  | value (value : Value) : Form .expr
  | binaryOp (left : ν .expr) (op : BinaryOperator) (right : ν .expr) : Form .expr
  | unaryOp (op : UnaryOperator) (expr : ν .expr) : Form .expr
  | anyOp (left : ν .expr) (compareOp : BinaryOperator) (right : ν .expr) (isSome : Bool) :
    Form .expr
  | allOp (left : ν .expr) (compareOp : BinaryOperator) (right : ν .expr) : Form .expr
  | cast (kind : CastKind) (expr : ν .expr) (dataType : DataType) (rest : Rest ν) : Form .expr
  | array (elem : List (ν .expr)) (named : Bool) : Form .expr
  | function (function : Function ν) : Form .expr
  | collate (expr : ν .expr) (collation : ObjectName) : Form .expr
  | subquery (query : ν .query) : Form .expr
  | otherExpr (rest : Rest ν) : Form .expr
  | query (fields : QueryFields ν) : Form .query
  | select (select : Select ν) : Form .setExpr
  | setQuery (query : ν .query) : Form .setExpr
  | setOperation (op : String) (left right : ν .setExpr) : Form .setExpr
  | otherSetExpr (rest : Rest ν) : Form .setExpr
  | table (name : ObjectName) (aliasName : Option TableAlias) (args : Option (Rest ν))
    (rest : Rest ν) : Form .tableFactor
  | derived (lateral : Bool) (subquery : ν .query) (aliasName : Option TableAlias)
    (rest : Rest ν) : Form .tableFactor
  | nestedJoin (tableWithJoins : TableWithJoins ν) (aliasName : Option TableAlias) :
    Form .tableFactor
  | otherFactor (aliasName : Option TableAlias) (rest : Rest ν) : Form .tableFactor
  | statementQuery (query : ν .query) : Form .statement
  | otherStatement (rest : Rest ν) : Form .statement

end Parts

section Containers
open Container

attribute [local simp] map_id map_map parts_map

instance : Container Rest where
  map f rest := ⟨rest.text, rest.parts.map fun part => ⟨part.1, f part.1 part.2⟩⟩
  parts rest := rest.parts
  map_id rest := by simp
  map_map f g rest := by simp
  map_congr h := by
    rw [Rest.mk.injEq]
    exact ⟨rfl, List.map_congr_left fun part hpart => by rw [h part hpart]⟩
  parts_map _ _ := rfl

instance : Container FunctionArg where
  map f
    | .unnamed expr => .unnamed (f .expr expr)
    | .other rest => .other (map f rest)
  parts
    | .unnamed expr => [⟨.expr, expr⟩]
    | .other rest => parts rest
  map_id arg := by cases arg <;> simp
  map_map f g arg := by cases arg <;> simp
  map_congr {_ _ f g arg} h := by
    cases arg with
    | unnamed expr => exact congrArg _ (h ⟨.expr, expr⟩ List.mem_cons_self)
    | other rest => exact congrArg _ (map_congr h)
  parts_map f arg := by cases arg <;> simp

instance : Container FunctionArguments where
  map f
    | .none => .none
    | .subquery query => .subquery (f .query query)
    | .list args rest => .list (mapList f args) (map f rest)
  parts
    | .none => []
    | .subquery query => [⟨.query, query⟩]
    | .list args rest => partsList args ++ parts rest
  map_id args := by cases args <;> simp
  map_map f g args := by cases args <;> simp
  map_congr {_ _ f g args} h := by
    cases args with
    | none => rfl
    | subquery query => exact congrArg _ (h ⟨.query, query⟩ List.mem_cons_self)
    | list args rest =>
      obtain ⟨hargs, hrest⟩ := List.forall_mem_append.mp h
      exact congrArg₂ _ (mapList_congr hargs) (map_congr hrest)
  parts_map f args := by cases args <;> simp

instance : Container Function where
  map f function := ⟨function.name, map f function.args, map f function.rest⟩
  parts function := parts function.args ++ parts function.rest
  map_id function := by simp
  map_map f g function := by simp
  map_congr h := by
    obtain ⟨hargs, hrest⟩ := List.forall_mem_append.mp h
    rw [map_congr hargs, map_congr hrest]
  parts_map f function := by simp

instance : Container SelectItemQualifiedWildcardKind where
  map f
    | .objectName name => .objectName name
    | .expr expr => .expr (f .expr expr)
  parts
    | .objectName _ => []
    | .expr expr => [⟨.expr, expr⟩]
  map_id kind := by cases kind <;> simp
  map_map f g kind := by cases kind <;> simp
  map_congr {_ _ f g kind} h := by
    cases kind with
    | objectName name => rfl
    | expr expr => exact congrArg _ (h ⟨.expr, expr⟩ List.mem_cons_self)
  parts_map f kind := by cases kind <;> simp

instance : Container SelectItem where
  map f
    | .unnamedExpr expr => .unnamedExpr (f .expr expr)
    | .exprWithAlias expr aliasName => .exprWithAlias (f .expr expr) aliasName
    | .qualifiedWildcard kind rest => .qualifiedWildcard (map f kind) (map f rest)
    | .wildcard rest => .wildcard (map f rest)
    | .other rest => .other (map f rest)
  parts
    | .unnamedExpr expr => [⟨.expr, expr⟩]
    | .exprWithAlias expr _ => [⟨.expr, expr⟩]
    | .qualifiedWildcard kind rest => parts kind ++ parts rest
    | .wildcard rest => parts rest
    | .other rest => parts rest
  map_id item := by cases item <;> simp
  map_map f g item := by cases item <;> simp
  map_congr {_ _ f g item} h := by
    cases item with
    | unnamedExpr expr => exact congrArg _ (h ⟨.expr, expr⟩ List.mem_cons_self)
    | exprWithAlias expr aliasName =>
      exact congrArg (SelectItem.exprWithAlias · aliasName) (h ⟨.expr, expr⟩ List.mem_cons_self)
    | qualifiedWildcard kind rest =>
      obtain ⟨hkind, hrest⟩ := List.forall_mem_append.mp h
      exact congrArg₂ _ (map_congr hkind) (map_congr hrest)
    | wildcard rest => exact congrArg _ (map_congr h)
    | other rest => exact congrArg _ (map_congr h)
  parts_map f item := by cases item <;> simp

instance : Container Join where
  map f join := ⟨f .tableFactor join.relation, map f join.rest⟩
  parts join := ⟨.tableFactor, join.relation⟩ :: parts join.rest
  map_id join := by simp
  map_map f g join := by simp
  map_congr h := by
    obtain ⟨hrelation, hrest⟩ := List.forall_mem_cons.mp h
    rw [hrelation, map_congr hrest]
  parts_map f join := by simp

instance : Container TableWithJoins where
  map f twj := ⟨f .tableFactor twj.relation, mapList f twj.joins⟩
  parts twj := ⟨.tableFactor, twj.relation⟩ :: partsList twj.joins
  map_id twj := by simp
  map_map f g twj := by simp
  map_congr h := by
    obtain ⟨hrelation, hjoins⟩ := List.forall_mem_cons.mp h
    rw [hrelation, mapList_congr hjoins]
  parts_map f twj := by simp

instance : Container Select where
  map f select := ⟨mapList f select.projection, mapList f select.fromClause,
    mapOption (C := One Kind.expr) f select.selection, map f select.rest⟩
  parts select := partsList select.projection ++ (partsList select.fromClause ++
    (partsOption (C := One Kind.expr) select.selection ++ parts select.rest))
  map_id select := by simp
  map_map f g select := by simp
  map_congr h := by
    obtain ⟨hprojection, h⟩ := List.forall_mem_append.mp h
    obtain ⟨hfrom, h⟩ := List.forall_mem_append.mp h
    obtain ⟨hselection, hrest⟩ := List.forall_mem_append.mp h
    rw [mapList_congr hprojection, mapList_congr hfrom,
      mapOption_congr (C := One Kind.expr) hselection, map_congr hrest]
  parts_map f select := by simp

instance : Container Cte where
  map f cte := ⟨cte.aliasName, f .query cte.query, map f cte.rest⟩
  parts cte := ⟨.query, cte.query⟩ :: parts cte.rest
  map_id cte := by simp
  map_map f g cte := by simp
  map_congr h := by
    obtain ⟨hquery, hrest⟩ := List.forall_mem_cons.mp h
    rw [hquery, map_congr hrest]
  parts_map f cte := by simp

instance : Container With where
  map f withClause := ⟨withClause.recursive, mapList f withClause.cteTables⟩
  parts withClause := partsList withClause.cteTables
  map_id withClause := by simp
  map_map f g withClause := by simp
  map_congr h := by rw [mapList_congr h]
  parts_map f withClause := by simp

instance : Container OrderByExpr where
  map f orderBy := ⟨f .expr orderBy.expr, map f orderBy.rest⟩
  parts orderBy := ⟨.expr, orderBy.expr⟩ :: parts orderBy.rest
  map_id orderBy := by simp
  map_map f g orderBy := by simp
  map_congr h := by
    obtain ⟨hexpr, hrest⟩ := List.forall_mem_cons.mp h
    rw [hexpr, map_congr hrest]
  parts_map f orderBy := by simp

instance : Container OrderByKind where
  map f
    | .all rest => .all (map f rest)
    | .expressions exprs => .expressions (mapList f exprs)
  parts
    | .all rest => parts rest
    | .expressions exprs => partsList exprs
  map_id kind := by cases kind <;> simp
  map_map f g kind := by cases kind <;> simp
  map_congr {_ _ f g kind} h := by
    cases kind with
    | all rest => exact congrArg _ (map_congr h)
    | expressions exprs => exact congrArg _ (mapList_congr h)
  parts_map f kind := by cases kind <;> simp

instance : Container OrderBy where
  map f orderBy := ⟨map f orderBy.kind, map f orderBy.rest⟩
  parts orderBy := parts orderBy.kind ++ parts orderBy.rest
  map_id orderBy := by simp
  map_map f g orderBy := by simp
  map_congr h := by
    obtain ⟨hkind, hrest⟩ := List.forall_mem_append.mp h
    rw [map_congr hkind, map_congr hrest]
  parts_map f orderBy := by simp

instance : Container LimitClause where
  map f
    | .limitOffset limit rest => .limitOffset (mapOption (C := One Kind.expr) f limit) (map f rest)
    | .other rest => .other (map f rest)
  parts
    | .limitOffset limit rest => partsOption (C := One Kind.expr) limit ++ parts rest
    | .other rest => parts rest
  map_id clause := by cases clause <;> simp
  map_map f g clause := by cases clause <;> simp
  map_congr {_ _ f g clause} h := by
    cases clause with
    | limitOffset limit rest =>
      obtain ⟨hlimit, hrest⟩ := List.forall_mem_append.mp h
      exact congrArg₂ _ (mapOption_congr (C := One Kind.expr) hlimit) (map_congr hrest)
    | other rest => exact congrArg _ (map_congr h)
  parts_map f clause := by cases clause <;> simp

/-- The limit is listed last, so that a limit put in moves no other part. -/
instance : Container QueryFields where
  map f fields := ⟨mapOption f fields.withClause, f .setExpr fields.body,
    mapOption f fields.orderBy, mapOption f fields.limitClause, mapOption f fields.fetch,
    map f fields.rest⟩
  parts fields := partsOption fields.withClause ++ (⟨.setExpr, fields.body⟩ ::
    (partsOption fields.orderBy ++ (partsOption fields.fetch ++ (parts fields.rest ++
    partsOption fields.limitClause))))
  map_id fields := by simp
  map_map f g fields := by simp
  map_congr h := by
    obtain ⟨hwith, h⟩ := List.forall_mem_append.mp h
    obtain ⟨hbody, h⟩ := List.forall_mem_cons.mp h
    obtain ⟨horderBy, h⟩ := List.forall_mem_append.mp h
    obtain ⟨hfetch, h⟩ := List.forall_mem_append.mp h
    obtain ⟨hrest, hlimit⟩ := List.forall_mem_append.mp h
    rw [mapOption_congr hwith, hbody, mapOption_congr horderBy, mapOption_congr hfetch,
      map_congr hrest, mapOption_congr hlimit]
  parts_map f fields := by simp

def Form.map {ν μ : Kind → Type} (f : ∀ k, ν k → μ k) : {k : Kind} → Form ν k → Form μ k
  | _, .identifier ident => .identifier ident
  | _, .compoundIdentifier idents => .compoundIdentifier idents
  | _, .value v => .value v
  | _, .binaryOp left op right => .binaryOp (f .expr left) op (f .expr right)
  | _, .unaryOp op e => .unaryOp op (f .expr e)
  | _, .anyOp left op right isSome => .anyOp (f .expr left) op (f .expr right) isSome
  | _, .allOp left op right => .allOp (f .expr left) op (f .expr right)
  | _, .cast kind e dataType rest => .cast kind (f .expr e) dataType (Container.map f rest)
  | _, .array elem named => .array (mapList (C := One Kind.expr) f elem) named
  | _, .function call => .function (Container.map f call)
  | _, .collate e collation => .collate (f .expr e) collation
  | _, .subquery q => .subquery (f .query q)
  | _, .otherExpr rest => .otherExpr (Container.map f rest)
  | _, .query fields => .query (Container.map f fields)
  | _, .select fields => .select (Container.map f fields)
  | _, .setQuery q => .setQuery (f .query q)
  | _, .setOperation op left right => .setOperation op (f .setExpr left) (f .setExpr right)
  | _, .otherSetExpr rest => .otherSetExpr (Container.map f rest)
  | _, .table name aliasName args rest =>
    .table name aliasName (mapOption f args) (Container.map f rest)
  | _, .derived lateral q aliasName rest =>
    .derived lateral (f .query q) aliasName (Container.map f rest)
  | _, .nestedJoin twj aliasName => .nestedJoin (Container.map f twj) aliasName
  | _, .otherFactor aliasName rest => .otherFactor aliasName (Container.map f rest)
  | _, .statementQuery q => .statementQuery (f .query q)
  | _, .otherStatement rest => .otherStatement (Container.map f rest)

def Form.parts {ν : Kind → Type} : {k : Kind} → Form ν k → List (Σ k, ν k)
  | _, .identifier _ => []
  | _, .compoundIdentifier _ => []
  | _, .value _ => []
  | _, .binaryOp left _ right => [⟨.expr, left⟩, ⟨.expr, right⟩]
  | _, .unaryOp _ e => [⟨.expr, e⟩]
  | _, .anyOp left _ right _ => [⟨.expr, left⟩, ⟨.expr, right⟩]
  | _, .allOp left _ right => [⟨.expr, left⟩, ⟨.expr, right⟩]
  | _, .cast _ e _ rest => ⟨.expr, e⟩ :: Container.parts rest
  | _, .array elem _ => partsList (C := One Kind.expr) elem
  | _, .function call => Container.parts call
  | _, .collate e _ => [⟨.expr, e⟩]
  | _, .subquery q => [⟨.query, q⟩]
  | _, .otherExpr rest => Container.parts rest
  | _, .query fields => Container.parts fields
  | _, .select fields => Container.parts fields
  | _, .setQuery q => [⟨.query, q⟩]
  | _, .setOperation _ left right => [⟨.setExpr, left⟩, ⟨.setExpr, right⟩]
  | _, .otherSetExpr rest => Container.parts rest
  | _, .table _ _ args rest => partsOption args ++ Container.parts rest
  | _, .derived _ q _ rest => ⟨.query, q⟩ :: Container.parts rest
  | _, .nestedJoin twj _ => Container.parts twj
  | _, .otherFactor _ rest => Container.parts rest
  | _, .statementQuery q => [⟨.query, q⟩]
  | _, .otherStatement rest => Container.parts rest

private theorem and_of_forall_mem_pair {α : Type} {P : α → Prop} {a b : α}
    (h : ∀ x ∈ [a, b], P x) : P a ∧ P b :=
  ⟨h a List.mem_cons_self, h b (List.mem_cons_of_mem _ List.mem_cons_self)⟩

instance : Forms Form where
  map f := Form.map f
  parts := Form.parts
  map_id form := by cases form <;> simp [Form.map]
  map_map f g := by
    intro k form
    cases form <;> simp [Form.map]
  map_congr {_ _ f g k form} h := by
    cases form with
    | identifier ident => rfl
    | compoundIdentifier idents => rfl
    | value value => rfl
    | binaryOp left op right =>
      obtain ⟨hleft, hright⟩ := and_of_forall_mem_pair h
      exact congrArg₂ (Form.binaryOp · op ·) hleft hright
    | unaryOp op expr => exact congrArg _ (h ⟨.expr, expr⟩ List.mem_cons_self)
    | anyOp left op right isSome =>
      obtain ⟨hleft, hright⟩ := and_of_forall_mem_pair h
      exact congrArg₂ (Form.anyOp · op · isSome) hleft hright
    | allOp left op right =>
      obtain ⟨hleft, hright⟩ := and_of_forall_mem_pair h
      exact congrArg₂ (Form.allOp · op ·) hleft hright
    | cast kind expr dataType rest =>
      obtain ⟨hexpr, hrest⟩ := List.forall_mem_cons.mp h
      exact congrArg₂ (Form.cast kind · dataType ·) hexpr (map_congr hrest)
    | array elem named =>
      exact congrArg (Form.array · named) (mapList_congr (C := One Kind.expr) h)
    | function function => exact congrArg _ (map_congr h)
    | collate expr collation =>
      exact congrArg (Form.collate · collation) (h ⟨.expr, expr⟩ List.mem_cons_self)
    | subquery query => exact congrArg _ (h ⟨.query, query⟩ List.mem_cons_self)
    | otherExpr rest => exact congrArg _ (map_congr h)
    | query fields => exact congrArg _ (map_congr h)
    | select select => exact congrArg _ (map_congr h)
    | setQuery query => exact congrArg _ (h ⟨.query, query⟩ List.mem_cons_self)
    | setOperation op left right =>
      obtain ⟨hleft, hright⟩ := and_of_forall_mem_pair h
      exact congrArg₂ _ hleft hright
    | otherSetExpr rest => exact congrArg _ (map_congr h)
    | table name aliasName args rest =>
      obtain ⟨hargs, hrest⟩ := List.forall_mem_append.mp h
      exact congrArg₂ _ (mapOption_congr hargs) (map_congr hrest)
    | derived lateral subquery aliasName rest =>
      obtain ⟨hsubquery, hrest⟩ := List.forall_mem_cons.mp h
      exact congrArg₂ (Form.derived lateral · aliasName ·) hsubquery (map_congr hrest)
    | nestedJoin twj aliasName => exact congrArg (Form.nestedJoin · aliasName) (map_congr h)
    | otherFactor aliasName rest => exact congrArg _ (map_congr h)
    | statementQuery query => exact congrArg _ (h ⟨.query, query⟩ List.mem_cons_self)
    | otherStatement rest => exact congrArg _ (map_congr h)
  parts_map f := by
    intro k form
    cases form <;> simp [Form.map, Form.parts]

end Containers

/-- Finite syntax trees. -/
inductive Node : Kind → Type
  | mk {k : Kind} (form : Form Node k) : Node k

abbrev Expr := Node .expr
abbrev Query := Node .query
abbrev SetExpr := Node .setExpr
abbrev TableFactor := Node .tableFactor
abbrev Statement := Node .statement

section Trees
open Container

def Node.form : {k : Kind} → Node k → Form Node k
  | _, .mk form => form

/-- All nodes of the list are smaller than the bound. -/
private def Below (parts : List (Σ k, Node k)) (bound : Nat) : Prop :=
  ∀ part ∈ parts, sizeOf part.2 < bound

private theorem Below.mono {parts : List (Σ k, Node k)} {bound bound' : Nat}
    (h : Below parts bound) (hle : bound ≤ bound') : Below parts bound' :=
  fun part hpart => Nat.lt_of_lt_of_le (h part hpart) hle

private theorem Below.nil (bound : Nat) : Below [] bound := nofun

private theorem Below.cons {k : Kind} {n : Node k} {parts : List (Σ k, Node k)} {bound : Nat}
    (hn : sizeOf n < bound) (h : Below parts bound) : Below (⟨k, n⟩ :: parts) bound :=
  List.forall_mem_cons.mpr ⟨hn, h⟩

private theorem Below.append {parts parts' : List (Σ k, Node k)} {bound : Nat}
    (h : Below parts bound) (h' : Below parts' bound) : Below (parts ++ parts') bound :=
  List.forall_mem_append.mpr ⟨h, h'⟩

private theorem Below.list {C : (Kind → Type) → Type} [Container C] [SizeOf (C Node)]
    (hC : ∀ c : C Node, Below (parts c) (sizeOf c)) (cs : List (C Node)) :
    Below (partsList cs) (sizeOf cs) := by
  intro part hpart
  obtain ⟨c, hc, hpart⟩ := List.mem_flatMap.mp hpart
  exact Nat.lt_trans (hC c part hpart) (List.sizeOf_lt_of_mem hc)

private theorem Below.option {C : (Kind → Type) → Type} [Container C] [SizeOf (C Node)]
    (hC : ∀ c : C Node, Below (parts c) (sizeOf c)) (c : Option (C Node)) :
    Below (partsOption c) (sizeOf c) := by
  cases c with
  | none => exact nofun
  | some c => exact (hC c).mono (by simp)

private theorem Below.nodes {k : Kind} (ns : List (Node k)) :
    Below (partsList (C := One k) ns) (sizeOf ns) := by
  intro part hpart
  obtain ⟨n, hn, hpart⟩ := List.mem_flatMap.mp hpart
  rw [List.mem_singleton.mp hpart]
  exact List.sizeOf_lt_of_mem hn

private theorem Below.node {k : Kind} (n : Option (Node k)) :
    Below (partsOption (C := One k) n) (sizeOf n) := by
  cases n with
  | none => exact nofun
  | some n => exact .cons (by simp) (.nil _)

private theorem below_rest (rest : Rest Node) : Below (parts rest) (sizeOf rest) := by
  obtain ⟨text, nodes⟩ := rest
  rintro ⟨k, n⟩ hpart
  have : sizeOf (⟨k, n⟩ : Σ k, Node k) < sizeOf nodes := List.sizeOf_lt_of_mem hpart
  simp at this ⊢
  omega

private theorem below_functionArg (arg : FunctionArg Node) : Below (parts arg) (sizeOf arg) := by
  cases arg with
  | unnamed expr => exact .cons (by simp) (.nil _)
  | other rest => exact (below_rest rest).mono (by simp)

private theorem below_functionArguments (args : FunctionArguments Node) :
    Below (parts args) (sizeOf args) := by
  cases args with
  | none => exact .nil _
  | subquery query => exact .cons (by simp) (.nil _)
  | list args rest =>
    exact .append ((Below.list below_functionArg args).mono (by simp +arith))
      ((below_rest rest).mono (by simp))

private theorem below_function (call : Function Node) : Below (parts call) (sizeOf call) := by
  obtain ⟨name, args, rest⟩ := call
  exact .append ((below_functionArguments args).mono (by simp +arith))
    ((below_rest rest).mono (by simp))

private theorem below_wildcardKind (kind : SelectItemQualifiedWildcardKind Node) :
    Below (parts kind) (sizeOf kind) := by
  cases kind with
  | objectName name => exact .nil _
  | expr expr => exact .cons (by simp) (.nil _)

private theorem below_selectItem (item : SelectItem Node) : Below (parts item) (sizeOf item) := by
  cases item with
  | unnamedExpr expr => exact .cons (by simp) (.nil _)
  | exprWithAlias expr aliasName => exact .cons (by simp +arith) (.nil _)
  | qualifiedWildcard kind rest =>
    exact .append ((below_wildcardKind kind).mono (by simp +arith))
      ((below_rest rest).mono (by simp))
  | wildcard rest => exact (below_rest rest).mono (by simp)
  | other rest => exact (below_rest rest).mono (by simp)

private theorem below_join (join : Join Node) : Below (parts join) (sizeOf join) := by
  obtain ⟨relation, rest⟩ := join
  exact .cons (by simp +arith) ((below_rest rest).mono (by simp))

private theorem below_tableWithJoins (twj : TableWithJoins Node) :
    Below (parts twj) (sizeOf twj) := by
  obtain ⟨relation, joins⟩ := twj
  exact .cons (by simp +arith) ((Below.list below_join joins).mono (by simp))

private theorem below_select (fields : Select Node) : Below (parts fields) (sizeOf fields) := by
  obtain ⟨projection, fromClause, selection, rest⟩ := fields
  exact .append ((Below.list below_selectItem projection).mono (by simp +arith))
    (.append ((Below.list below_tableWithJoins fromClause).mono (by simp +arith))
    (.append ((Below.node selection).mono (by simp +arith)) ((below_rest rest).mono (by simp))))

private theorem below_cte (cte : Cte Node) : Below (parts cte) (sizeOf cte) := by
  obtain ⟨aliasName, query, rest⟩ := cte
  exact .cons (by simp +arith) ((below_rest rest).mono (by simp))

private theorem below_with (clause : With Node) : Below (parts clause) (sizeOf clause) := by
  obtain ⟨recursive, cteTables⟩ := clause
  exact (Below.list below_cte cteTables).mono (by simp)

private theorem below_orderByExpr (e : OrderByExpr Node) : Below (parts e) (sizeOf e) := by
  obtain ⟨expr, rest⟩ := e
  exact .cons (by simp +arith) ((below_rest rest).mono (by simp))

private theorem below_orderByKind (kind : OrderByKind Node) : Below (parts kind) (sizeOf kind) := by
  cases kind with
  | all rest => exact (below_rest rest).mono (by simp)
  | expressions exprs => exact (Below.list below_orderByExpr exprs).mono (by simp)

private theorem below_orderBy (orderBy : OrderBy Node) :
    Below (parts orderBy) (sizeOf orderBy) := by
  obtain ⟨kind, rest⟩ := orderBy
  exact .append ((below_orderByKind kind).mono (by simp +arith))
    ((below_rest rest).mono (by simp))

private theorem below_limitClause (clause : LimitClause Node) :
    Below (parts clause) (sizeOf clause) := by
  cases clause with
  | limitOffset limit rest =>
    exact .append ((Below.node limit).mono (by simp +arith)) ((below_rest rest).mono (by simp))
  | other rest => exact (below_rest rest).mono (by simp)

private theorem below_queryFields (fields : QueryFields Node) :
    Below (parts fields) (sizeOf fields) := by
  obtain ⟨withClause, body, orderBy, limitClause, fetch, rest⟩ := fields
  exact .append ((Below.option below_with withClause).mono (by simp +arith))
    (.cons (by simp +arith)
    (.append ((Below.option below_orderBy orderBy).mono (by simp +arith))
    (.append ((Below.option below_rest fetch).mono (by simp +arith))
    (.append ((below_rest rest).mono (by simp))
    ((Below.option below_limitClause limitClause).mono (by simp +arith))))))

private theorem below_form {k : Kind} (form : Form Node k) : Below form.parts (sizeOf form) := by
  cases form with
  | identifier ident => exact .nil _
  | compoundIdentifier idents => exact .nil _
  | value value => exact .nil _
  | binaryOp left op right => exact .cons (by simp +arith) (.cons (by simp +arith) (.nil _))
  | unaryOp op expr => exact .cons (by simp +arith) (.nil _)
  | anyOp left op right isSome => exact .cons (by simp +arith) (.cons (by simp +arith) (.nil _))
  | allOp left op right => exact .cons (by simp +arith) (.cons (by simp +arith) (.nil _))
  | cast kind expr dataType rest =>
    exact .cons (by simp +arith) ((below_rest rest).mono (by simp))
  | array elem named => exact (Below.nodes elem).mono (by simp +arith)
  | function call => exact (below_function call).mono (by simp)
  | collate expr collation => exact .cons (by simp +arith) (.nil _)
  | subquery query => exact .cons (by simp) (.nil _)
  | otherExpr rest => exact (below_rest rest).mono (by simp)
  | query fields => exact (below_queryFields fields).mono (by simp)
  | select fields => exact (below_select fields).mono (by simp)
  | setQuery query => exact .cons (by simp) (.nil _)
  | setOperation op left right => exact .cons (by simp +arith) (.cons (by simp +arith) (.nil _))
  | otherSetExpr rest => exact (below_rest rest).mono (by simp)
  | table name aliasName args rest =>
    exact .append ((Below.option below_rest args).mono (by simp +arith))
      ((below_rest rest).mono (by simp))
  | derived lateral subquery aliasName rest =>
    exact .cons (by simp +arith) ((below_rest rest).mono (by simp))
  | nestedJoin twj aliasName => exact (below_tableWithJoins twj).mono (by simp +arith)
  | otherFactor aliasName rest => exact (below_rest rest).mono (by simp)
  | statementQuery query => exact .cons (by simp) (.nil _)
  | otherStatement rest => exact (below_rest rest).mono (by simp)

instance : Trees Node Form where
  roll := .mk
  form := Node.form
  roll_form n := by cases n; rfl
  form_roll _ := rfl
  descent := by
    refine Subrelation.wf ?_ (InvImage.wf (fun n : Σ k, Node k => sizeOf n.2) Nat.lt_wfRel.wf)
    rintro part ⟨k, ⟨form⟩⟩ hpart
    exact Nat.lt_trans (below_form form part hpart) (by simp +arith)

theorem children_mk {k : Kind} (form : Form Node k) : children (Node.mk form) = form.parts := rfl

theorem nodes_mk {k : Kind} (form : Form Node k) :
    nodes (Node.mk form) = ⟨k, .mk form⟩ :: form.parts.flatMap fun c => nodes c.2 := nodes_eq _

/-- The node of a statement at a place. -/
def Statement.nodeAt (s : Statement) (path : List Nat) : Option (Σ k, Node k) :=
  Library.nodeAt ⟨.statement, s⟩ path

end Trees
end DatafusionPostgres.Sql
