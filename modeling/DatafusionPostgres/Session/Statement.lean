import Mathlib.Data.List.Basic

/-! Parsed statements, as far as the hooks and the query handlers read them. -/
namespace DatafusionPostgres.Session

inductive DeclareType where
  | cursor | resultSet | exception
  deriving DecidableEq, Repr

structure Declare where
  declareType : Option DeclareType
  names : List String
  /-- The text of the query after FOR. -/
  forQuery : Option String
  deriving Repr

/-- A literal after FETCH. -/
inductive SqlValue where
  | number (text : String)
  | other
  deriving Repr

inductive FetchDirection where
  | count (limit : SqlValue)
  | next
  | prior
  | first
  | last
  | absolute (limit : SqlValue)
  | relative (limit : SqlValue)
  | all
  | forward (limit : Option SqlValue)
  | forwardAll
  | backward (limit : Option SqlValue)
  | backwardAll
  deriving Repr

inductive CloseCursor where
  | all
  | specific (name : String)
  deriving Repr

/-- The right-hand side of a SET: a string literal with its content, another literal,
or any other expression. The text is what the parser prints for it. -/
inductive SetExpr where
  | stringLiteral (content text : String)
  | otherLiteral (text : String)
  | expression (text : String)
  deriving Repr

def SetExpr.text : SetExpr → String
  | .stringLiteral _ text => text
  | .otherLiteral text => text
  | .expression text => text

inductive SetStatement where
  | singleAssignment (hasScope hivevar : Bool) (variableName : String) (values : List SetExpr)
  | setTimeZone (isLocal : Bool) (value : SetExpr)
  | other
  deriving Repr

/-- The variants of `Statement` that some code tells apart. -/
inductive StatementKind where
  | declare (stmts : List Declare)
  | fetch (name : String) (direction : FetchDirection)
  | close (cursor : CloseCursor)
  | set (set : SetStatement)
  | showVariable (variableNames : List String)
  | showStatus
  | showCatalogs
  | startTransaction
  | commit
  | rollback
  | savepoint
  | releaseSavepoint
  | query
  | insert
  | update
  | delete
  | createTable
  | createView
  | drop
  | alterTable
  | other
  deriving Repr

/-- A statement with the text that the parser prints for it. -/
structure Statement where
  kind : StatementKind
  text : String
  deriving Repr

end DatafusionPostgres.Session
