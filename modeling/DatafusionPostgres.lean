import DatafusionPostgres.ArrowPg.ParameterAlignment
import DatafusionPostgres.ArrowPg.RowIterator
import DatafusionPostgres.ArrowPg.TemporalRoundTrip
import DatafusionPostgres.ArrowPg.Advertised
import DatafusionPostgres.ArrowPg.BinaryIntegers
import DatafusionPostgres.ArrowPg.CompositeTree
import DatafusionPostgres.PgCatalog.DatabaseOids
import DatafusionPostgres.Library.StateProgram
import DatafusionPostgres.Session.Batch
import DatafusionPostgres.Session.ParameterTypes
import DatafusionPostgres.Session.Privilege
import DatafusionPostgres.Sql.ArrayReaders
import DatafusionPostgres.Sql.QuantifiedComparison
import DatafusionPostgres.Sql.CommonTables
import DatafusionPostgres.Sql.ProjectionSubqueries
import DatafusionPostgres.Sql.NameResolution
import DatafusionPostgres.Sql.FixedPoint
import DatafusionPostgres.Session.CursorSlices
import DatafusionPostgres.Session.CursorOutcome
import DatafusionPostgres.Session.SessionVariables
import DatafusionPostgres.Session.SharedService
import DatafusionPostgres.Sql.StatementBoundaries
import DatafusionPostgres.Sql.ArrayOut
import DatafusionPostgres.PgCatalog.PgRoles
import DatafusionPostgres.PgCatalog.FailedScans
import DatafusionPostgres.PgCatalog.AttributeTypes
import DatafusionPostgres.ArrowPg.IntervalConversions
import DatafusionPostgres.ArrowPg.NumericArrays
import DatafusionPostgres.Sql.PassThrough
import DatafusionPostgres.Sql.ArrayLiterals
import DatafusionPostgres.Sql.ProjectionNames
import DatafusionPostgres.Sql.EnclosingQueries
import DatafusionPostgres.Sql.SubqueryComparison
import DatafusionPostgres.Sql.CurrentSchema
import DatafusionPostgres.PgCatalog.ParseIdent
import DatafusionPostgres.PgCatalog.QuoteIdent
import DatafusionPostgres.PgFunctions.DivMod
import DatafusionPostgres.PgFunctions.BucketNumbers
import DatafusionPostgres.Session.CastInference
import DatafusionPostgres.Session.TimeZone
import DatafusionPostgres.PgCatalog.ArrayBounds
import DatafusionPostgres.Auth.Monotonicity
import DatafusionPostgres.PgCatalog.SharedProvider
import DatafusionPostgres.Server.ConnectionLimiter
import DatafusionPostgres.Session.Announcements
import DatafusionPostgres.Session.AbortedRuns
import DatafusionPostgres.Session.CursorRows
import DatafusionPostgres.PgCatalog.DottedNames
import DatafusionPostgres.Sql.PreservedMeaning
import DatafusionPostgres.Auth.InterleavedChecks
import DatafusionPostgres.PgCatalog.PgTables
import DatafusionPostgres.ArrowPg.ReturnedRows
import DatafusionPostgres.Auth.Directory
import DatafusionPostgres.Session.ProtocolAgreement
import DatafusionPostgres.Session.Described
