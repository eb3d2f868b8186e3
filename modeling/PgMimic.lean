import PgMimic.Lib.Trace
import PgMimic.Lib.Trim
import PgMimic.Lib.Dict
import PgMimic.State
import PgMimic.Server
import PgMimic.Connection
import PgMimic.Settings
import PgMimic.Execution
import PgMimic.System
import PgMimic.Savepoints
import PgMimic.Subscriptions
import PgMimic.FailedTransactions
import PgMimic.SetText
import PgMimic.LocalSettings
import PgMimic.SessionClaim
import PgMimic.CommandLoop
import PgMimic.Lib.Splitter
import PgMimic.Lib.Utf8
import PgMimic.Copy
import PgMimic.CopyBoundaries
import PgMimic.CopyRecords
import PgMimic.CopyCsv
import PgMimic.CopyText
import PgMimic.Histories
import PgMimic.Notifications
import PgMimic.Lib.Overlay
import PgMimic.SettingsStore
import PgMimic.ParameterCache
import PgMimic.Teardown
import PgMimic.Lib.Offsets
import PgMimic.SkipUntilSync
import PgMimic.WireLayout
import PgMimic.Startup
import PgMimic.Scram
import PgMimic.Lib.Scanner
import PgMimic.CopyTokens
import PgMimic.CopyEndpoint
import PgMimic.Lib.SqlLexer
import PgMimic.CopyLexing
import PgMimic.CopyClassification
import PgMimic.StatementText
import PgMimic.StoredEntries
import PgMimic.Protocols
import PgMimic.PreparedStatements
import PgMimic.ProtocolAgreement
import PgMimic.Lib.Nested
import PgMimic.Arrays
import PgMimic.ArrayLiterals
import PgMimic.ArrayAcceptance
import PgMimic.ArrayFrames
import PgMimic.ArrayShapes
import PgMimic.Lib.Positional
import PgMimic.Numeric
import PgMimic.NumericGroups
import PgMimic.NumericText
import PgMimic.Intervals
import PgMimic.CopyEscapes
import PgMimic.CopyLines
import PgMimic.CopyResolution
import PgMimic.CopySpelling
import PgMimic.CopySyntax
import PgMimic.KnownSettings
import PgMimic.AtomicWrites
import PgMimic.Lib.Backtracking
import PgMimic.Patterns
import PgMimic.SetPatterns
import PgMimic.ResetAll
import PgMimic.SetLiterals
import PgMimic.Identifiers
import PgMimic.RollbackTo
import PgMimic.PreparedNames
import PgMimic.ExecuteArguments
import PgMimic.CopyTargets
import PgMimic.CopyIn
import PgMimic.Lib.Orders
import PgMimic.ResultOrder
import PgMimic.DistinctOn
import PgMimic.PgTypes
import PgMimic.TypeInfo
import PgMimic.FieldMessages
import PgMimic.IncrementalFetch
import PgMimic.Batches
import PgMimic.SettingsValues
import PgMimic.ValueRefusals
import PgMimic.ValueRoundTrip
import PgMimic.Lib.FreshNames
import PgMimic.Declared
import PgMimic.CatalogRows
import PgMimic.RelationNames
import PgMimic.InformationSchema
import PgMimic.CatalogReferences
import PgMimic.Lib.Codec
import PgMimic.Messages
import PgMimic.Lib.Commands
import PgMimic.Dispatch
import PgMimic.Responses
import PgMimic.Rounds
import PgMimic.Lib.Calendar
import PgMimic.Lib.BigEndian
import PgMimic.Temporal
import PgMimic.Scalars
import PgMimic.ArrayScalars
import PgMimic.RowFormats
import PgMimic.Handshake
import PgMimic.Admission
import PgMimic.Sockets
import PgMimic.Delivery
import PgMimic.Pooling
import PgMimic.CopyPipe
