import TorrentServer.Library.DecimalText
import TorrentServer.Library.KeyedTable
import TorrentServer.Library.KeyValueStore
import TorrentServer.Library.Runs
import TorrentServer.Library.TaskQueues
import TorrentServer.Records
import TorrentServer.TorrentDatabase
import TorrentServer.ChainLibrary
import TorrentServer.MysqlTables
import TorrentServer.HandleBlock
import TorrentServer.TransactionPlans
import TorrentServer.TypedMaps
import TorrentServer.TransactionAtomicity
import TorrentServer.TransactionFrame
import TorrentServer.TypedRuns
import TorrentServer.Counters
import TorrentServer.LifeCycle
import TorrentServer.PaidAmounts
import TorrentServer.AuthorSplit
import TorrentServer.Checkpoint
import TorrentServer.CheckpointCache
import TorrentServer.ServerMachine
import TorrentServer.Library.CIntegers
import TorrentServer.Library.JsonDocuments
import TorrentServer.FullnodeTick
import TorrentServer.ExecutorReplay
import TorrentServer.BlockOrder
import TorrentServer.CrashRecovery
import TorrentServer.TableMirror
import TorrentServer.Shutdown
import TorrentServer.ConnectionPool
import TorrentServer.SqlExecutor
import TorrentServer.Library.DecimalRounding
import TorrentServer.SettlementCredit
import TorrentServer.SettlementDivisor
import TorrentServer.SettlementLoop
import TorrentServer.Library.MapEntries
import TorrentServer.Library.TextSearch
import TorrentServer.Migration
import TorrentServer.MigrationSafety
import TorrentServer.Library.SqlText
import TorrentServer.Library.SqlLiterals
import TorrentServer.Library.SqlStatements
import TorrentServer.ReplaceStatements
import TorrentServer.TaskTexts
import TorrentServer.ReplaceReading
import TorrentServer.RowReading
import TorrentServer.HistoryRows
import TorrentServer.HistoryResponses
import TorrentServer.HistoryQueries
import TorrentServer.UserReplies
import TorrentServer.RealtimeRequests
import TorrentServer.RequestAnswers
import TorrentServer.TorrentViews
import TorrentServer.Library.JsonText
import TorrentServer.Library.JsonReader
import TorrentServer.MapColumns
import TorrentServer.Library.SqlReplace
import TorrentServer.BatchReading
import TorrentServer.MysqlPipeline
import TorrentServer.PipelineRefusal
import TorrentServer.RecordTexts
import TorrentServer.MysqlContents
import TorrentServer.BlockStamps
import TorrentServer.TorrentVersions
import TorrentServer.TickSequences
import TorrentServer.Library.WireFormat
import TorrentServer.RecordBytes
import TorrentServer.StoredBytes
