import TickForge.KeyedTotals
import TickForge.StepRuns
import TickForge.PartialRuns
import TickForge.MarketEventModel
import TickForge.OrderBookModel
import TickForge.OrderBookStep
import TickForge.DepthLedger
import TickForge.Int64DepthModel
import TickForge.StrictReference
import TickForge.CsvParserModel
import TickForge.OrphanRemoval
import TickForge.CsvGrammar
import TickForge.CsvRoundTrip
import TickForge.Int64Depth
import TickForge.CyclicSlots
import TickForge.RingBufferModel
import TickForge.RingInterleaving
import TickForge.BinaryRounding
import TickForge.LatencyProfilerModel
import TickForge.ReplayEngineModel
import TickForge.ReplayAgreement
import TickForge.LobsterAdapterModel
import TickForge.LobsterReconstruction
import TickForge.BookViews
import TickForge.EventLaws
import TickForge.BoundedFifo
import TickForge.RingQueue
import TickForge.LobsterAgreement
import TickForge.LobsterRescaling
import TickForge.ReplayReportModel
import TickForge.ReplayReport
import TickForge.SeedCheck
import TickForge.PipelineProgress
import TickForge.LatencyStatistics
import TickForge.PacedSchedule
import TickForge.ActiveOrders
import TickForge.BenchmarkWorkload
import TickForge.SyntheticFeed
import TickForge.MutexHandoff
import TickForge.SpscHandoff
import TickForge.PipelineCompletion
import TickForge.ReplayMainModel
import TickForge.ReplayMain
import TickForge.CsvReader
import TickForge.ReplayScriptsModel
import TickForge.ReportReading
import TickForge.ScriptFiles
import TickForge.DayValidation
import TickForge.AccountReference
import TickForge.BookHistory
import TickForge.LatencyReport
import TickForge.RowAccounting
import TickForge.SnapshotComparison
import TickForge.LevelIsolation
import TickForge.FilteredFeed
import TickForge.BenchmarkSuite
import TickForge.BinaryChunks
import TickForge.PixelBuffer
import TickForge.LatencyPlotModel
import TickForge.LatencyPlot
