import SynapticBridge.Api
import SynapticBridge.ApiRuns
import SynapticBridge.ApiSteps
import SynapticBridge.ApiVerdicts
import SynapticBridge.BagOfWords
import SynapticBridge.BreakerDwell
import SynapticBridge.BreakerProbes
import SynapticBridge.BreakerWrapping
import SynapticBridge.BuiltInPolicies
import SynapticBridge.BuiltinFailures
import SynapticBridge.CallGraph
import SynapticBridge.CatalogEndpoints
import SynapticBridge.ChainOrders
import SynapticBridge.ChainPlanner
import SynapticBridge.CircuitBreakers
import SynapticBridge.ClaudeCodeServer
import SynapticBridge.ClaudeCodeTools
import SynapticBridge.CleFailure
import SynapticBridge.CommandTrace
import SynapticBridge.CorrectionPatterns
import SynapticBridge.CorrectionStores
import SynapticBridge.Cosine
import SynapticBridge.CursorReader
import SynapticBridge.CycleSearch
import SynapticBridge.DependencyGraph
import SynapticBridge.DispatchAgreement
import SynapticBridge.Domain
import SynapticBridge.DriftAlarms
import SynapticBridge.DriftWindows
import SynapticBridge.ErrorReplies
import SynapticBridge.ExecuteEndpoint
import SynapticBridge.ExecuteTool
import SynapticBridge.ExecuteToolRuns
import SynapticBridge.ExecutionAdapter
import SynapticBridge.ExposedSeries
import SynapticBridge.FailedAppends
import SynapticBridge.FailedSteps
import SynapticBridge.FirstMaximum
import SynapticBridge.Grouping
import SynapticBridge.GrowingPages
import SynapticBridge.HistogramCounts
import SynapticBridge.HistoryCounts
import SynapticBridge.IntentClassifier
import SynapticBridge.LabelKeys
import SynapticBridge.LearnedVectors
import SynapticBridge.ManifestText
import SynapticBridge.MarketplaceSearch
import SynapticBridge.MemoryAuditLog
import SynapticBridge.Metrics
import SynapticBridge.NumberedRecords
import SynapticBridge.OpaPolicyEngine
import SynapticBridge.Orchestrator
import SynapticBridge.OrchestratorRuns
import SynapticBridge.OrderedDict
import SynapticBridge.PatternExchange
import SynapticBridge.PatternMarketplace
import SynapticBridge.PatternSearch
import SynapticBridge.PolicyCalls
import SynapticBridge.PolicyGate
import SynapticBridge.PolicyLiterals
import SynapticBridge.PolicyText
import SynapticBridge.Portal
import SynapticBridge.Ports
import SynapticBridge.PrecedenceOrders
import SynapticBridge.PredictiveDispatch
import SynapticBridge.Procedures
import SynapticBridge.PythonText
import SynapticBridge.PythonValues
import SynapticBridge.QuotedEntries
import SynapticBridge.RankedSelection
import SynapticBridge.RateHeaders
import SynapticBridge.RateLimiter
import SynapticBridge.RecentCorrection
import SynapticBridge.SampleDeviation
import SynapticBridge.SaveAtomicity
import SynapticBridge.Scatter
import SynapticBridge.ScheduleOrder
import SynapticBridge.ScoreBounds
import SynapticBridge.SelfMatch
import SynapticBridge.SessionEnds
import SynapticBridge.SessionLifetime
import SynapticBridge.SessionOperations
import SynapticBridge.SessionRuns
import SynapticBridge.SessionTrail
import SynapticBridge.ShadowMode
import SynapticBridge.SiemBatches
import SynapticBridge.SiemConnectors
import SynapticBridge.SiemDispatcher
import SynapticBridge.SiemNormalization
import SynapticBridge.SigningKeys
import SynapticBridge.SimpleWalks
import SynapticBridge.StableSort
import SynapticBridge.StepTraces
import SynapticBridge.StoreAgreement
import SynapticBridge.StorePartition
import SynapticBridge.StoreReadOuts
import SynapticBridge.TamperDetection
import SynapticBridge.ToolMatcher
import SynapticBridge.UndoScores
import SynapticBridge.ViolationSeverity
import SynapticBridge.WorkloadIdentities
import SynapticBridge.WormAuditLog
import SynapticBridge.WormCrash
import SynapticBridge.WormIntegrity
import SynapticBridge.WormReaders
import SynapticBridge.WormRestarts
import SynapticBridge.WormStorage
import SynapticBridge.ApiAudit
