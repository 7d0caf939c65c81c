import SmartIDS.Python.IpAddress
import SmartIDS.Foundation.Dict
import SmartIDS.Foundation.Machine
import SmartIDS.Foundation.Window
import SmartIDS.ThreatDetection.Heuristic
import SmartIDS.ThreatDetection.HeuristicWindows
import SmartIDS.ThreatDetection.PruningTransparency
import SmartIDS.Foundation.Effect
import SmartIDS.Python.Value
import SmartIDS.ResponseEngine.AutoBlocker
import SmartIDS.ResponseEngine.BlockerSpec
import SmartIDS.ResponseEngine.BlockLedger
import SmartIDS.ResponseEngine.BlockDeadline
import SmartIDS.TrafficEngine.SessionBuilder
import SmartIDS.TrafficEngine.BuilderSpec
import SmartIDS.TrafficEngine.SessionLedger
import SmartIDS.TrafficEngine.LedgerRefinement
import SmartIDS.TrafficEngine.FlowIsolation
import SmartIDS.PacketCapture.ReconnectLoop
import SmartIDS.Foundation.BoundedFifo
import SmartIDS.ResponseEngine.ProcessedCommandStore
import SmartIDS.PacketCapture.Contracts
import SmartIDS.ResponseEngine.Policy
import SmartIDS.PacketCapture.PacketProcessor
import SmartIDS.PacketCapture.BackendCommands
import SmartIDS.PacketCapture.CommandChannel
import SmartIDS.PacketCapture.ProcessSpec
import SmartIDS.PacketCapture.CommandReplay
import SmartIDS.TrafficEngine.WellFiled
import SmartIDS.PacketCapture.AlertLifecycle
import SmartIDS.ThreatDetection.SourceIsolation
import SmartIDS.PacketCapture.SessionEvidence
import SmartIDS.Foundation.TextLines
import SmartIDS.Python.TextFile
import SmartIDS.Forwarding.DiskSpillStore
import SmartIDS.Forwarding.SpillSpec
import SmartIDS.Forwarding.SpillFifo
import SmartIDS.Forwarding.IdPayloads
import SmartIDS.PacketCapture.StateFiles
import SmartIDS.Forwarding.BackgroundPublisher
import SmartIDS.Forwarding.WorkerSurvival
import SmartIDS.Forwarding.SpillBooks
import SmartIDS.Forwarding.SpillAccounting
import SmartIDS.Foundation.Dispersion
import SmartIDS.TrafficEngine.RunningStats
import SmartIDS.TrafficEngine.BuilderCalls
import SmartIDS.TrafficEngine.Conservation
import SmartIDS.FeatureEngine.SessionFeatureExtractor
import SmartIDS.FeatureEngine.IncrementalStats
import SmartIDS.FeatureEngine.FeatureCoherence
import SmartIDS.PacketCapture.BlockBook
import SmartIDS.PacketCapture.BlockEvents
import SmartIDS.Foundation.Stages
import SmartIDS.Foundation.TrimmedLog
import SmartIDS.ML.RuntimeArtifacts
import SmartIDS.ML.ModelStack
import SmartIDS.Foundation.SelectionSampling
import SmartIDS.ML.SplitPrepared
import SmartIDS.ML.StratifiedSplit
import SmartIDS.ResponseEngine.BruteforceWindow
import SmartIDS.TrafficEngine.SessionLifetime
import SmartIDS.FeatureEngine.FlowSpan
import SmartIDS.ResponseEngine.FirewallLog
import SmartIDS.ResponseEngine.LoggedBlocker
import SmartIDS.ResponseEngine.RequestAtomicity
import SmartIDS.ResponseEngine.LedgerInvariant
import SmartIDS.ResponseEngine.EnforcementStatus
import SmartIDS.PacketCapture.BlockAnswers
import SmartIDS.TrafficEngine.PredictionCadence
import SmartIDS.ThreatDetection.DetectorBookkeeping
import SmartIDS.PacketCapture.CaptureAccounting
import SmartIDS.PacketCapture.CommandDelivery
import SmartIDS.PacketCapture.RequestSigner
import SmartIDS.ML.SplitOutcome
import SmartIDS.PacketCapture.ReconnectBackoff
import SmartIDS.Forwarding.AppendRecovery
import SmartIDS.Forwarding.SpillDrain
import SmartIDS.Python.Datetime
import SmartIDS.Foundation.Outcomes
import SmartIDS.Foundation.AtomicReplace
import SmartIDS.Python.JsonDocument
import SmartIDS.Python.JsonTokens
import SmartIDS.Python.JsonRoundTrip
import SmartIDS.Python.JsonNormalForm
import SmartIDS.Forwarding.JsonSpill
import SmartIDS.Python.JsonText
import SmartIDS.Python.SplitLines
import SmartIDS.ResponseEngine.IpActivityLedger
import SmartIDS.ResponseEngine.IpActivityTracker
import SmartIDS.ResponseEngine.IpActivityLog
import SmartIDS.Foundation.StepParser
import SmartIDS.PacketCapture.CaptureGrammar
import SmartIDS.PacketCapture.PacketFilters
import SmartIDS.PacketCapture.ConfiguredFilter
import SmartIDS.Python.IpAddressText
import SmartIDS.Foundation.Columns
import SmartIDS.ML.PreparedChunk
import SmartIDS.ML.CleanChunk
import SmartIDS.ML.CleanFrame
import SmartIDS.FeatureEngine.InterArrival
import SmartIDS.PacketCapture.EventIds
import SmartIDS.Foundation.Ratios
import SmartIDS.ML.ConfusionMetrics
import SmartIDS.Foundation.Contingency
import SmartIDS.ML.NormalTrafficFpr
import SmartIDS.Foundation.NamedColumns
import SmartIDS.ML.Cicids2018Mapping
import SmartIDS.ML.Cicids2018Validation
import SmartIDS.ML.PreparedDataset
import SmartIDS.Foundation.Distributions
import SmartIDS.PacketCapture.SavedState
import SmartIDS.PacketCapture.Registration
import SmartIDS.PacketCapture.SessionUpdates
import SmartIDS.PacketCapture.TelemetryWindows
import SmartIDS.ML.DecisionTree
import SmartIDS.Forwarding.WorkerPool
import SmartIDS.PacketCapture.ShadowPredictions
import SmartIDS.ML.Deployment
import SmartIDS.ML.Training
import SmartIDS.ML.TrainingReport
import SmartIDS.ResponseEngine.FirewallPlatforms
import SmartIDS.PacketCapture.EngineIdentity
