import ProbingBaselines.Dlrover.ActorInvocation
import ProbingBaselines.Dlrover.BatchDatasetManager
import ProbingBaselines.Dlrover.BundlePlacement
import ProbingBaselines.Dlrover.CheckAgents
import ProbingBaselines.Dlrover.CheckPartition
import ProbingBaselines.Dlrover.CheckRounds
import ProbingBaselines.Dlrover.CheckWorlds
import ProbingBaselines.Dlrover.CheckpointDeletion
import ProbingBaselines.Dlrover.CkptBarrier
import ProbingBaselines.Dlrover.CkptReplica
import ProbingBaselines.Dlrover.Collocation
import ProbingBaselines.Dlrover.CommonDirCommit
import ProbingBaselines.Dlrover.CommonDirMemory
import ProbingBaselines.Dlrover.CommonDirSaver
import ProbingBaselines.Dlrover.DatasetSplitter
import ProbingBaselines.Dlrover.DiagnosisActionQueue
import ProbingBaselines.Dlrover.DiagnosisWire
import ProbingBaselines.Dlrover.DistributedJobManager
import ProbingBaselines.Dlrover.DurationSpan
import ProbingBaselines.Dlrover.ElasticSampler
import ProbingBaselines.Dlrover.ElasticTraining
import ProbingBaselines.Dlrover.EndOfData
import ProbingBaselines.Dlrover.FailoverFlags
import ProbingBaselines.Dlrover.FailureCharges
import ProbingBaselines.Dlrover.FaultIsolation
import ProbingBaselines.Dlrover.FaultNodeChecks
import ProbingBaselines.Dlrover.FsdpMemory
import ProbingBaselines.Dlrover.FsdpSaver
import ProbingBaselines.Dlrover.FsdpSegment
import ProbingBaselines.Dlrover.FsdpTorn
import ProbingBaselines.Dlrover.FsdpTracker
import ProbingBaselines.Dlrover.GradientAccumulation
import ProbingBaselines.Dlrover.GroupNodeCheck
import ProbingBaselines.Dlrover.GroupScaling
import ProbingBaselines.Dlrover.HistoricPsEstimate
import ProbingBaselines.Dlrover.HotPs
import ProbingBaselines.Dlrover.InterGroups
import ProbingBaselines.Dlrover.InterIsolation
import ProbingBaselines.Dlrover.JobRestart
import ProbingBaselines.Dlrover.JobRuntimeInfo
import ProbingBaselines.Dlrover.ListReconciliation
import ProbingBaselines.Dlrover.MajorCluster
import ProbingBaselines.Dlrover.ManagerUpgrade
import ProbingBaselines.Dlrover.MonitorLoop
import ProbingBaselines.Dlrover.NetworkCheck
import ProbingBaselines.Dlrover.NetworkGroups
import ProbingBaselines.Dlrover.Node
import ProbingBaselines.Dlrover.NodeGroups
import ProbingBaselines.Dlrover.NodeRelaunch
import ProbingBaselines.Dlrover.NodeUpdates
import ProbingBaselines.Dlrover.ParameterServerManager
import ProbingBaselines.Dlrover.PendingGroups
import ProbingBaselines.Dlrover.PerfMonitor
import ProbingBaselines.Dlrover.PodScaler
import ProbingBaselines.Dlrover.PrimeBooks
import ProbingBaselines.Dlrover.PrimeCalls
import ProbingBaselines.Dlrover.PrimeControl
import ProbingBaselines.Dlrover.PrimeCoroutines
import ProbingBaselines.Dlrover.PrimeManager
import ProbingBaselines.Dlrover.PsCluster
import ProbingBaselines.Dlrover.PsRemoval
import ProbingBaselines.Dlrover.PsUpdates
import ProbingBaselines.Dlrover.RankAssignment
import ProbingBaselines.Dlrover.RdzvManager
import ProbingBaselines.Dlrover.RelaunchBudget
import ProbingBaselines.Dlrover.RestartBudgets
import ProbingBaselines.Dlrover.RoleBatch
import ProbingBaselines.Dlrover.SchedulingPreCheck
import ProbingBaselines.Dlrover.ShardCheckpoint
import ProbingBaselines.Dlrover.ShardCounts
import ProbingBaselines.Dlrover.ShardLedger
import ProbingBaselines.Dlrover.ShardingClient
import ProbingBaselines.Dlrover.SharedDict
import ProbingBaselines.Dlrover.SharedLock
import ProbingBaselines.Dlrover.SharedMemory
import ProbingBaselines.Dlrover.ShmLock
import ProbingBaselines.Dlrover.ShmRoundTrip
import ProbingBaselines.Dlrover.SocketFraming
import ProbingBaselines.Dlrover.StatusTransitions
import ProbingBaselines.Dlrover.StepEvents
import ProbingBaselines.Dlrover.StopIsFinal
import ProbingBaselines.Dlrover.StreamCheckpoint
import ProbingBaselines.Dlrover.StreamingDataset
import ProbingBaselines.Dlrover.SyncBookkeeping
import ProbingBaselines.Dlrover.SyncInvariant
import ProbingBaselines.Dlrover.SyncService
import ProbingBaselines.Dlrover.TempDirAtomic
import ProbingBaselines.Dlrover.TempDirCommit
import ProbingBaselines.Dlrover.TempDirSaver
import ProbingBaselines.Dlrover.TrainingAgreement
import ProbingBaselines.Dlrover.TrainingJoins
import ProbingBaselines.Dlrover.TrainingPorts
import ProbingBaselines.Dlrover.UnifiedNodeCheck
import ProbingBaselines.Dlrover.WorkerReplica
import ProbingBaselines.Dlrover.WorkerScaling
import ProbingBaselines.Dlrover.WorkloadConfig
import ProbingBaselines.Dlrover.WorkloadGraph
import ProbingBaselines.Dlrover.WorldSize
import ProbingBaselines.Greyhound.BatchDistribution
import ProbingBaselines.Greyhound.CommunicatorCache
import ProbingBaselines.Greyhound.CommunicatorLayout
import ProbingBaselines.Greyhound.Compression
import ProbingBaselines.Greyhound.DpPlanner
import ProbingBaselines.Greyhound.FailureReports
import ProbingBaselines.Greyhound.FindPeriod
import ProbingBaselines.Greyhound.GlobalAnalyzer
import ProbingBaselines.Greyhound.GlobalTopo
import ProbingBaselines.Greyhound.GroupExit
import ProbingBaselines.Greyhound.IterTime
import ProbingBaselines.Greyhound.LayerSplit
import ProbingBaselines.Greyhound.LiveSnapshot
import ProbingBaselines.Greyhound.MitigationPlan
import ProbingBaselines.Greyhound.NcclProbe
import ProbingBaselines.Greyhound.PauseWedge
import ProbingBaselines.Greyhound.ProfileResults
import ProbingBaselines.Greyhound.RecordRing
import ProbingBaselines.Greyhound.ShmStorage
import ProbingBaselines.Greyhound.SlowDetection
import ProbingBaselines.Greyhound.StageTimes
import ProbingBaselines.Greyhound.TaskAttribution
import ProbingBaselines.Greyhound.TaskSplit
import ProbingBaselines.Greyhound.Validation
import ProbingBaselines.Greyhound.ValidationTask
import ProbingBaselines.Lib.Barrier
import ProbingBaselines.Lib.Binary64
import ProbingBaselines.Lib.Columns
import ProbingBaselines.Lib.Dict
import ProbingBaselines.Lib.ExactFloat
import ProbingBaselines.Lib.FileTree
import ProbingBaselines.Lib.KeyedTree
import ProbingBaselines.Lib.Layout
import ProbingBaselines.Lib.MapM
import ProbingBaselines.Lib.NdArray
import ProbingBaselines.Lib.ObjectTable
import ProbingBaselines.Lib.Pairing
import ProbingBaselines.Lib.PyIndex
import ProbingBaselines.Lib.Ring
import ProbingBaselines.Lib.Run
import ProbingBaselines.Lib.Runs
import ProbingBaselines.Lib.Slice
import ProbingBaselines.Lib.TreePaths
import ProbingBaselines.Lib.WhileLoop
import ProbingBaselines.XpuTimer.BucketLevels
import ProbingBaselines.XpuTimer.ForceReset
import ProbingBaselines.XpuTimer.GpuTimerManager
import ProbingBaselines.XpuTimer.InterProcessBarrier
import ProbingBaselines.XpuTimer.KernelTrace
import ProbingBaselines.XpuTimer.MetaxConservation
import ProbingBaselines.XpuTimer.MetaxManager
import ProbingBaselines.XpuTimer.MetricsRegistry
import ProbingBaselines.XpuTimer.PyTracing
import ProbingBaselines.XpuTimer.RankGroups
import ProbingBaselines.XpuTimer.RankRanges
import ProbingBaselines.XpuTimer.SeqNumbers
import ProbingBaselines.XpuTimer.StackTrie
import ProbingBaselines.XpuTimer.TimelineDump
import ProbingBaselines.XpuTimer.TimerRecycling
