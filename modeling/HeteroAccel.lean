import HeteroAccel.Lib.KeyedMap
import HeteroAccel.Lib.Transition
import HeteroAccel.Model.AcceleratorMemory
import HeteroAccel.Model.DataSource
import HeteroAccel.Model.ModelResidencyManager
import HeteroAccel.Model.Residency.AcceleratorBudget
import HeteroAccel.Model.Residency.Contents
import HeteroAccel.Model.Residency.RoomMaking
import HeteroAccel.HydroXL.ByteTables
import HeteroAccel.Execution.ExecutionGraph
import HeteroAccel.Execution.ExecutionGraphBuilder
import HeteroAccel.Execution.ExecutionGraphScheduler
import HeteroAccel.Execution.ResidencyRuns
import HeteroAccel.HydroXL.GGUFFormat
import HeteroAccel.HydroXL.GGUFOpen
import HeteroAccel.HydroXL.GGUFRoundTrip
import HeteroAccel.HydroXL.KVCache
import HeteroAccel.HydroXL.KVLayout
import HeteroAccel.HydroXL.PreTokenize
import HeteroAccel.HydroXL.Tokenizer
import HeteroAccel.HydroXL.TokenizerRoundTrip
import HeteroAccel.Mem.Allocators
import HeteroAccel.Mem.Handles
import HeteroAccel.Mem.Transactions
import HeteroAccel.Model.StreamingEngine
import HeteroAccel.Model.StreamingRuns
import HeteroAccel.Planner.ExecutionPlanner
import HeteroAccel.Planner.PartialResidency
import HeteroAccel.Runtime.EngineLifetime
import HeteroAccel.Runtime.WorkloadStates
import HeteroAccel.Sdk.Cancellation
import HeteroAccel.Orchestration.BackendCapabilities
import HeteroAccel.Orchestration.EngineOrchestrator
import HeteroAccel.Orchestration.PerfProfile
import HeteroAccel.Planner.PlannerSoundness
import HeteroAccel.Sdk.PerfSavers
import HeteroAccel.HydroXL.Engine
import HeteroAccel.Orchestration.GeneratedText
import HeteroAccel.Orchestration.PathAgreement
import HeteroAccel.Orchestration.StreamingLaws
import HeteroAccel.HydroXL.Dequant
import HeteroAccel.HydroXL.Model
import HeteroAccel.HydroXL.ModelFaithful
import HeteroAccel.HydroXL.ModelHistory
import HeteroAccel.HydroXL.ForwardPass
import HeteroAccel.HydroXL.PassIndependence
import HeteroAccel.Orchestration.HydroXLCpuEngineAdapter
import HeteroAccel.Orchestration.RequestIsolation
import HeteroAccel.HydroXL.KVRepresentation
import HeteroAccel.HydroXL.LoadedBounds
import HeteroAccel.HydroXL.LoadedBytes
import HeteroAccel.HydroXL.TensorReads
import HeteroAccel.HydroXL.TensorSizes
import HeteroAccel.Lib.OpenTable
import HeteroAccel.Lib.TextLines
import HeteroAccel.Mem.TransferredBytes
import HeteroAccel.Model.Promotion
import HeteroAccel.Orchestration.MemoryEstimator
import HeteroAccel.Plugin.LifecycleOrder
import HeteroAccel.Profiler.HistoryLines
import HeteroAccel.Profiler.HistoryRoundTrip
import HeteroAccel.Scheduler.CostModel
import HeteroAccel.HydroXL.BlockLayouts
import HeteroAccel.HydroXL.GGUFReopen
import HeteroAccel.HydroXL.MergeRounds
import HeteroAccel.HydroXL.SamplerReach
import HeteroAccel.HydroXL.ThreadRanges
import HeteroAccel.Lib.FirstOfSorted
import HeteroAccel.Mem.EvictionOrder
import HeteroAccel.Lib.Words
import HeteroAccel.Orchestration.PerfProfileFile
import HeteroAccel.Orchestration.RunningAverages
import HeteroAccel.Planner.LayerBudget
import HeteroAccel.Profiler.DamagedFiles
import HeteroAccel.Scheduler.AutoTuner
import HeteroAccel.Scheduler.CostSamples
import HeteroAccel.Scheduler.ExecutionPolicyEngine
import HeteroAccel.HydroXL.OperatorReports
import HeteroAccel.HydroXL.VulkanTensorOps
import HeteroAccel.Lib.WhileLoop
import HeteroAccel.Model.Residency.Termination
import HeteroAccel.Orchestration.AdapterReadiness
import HeteroAccel.Primitives.Tensor
import HeteroAccel.Scheduler.WaitReturns
import HeteroAccel.HydroXL.SplitAgreement
import HeteroAccel.Execution.SchedulerTermination
import HeteroAccel.Execution.TensorComputeNode
import HeteroAccel.Execution.TensorGraphRuns
import HeteroAccel.HydroXL.CachedDecoding
import HeteroAccel.HydroXL.DevicePass
import HeteroAccel.Orchestration.ForwardSteps
import HeteroAccel.Orchestration.Recomputation
import HeteroAccel.Orchestration.VulkanAgreement
