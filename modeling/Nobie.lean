import Nobie.Channels.ChunkDelivery
import Nobie.Db.MigrationLock
import Nobie.Db.NicknameNamespace
import Nobie.Enterprise.Aggregation
import Nobie.Enterprise.DelegationBounds
import Nobie.Enterprise.Revocation
import Nobie.Mcp.RegisteredTools
import Nobie.Mcp.SettledOnce
import Nobie.Memory.ChunkCoverage
import Nobie.Memory.DocumentStore
import Nobie.Memory.Writeback
import Nobie.Mqtt.Broker
import Nobie.Orchestration.DecisionConversion
import Nobie.Orchestration.DelegationAgreement
import Nobie.Orchestration.DispatchAccounting
import Nobie.Orchestration.EventRecording
import Nobie.Orchestration.GroupAccounting
import Nobie.Orchestration.Hierarchy
import Nobie.Orchestration.PlanSoundness
import Nobie.Orchestration.Redelegation
import Nobie.Orchestration.RestartProjection
import Nobie.Orchestration.ReviewSoundness
import Nobie.Orchestration.SpawnAcknowledgement
import Nobie.Orchestration.SubSessionStore
import Nobie.Orchestration.SubtreeCancellation
import Nobie.Runs.ApprovalInterleaving
import Nobie.Runs.ArtifactDelivery
import Nobie.Runs.BackpressureQueue
import Nobie.Runs.FinalValidation
import Nobie.Runs.FinishedRuns
import Nobie.Scheduler.Cron
import Nobie.Security.CapabilityRateLimit
import Nobie.Security.WorkOrderPolicy
import Nobie.Tools.ApprovalGrants
import Nobie.Tools.DuplicateCalls
import Nobie.Tools.FileAccess
import Nobie.Tools.PatchApplier
import Nobie.Topology.GraphExecution
import Nobie.Topology.RuntimeGraph
import Nobie.Topology.TopologyRepair
import Nobie.Yeonjang.RequestThread
import Nobie.Yeonjang.Attempt
import Nobie.Yeonjang.ResponseIsolation
