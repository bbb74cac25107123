import VerticalAI.Foundation.Program
import VerticalAI.Foundation.ProgramLogic
import VerticalAI.Foundation.Table
import VerticalAI.Foundation.Text
import VerticalAI.Foundation.Rows
import VerticalAI.Foundation.Utf8
import VerticalAI.Foundation.Hex
import VerticalAI.Foundation.Json
import VerticalAI.Foundation.HashChain
import VerticalAI.Foundation.Greedy
import VerticalAI.Foundation.History
import VerticalAI.Foundation.JsonText
import VerticalAI.Contracts.Labels
import VerticalAI.Contracts.Principal
import VerticalAI.Contracts.Register
import VerticalAI.Contracts.Stop
import VerticalAI.Contracts.Locks
import VerticalAI.Contracts.Arch
import VerticalAI.Contracts.Module
import VerticalAI.Contracts.Syscalls
import VerticalAI.Contracts.Interceptors
import VerticalAI.Contracts.Ledger
import VerticalAI.Contracts.StampOrder
import VerticalAI.Contracts.Storage
import VerticalAI.Contracts.Federation
import VerticalAI.Kernel.Arch
import VerticalAI.Kernel.Projection
import VerticalAI.Kernel.PromptUnits
import VerticalAI.Kernel.State
import VerticalAI.Foundation.NormalPath
import VerticalAI.Foundation.Path
import VerticalAI.Kernel.ApprovalHistory
import VerticalAI.Kernel.CallGuard
import VerticalAI.Kernel.Core
import VerticalAI.Kernel.Enrolment
import VerticalAI.Kernel.LeaseReplay
import VerticalAI.Kernel.Leases
import VerticalAI.Kernel.LeaseAgreement
import VerticalAI.Kernel.MemoryRows
import VerticalAI.Kernel.Rebuild
import VerticalAI.Kernel.RecordEffects
import VerticalAI.Kernel.RegisterRules
import VerticalAI.Kernel.RegisterLabels
import VerticalAI.Kernel.StopEffects
import VerticalAI.Kernel.MintEffects
import VerticalAI.Kernel.Numbering
import VerticalAI.Kernel.Artefacts
import VerticalAI.Kernel.ArtefactReads
import VerticalAI.Kernel.ArtefactInvariant
import VerticalAI.Kernel.StopInvariant
import VerticalAI.Kernel.Syscalls
import VerticalAI.Kernel.Boot
import VerticalAI.Kernel.Footprint
import VerticalAI.Kernel.Machine
import VerticalAI.Kernel.Namespace
import VerticalAI.Kernel.TaskReads
import VerticalAI.Kernel.Inference
import VerticalAI.Kernel.TaskStatus
import VerticalAI.Kernel.LoggingTimes
import VerticalAI.Kernel.TaskMoves
import VerticalAI.Kernel.TaskHistory
import VerticalAI.Kernel.TaskSteps
import VerticalAI.Kernel.TaskViews
import VerticalAI.Kernel.Tasks
import VerticalAI.Ipc.Challenges
import VerticalAI.Ipc.Server
import VerticalAI.Ipc.MachineRequests
import VerticalAI.Ipc.Daemon
import VerticalAI.Correctness.EnrolledDevices
import VerticalAI.Correctness.HonestProjection
import VerticalAI.Correctness.HumanApprovals
import VerticalAI.Correctness.InferBudget
import VerticalAI.Correctness.LabelsRise
import VerticalAI.Correctness.LeaseExclusion
import VerticalAI.Correctness.LeaseFences
import VerticalAI.Correctness.LeaseIds
import VerticalAI.Correctness.MemoryAgreement
import VerticalAI.Correctness.FreshIds
import VerticalAI.Correctness.TaskErasure
import VerticalAI.Correctness.WholeItems
import VerticalAI.Correctness.ClockOrder
import VerticalAI.Correctness.LeaseTable
import VerticalAI.Correctness.ReleaseConfinement
import VerticalAI.Correctness.ReleasedFiles
import VerticalAI.Correctness.MetadataMerge
import VerticalAI.Correctness.LedgerRecovery
import VerticalAI.Correctness.LedgerRepair
import VerticalAI.Correctness.AppendAtomicity
import VerticalAI.Correctness.AuthorityOnRecord
import VerticalAI.Correctness.BlobAddresses
import VerticalAI.Correctness.BlobCrashes
import VerticalAI.Correctness.BlobSemantics
import VerticalAI.Correctness.ModuleFiles
import VerticalAI.Correctness.NodeStop
import VerticalAI.Correctness.RootThreshold
import VerticalAI.Correctness.ShredAtomicity
import VerticalAI.Correctness.SignedChallenges
import VerticalAI.Correctness.StopConvergence
import VerticalAI.Correctness.StopPersistence
import VerticalAI.Correctness.StubAgreement
import VerticalAI.Correctness.TaskCoherence
import VerticalAI.Correctness.StepOrder
import VerticalAI.Correctness.FreePolls
import VerticalAI.Correctness.AnsweredSubjects
import VerticalAI.Correctness.LedgerTime
import VerticalAI.Correctness.ChainNumbering
import VerticalAI.Correctness.ChallengeLifetime
import VerticalAI.Correctness.PresenceCeremony
import VerticalAI.Correctness.TaskNonInterference
import VerticalAI.Correctness.TamperEvidence
import VerticalAI.Store.Keys
import VerticalAI.Store.Blobs
import VerticalAI.Store.BlobOps
import VerticalAI.Store.BlobLibraries
import VerticalAI.Store.CanonicalReader
import VerticalAI.Store.LedgerFs
import VerticalAI.Store.SegmentOrder
import VerticalAI.Store.SegmentReplay
import VerticalAI.Store.LedgerImage
import VerticalAI.Store.ForeignSegments
import VerticalAI.Store.OpenedFiles
import VerticalAI.Store.RecordedHead
import VerticalAI.Kernel.PromptLines
import VerticalAI.Foundation.Endings
import VerticalAI.Contracts.Documents
import VerticalAI.Kernel.WorkingCalls
import VerticalAI.Stub.Holdings
import VerticalAI.Stub.Scripts
import VerticalAI.Stub.StubCalls
import VerticalAI.Stub.Twins
import VerticalAI.Stub.Hooks
import VerticalAI.Foundation.Indifference
import VerticalAI.Kernel.Processes
import VerticalAI.Kernel.VerifiedRecord
import VerticalAI.Kernel.RecordKinds
import VerticalAI.Kernel.HandedPrompts
import VerticalAI.Kernel.PromptRecord
import VerticalAI.Cli.TaskCommand
import VerticalAI.Cli.HumanCommands
import VerticalAI.Correctness.SerialProcesses
import VerticalAI.Correctness.RecordedActs
import VerticalAI.Correctness.ClearedPrompts
import VerticalAI.Correctness.RecordedPrompts
import VerticalAI.Correctness.StepLoop
import VerticalAI.Correctness.ApproveCommand
import VerticalAI.Foundation.Base64
import VerticalAI.Foundation.Like
import VerticalAI.Foundation.JsonReading
import VerticalAI.Foundation.LineStream
import VerticalAI.Store.KeyFile
import VerticalAI.Store.KeyValues
import VerticalAI.Kernel.KeyValues
import VerticalAI.Ipc.Wire
import VerticalAI.Correctness.KeyAgreement
import VerticalAI.Correctness.KeyValueTable
import VerticalAI.Correctness.WireCalls
import VerticalAI.Ipc.Endpoint
import VerticalAI.Correctness.EndpointHolders
import VerticalAI.Vkd.Start
import VerticalAI.Correctness.DaemonStarts
