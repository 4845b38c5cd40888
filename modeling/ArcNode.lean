import ArcNode.Lib.OrderedTable
import ArcNode.Lib.Machine
import ArcNode.Lib.Bytes
import ArcNode.Lib.Progress
import ArcNode.Types.Basic
import ArcNode.Types.Block
import ArcNode.Store.Db
import ArcNode.Store.Rollback
import ArcNode.Store.Pruning
import ArcNode.Store.Migration
import ArcNode.Store.Resume
import ArcNode.Store.Reopen
import ArcNode.App.Streaming
import ArcNode.App.ProposalParts
import ArcNode.App.Reassembly
import ArcNode.App.Delivery
import ArcNode.App.Payload
import ArcNode.App.Ingest
import ArcNode.App.IngestSpec
import ArcNode.App.Verdicts
import ArcNode.App.Authenticity
import ArcNode.App.Decided
import ArcNode.App.Handshake
import ArcNode.App.Node
import ArcNode.App.DecidedFrame
import ArcNode.App.DecidedChain
import ArcNode.App.StreamBounds
import ArcNode.App.PeerIsolation
import ArcNode.App.NodeSteps
import ArcNode.App.HeightRestart
import ArcNode.App.Provenance
import ArcNode.App.SingleProposal
import ArcNode.Codec.Proto
import ArcNode.Codec.Wal
import ArcNode.Codec.SignBytes
import ArcNode.Evm.State
import ArcNode.Lib.Program
import ArcNode.Evm.Precompiles
import ArcNode.Evm.Frames
import ArcNode.Evm.Transaction
import ArcNode.Evm.View
import ArcNode.Evm.Payments
import ArcNode.Evm.PrecompileSpec
import ArcNode.Evm.FrameSpec
import ArcNode.Evm.MachineSpec
import ArcNode.Evm.SubcallSpec
import ArcNode.Evm.Continuations
import ArcNode.Evm.SubcallAtomicity
import ArcNode.Evm.SubcallGas
import ArcNode.Evm.RunSpec
import ArcNode.Evm.TransactionSpec
import ArcNode.Evm.Supply
import ArcNode.Evm.Blocklist
import ArcNode.Evm.TransferLogs
import ArcNode.Fees.BaseFee
import ArcNode.Fees.ControlLaw
import ArcNode.Contracts.ValidatorRegistry
import ArcNode.Contracts.RegistryInvariants
import ArcNode.Contracts.Denylist
import ArcNode.Engine.ValidatorSet
import ArcNode.Snapshots.Download
import ArcNode.Snapshots.Restore
import ArcNode.App.PendingBounds
import ArcNode.Codec.Parts
import ArcNode.App.PanicFree
import ArcNode.Codec.Network
import ArcNode.Codec.Stored
import ArcNode.Evm.Accounts
import ArcNode.Block.Executor
import ArcNode.Block.ExecutorSpec
import ArcNode.Block.StateHook
import ArcNode.Block.Beneficiary
import ArcNode.Store.RangeQuery
import ArcNode.Store.Retention
import ArcNode.App.CertificateGrowth
import ArcNode.App.Restreaming
import ArcNode.Rpc.MultiCall
import ArcNode.Engine.Rotation
import ArcNode.Snapshots.UrlIdentity
import ArcNode.Types.ForkHistory
