import TrustDB.Result
import TrustDB.Machine
import TrustDB.Search
import TrustDB.Paging
import TrustDB.Quorum
import TrustDB.Codec.Slice
import TrustDB.Codec.Varint
import TrustDB.Codec.Words
import TrustDB.Codec.Hex
import TrustDB.Codec.Cbor
import TrustDB.HashTree.Split
import TrustDB.HashTree.Shape
import TrustDB.HashTree.Binding
import TrustDB.HashTree.Chain
import TrustDB.HashTree.Consistency
import TrustDB.HashTree.Frontier
import TrustDB.HashTree.Paired
import TrustDB.Trusterr
import TrustDB.CryptoSuite
import TrustDB.Model
import TrustDB.RecordIndex
import TrustDB.StorageTokens
import TrustDB.Marshal
import TrustDB.ModelSuite
import TrustDB.TrustCrypto
import TrustDB.TrustCrypto.Verify
import TrustDB.Claim
import TrustDB.Receipt
import TrustDB.Anchor
import TrustDB.Anchor.OtsParse
import TrustDB.ProofLevel
import TrustDB.Merkle.Core
import TrustDB.Merkle.Tree
import TrustDB.Merkle.Verifier
import TrustDB.Merkle.Soundness
import TrustDB.GlobalLog.Core
import TrustDB.GlobalLog.Append
import TrustDB.GlobalLog.Service
import TrustDB.ProofStore.Pebble
import TrustDB.ProofStore.Local
import TrustDB.ProofStore.LeafPages
import TrustDB.ProofStore.RecordKeys
import TrustDB.Decimal
import TrustDB.ProofStore.RecordListing
import TrustDB.ProofStore.QueryListing
import TrustDB.GlobalLog.Ledger
import TrustDB.GlobalLog.Plan
import TrustDB.GlobalLog.ExactlyOnce
import TrustDB.GlobalLog.Reader
import TrustDB.GlobalLog.Consistency
import TrustDB.GlobalLog.FileLog
import TrustDB.GlobalLog.FileCommit
import TrustDB.GlobalLog.CrashSafety
import TrustDB.Verify.Core
import TrustDB.Verify.Statement
import TrustDB.Verify.Soundness
import TrustDB.Wal.Record
import TrustDB.Wal.Directory
import TrustDB.Wal.Segment
import TrustDB.Wal.Layout
import TrustDB.Wal.Namespace
import TrustDB.Wal.Replay
import TrustDB.Wal.Writer
import TrustDB.Wal.Kept
import TrustDB.Wal.RoundTrip
import TrustDB.Wal.Repair
import TrustDB.Wal.Recovery
import TrustDB.Wal.Reservation
import TrustDB.Wal.Submission
import TrustDB.Wal.Authentic
import TrustDB.Wal.ReadAll
import TrustDB.Wal.TamperEvidence
import TrustDB.Batch.Checkpoint
import TrustDB.Batch.Coverage
import TrustDB.Batch.CheckpointSafety
import TrustDB.Ingest.Service
import TrustDB.Ingest.Delivery
import TrustDB.FiscoBcos.Native
import TrustDB.FiscoBcos.Validators
import TrustDB.FiscoBcos.Finality
import TrustDB.FiscoBcos.Binding
import TrustDB.FiscoBcos.MerklePath
import TrustDB.FiscoBcos.Trust
import TrustDB.FiscoBcos.Transitions
import TrustDB.FiscoBcos.Agreement
import TrustDB.FiscoBcos.Composition
import TrustDB.FiscoBcos.Accountability
import TrustDB.Backup.Frames
import TrustDB.Backup.FrameStreams
import TrustDB.Codec.Joined
import TrustDB.Keystore.Descriptor
import TrustDB.Keystore.Registry
import TrustDB.Keystore.History
import TrustDB.TrustCrypto.Sign
import TrustDB.Idempotency.Decision
import TrustDB.App.Engine
import TrustDB.App.Replayable
import TrustDB.App.Index
import TrustDB.App.Submission
import TrustDB.App.Slots
import TrustDB.App.Invariant
import TrustDB.App.Steps
import TrustDB.App.Idempotent
import TrustDB.App.Isolation
import TrustDB.AnchorSchedule.Core
import TrustDB.AnchorSchedule.Publication
import TrustDB.AnchorSchedule.Spec
import TrustDB.AnchorSchedule.Validity
import TrustDB.AnchorSchedule.History
import TrustDB.ProofStore.AnchorStore
import TrustDB.ProofStore.AnchorEffects
import TrustDB.ProofStore.AnchorCoverage
import TrustDB.ProofStore.AnchorLatest
import TrustDB.ProofStore.AnchorEvidence
import TrustDB.ProofStore.AnchorFencing
import TrustDB.ProbeTable
import TrustDB.StorageTokenBound
import TrustDB.FiscoBcos.AbiArguments
import TrustDB.Parties
import TrustDB.Batch.Queue
