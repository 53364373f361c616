import TrustLedger.Demo.Api
import TrustLedger.Demo.Books
import TrustLedger.Demo.Commits
import TrustLedger.Demo.Drift
import TrustLedger.Demo.Guards
import TrustLedger.Demo.Idempotency
import TrustLedger.Demo.Lockstep
import TrustLedger.Demo.Payment
import TrustLedger.Demo.Payouts
import TrustLedger.Demo.Rail
import TrustLedger.Demo.ReceiptRaces
import TrustLedger.Demo.Receipts
import TrustLedger.Demo.Reconciliation
import TrustLedger.Demo.Service
import TrustLedger.Demo.SettledOnce
import TrustLedger.Demo.Settlement
import TrustLedger.Demo.Timestamps
import TrustLedger.Demo.Webhooks
import TrustLedger.Foundation.Audit
import TrustLedger.Foundation.Ballots
import TrustLedger.Foundation.Borsh
import TrustLedger.Foundation.Bytes
import TrustLedger.Foundation.Chance
import TrustLedger.Foundation.Crc32c
import TrustLedger.Foundation.Fallible
import TrustLedger.Foundation.FiniteMap
import TrustLedger.Foundation.Guarded
import TrustLedger.Foundation.HashTree
import TrustLedger.Foundation.Interleaving
import TrustLedger.Foundation.Lifecycle
import TrustLedger.Foundation.Machine
import TrustLedger.Foundation.MountainRange
import TrustLedger.Foundation.Reader
import TrustLedger.Foundation.Replication
import TrustLedger.Foundation.SlotLog
import TrustLedger.Foundation.Speculation
import TrustLedger.Foundation.Tasks
import TrustLedger.Foundation.TornLog
import TrustLedger.Foundation.Verdicts
import TrustLedger.Foundation.Walk
import TrustLedger.Foundation.Wire
import TrustLedger.Ingest.Assignment
import TrustLedger.Ingest.Batching
import TrustLedger.Ingest.Calls
import TrustLedger.Ingest.Decisions
import TrustLedger.Ingest.Durability
import TrustLedger.Ingest.Engine
import TrustLedger.Ingest.Isolation
import TrustLedger.Ingest.Oversize
import TrustLedger.Ingest.Persistence
import TrustLedger.Ingest.Queue
import TrustLedger.Ingest.Replies
import TrustLedger.Ingest.Responses
import TrustLedger.Ingest.Restart
import TrustLedger.Ingest.Server
import TrustLedger.Ingest.Service
import TrustLedger.Ingest.Watermark
import TrustLedger.LedgerCore.Acceptance
import TrustLedger.LedgerCore.Account
import TrustLedger.LedgerCore.Atomicity
import TrustLedger.LedgerCore.Balances
import TrustLedger.LedgerCore.Batches
import TrustLedger.LedgerCore.Closure
import TrustLedger.LedgerCore.Codec
import TrustLedger.LedgerCore.Conservation
import TrustLedger.LedgerCore.DebugBuild
import TrustLedger.LedgerCore.Effects
import TrustLedger.LedgerCore.Holds
import TrustLedger.LedgerCore.Invariants
import TrustLedger.LedgerCore.JournalSums
import TrustLedger.LedgerCore.Ledger
import TrustLedger.LedgerCore.MutatorSteps
import TrustLedger.LedgerCore.Once
import TrustLedger.LedgerCore.Overdraft
import TrustLedger.LedgerCore.Preparation
import TrustLedger.LedgerCore.Primitives
import TrustLedger.LedgerCore.Rollback
import TrustLedger.LedgerCore.Runs
import TrustLedger.LedgerCore.Settlement
import TrustLedger.LedgerCore.Timeliness
import TrustLedger.LedgerCore.Transfer
import TrustLedger.LedgerCore.Transitions
import TrustLedger.Merkle.Arithmetic
import TrustLedger.Merkle.Binding
import TrustLedger.Merkle.Completeness
import TrustLedger.Merkle.Forest
import TrustLedger.Merkle.Hash
import TrustLedger.Merkle.Mmr
import TrustLedger.Merkle.Proof
import TrustLedger.Merkle.ProofCodec
import TrustLedger.Merkle.Reference
import TrustLedger.Merkle.Soundness
import TrustLedger.Merkle.Storage
import TrustLedger.Raft.Convergence
import TrustLedger.Raft.LogStore
import TrustLedger.Raft.Purge
import TrustLedger.Raft.StateMachine
import TrustLedger.Raft.Types
import TrustLedger.Simulator.Agreement
import TrustLedger.Simulator.Cluster
import TrustLedger.Simulator.Crashes
import TrustLedger.Simulator.Durability
import TrustLedger.Simulator.Elections
import TrustLedger.Simulator.Environment
import TrustLedger.Simulator.Leadership
import TrustLedger.Simulator.Moves
import TrustLedger.Simulator.Node
import TrustLedger.Simulator.Provenance
import TrustLedger.Simulator.Reactions
import TrustLedger.Simulator.Replicas
import TrustLedger.Simulator.Replication
import TrustLedger.Simulator.Runs
import TrustLedger.Simulator.Stamps
import TrustLedger.Simulator.Supply
import TrustLedger.Simulator.Wealth
import TrustLedger.SolanaSettle.FirstCommit
import TrustLedger.SolanaSettle.Handlers
import TrustLedger.SolanaSettle.History
import TrustLedger.SolanaSettle.Inclusion
import TrustLedger.SolanaSettle.Processor
import TrustLedger.SolanaSettle.Receipt
import TrustLedger.SolanaSettle.Registry
import TrustLedger.SolanaSettle.State
import TrustLedger.SolanaSettle.Trust
import TrustLedger.WriteAheadLog.Contents
import TrustLedger.WriteAheadLog.Corruption
import TrustLedger.WriteAheadLog.Crashes
import TrustLedger.WriteAheadLog.Error
import TrustLedger.WriteAheadLog.Failures
import TrustLedger.WriteAheadLog.Frames
import TrustLedger.WriteAheadLog.Handle
import TrustLedger.WriteAheadLog.Layout
import TrustLedger.WriteAheadLog.Record
import TrustLedger.WriteAheadLog.Recovery
import TrustLedger.WriteAheadLog.Sessions
import TrustLedger.WriteAheadLog.Wal
