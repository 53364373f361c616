import TrustLedger.LedgerCore.Codec

/-! Log entries, client requests and responses of the consensus layer. Membership configurations are
opaque: the ledger's side of the consensus layer stores and returns them.
-/

namespace TrustLedger.Raft

open Foundation LedgerCore

/-- The place of an entry in the log: the leader that wrote it, and its index. -/
structure LogId where
  term : U64
  nodeId : U64
  index : U64
  deriving DecidableEq

/-- Log IDs are ordered by leader, then by index. -/
def LogId.le (a b : LogId) : Prop :=
  a.term < b.term ∨ a.term = b.term
    ∧ (a.nodeId < b.nodeId ∨ a.nodeId = b.nodeId ∧ a.index ≤ b.index)

instance : LE LogId := ⟨LogId.le⟩

instance (a b : LogId) : Decidable (a ≤ b) :=
  inferInstanceAs (Decidable (_ ∨ _))

/-- Client mutation request proposed through the log. -/
inductive RaftRequest where
  | createAccount (id : AccountId) (accountType : AccountType) (flags : AccountFlags)
    (scale : Scale) (timestamp : U64)
  | createTransfer (transfer : Transfer)
  | createPending (transfer : Transfer)
  | postPending (pendingId postTransferId : TransferId) (amount : Amount) (timestamp : U64)
  | voidPending (pendingId : TransferId) (timestamp : U64)
  | closeAccount (id : AccountId) (timestamp : U64)
  | applyBatch (ops : List BatchOp)
  deriving DecidableEq

/-- The operations of a request. -/
def RaftRequest.ops : RaftRequest → List BatchOp
  | .createAccount id accountType flags scale timestamp =>
      [.createAccount id accountType flags scale timestamp]
  | .createTransfer transfer => [.transfer transfer]
  | .createPending transfer => [.pending transfer]
  | .postPending pendingId postTransferId amount timestamp =>
      [.postPending pendingId postTransferId amount timestamp]
  | .voidPending pendingId timestamp => [.voidPending pendingId timestamp]
  | .closeAccount id timestamp => [.closeAccount id timestamp]
  | .applyBatch ops => ops

/-- Successful response to a committed request. -/
inductive RaftResponse where
  | blank
  | accountCreated (id : AccountId)
  | transferCreated (id : TransferId)
  | pendingCreated (id : TransferId)
  | pendingPosted (id : TransferId)
  | pendingVoided (id : TransferId)
  | accountClosed (id : AccountId)
  | batchApplied (events : List LedgerEvent)
  deriving DecidableEq

/-- Error returned when proposing or applying a request. -/
inductive RaftClientError where
  | ledger (text : String)
  | notLeader (leaderId : Option U64)
  | fatal (text : String)
  deriving DecidableEq

/-- The response to a request whose events were committed. -/
def RaftRequest.response (events : List LedgerEvent) : RaftRequest → RaftResponse
  | .createAccount id _ _ _ _ => .accountCreated id
  | .createTransfer transfer => .transferCreated transfer.id
  | .createPending transfer => .pendingCreated transfer.id
  | .postPending _ postTransferId _ _ => .pendingPosted postTransferId
  | .voidPending pendingId _ => .pendingVoided pendingId
  | .closeAccount id _ => .accountClosed id
  | .applyBatch _ => .batchApplied events

/-- What an entry carries. -/
inductive EntryPayload (M : Type) where
  | blank
  | normal (request : RaftRequest)
  | membership (membership : M)
  deriving DecidableEq

structure Entry (M : Type) where
  logId : LogId
  payload : EntryPayload M
  deriving DecidableEq

/-- A membership configuration with the entry that set it. -/
structure StoredMembership (M : Type) where
  logId : Option LogId
  membership : M
  deriving DecidableEq

/-- What a snapshot says about itself. -/
structure SnapshotMeta (M : Type) where
  lastLogId : Option LogId
  lastMembership : StoredMembership M
  snapshotId : String
  deriving DecidableEq

structure Snapshot (M : Type) where
  info : SnapshotMeta M
  data : Bytes
  deriving DecidableEq

/-- The content of a snapshot. -/
structure SnapshotPayload where
  scale : Scale
  journal : List LedgerEvent
  deriving DecidableEq

/-- Errors of the storage interface. -/
inductive StorageError where
  | readStateMachine (text : String)
  | readSnapshot (lastLogId : Option LogId) (snapshotId : String) (text : String)
  deriving DecidableEq

/-- Serialize a snapshot payload, field by field. A list longer than `u64` counts is not a value of
the source's type and has no encoding.
-/
def SnapshotPayload.encode (payload : SnapshotPayload) : Except String Bytes :=
  if small : payload.journal.length < 2 ^ 64 then
    .ok ((Scale.codec.pair LedgerEvent.codec.list).encode (payload.scale, ⟨payload.journal, small⟩))
  else
    .error "sequence too long"

/-- Deserialize a snapshot payload; bytes after it are ignored. -/
def SnapshotPayload.decode (bytes : Bytes) : Except String SnapshotPayload :=
  match (Scale.codec.pair LedgerEvent.codec.list).decode bytes with
  | none => .error "malformed payload"
  | some ((scale, journal), _) => .ok { scale, journal := journal.1 }

theorem SnapshotPayload.decode_encode {payload : SnapshotPayload} {bytes : Bytes}
    (encoded : payload.encode = .ok bytes)
    : SnapshotPayload.decode bytes = .ok payload := by
  unfold encode at encoded
  split at encoded
  · rename_i small
    cases encoded
    have read := (Scale.codec.pair LedgerEvent.codec.list).decode_encode
      (payload.scale, ⟨payload.journal, small⟩) []
    rw [List.append_nil] at read
    simp only [decode, read]
  · cases encoded

end TrustLedger.Raft
