import TrustLedger.LedgerCore.Runs
import TrustLedger.Raft.Types

/-! The replicated state machine: committed entries applied to the ledger, snapshots taken from the
journal, and snapshots installed by replay. Membership configurations have a default, as stored
before any was applied.
-/

namespace TrustLedger.Raft

open Foundation LedgerCore

/-- Prepare a request's operations, then commit their events. -/
def execute (request : RaftRequest) : LedgerM RaftResponse := do
  let events ← Ledger.prepareBatch request.ops
  Ledger.commitEvents events
  return request.response events

/-- The answer to an entry. -/
abbrev Answer := Except RaftClientError RaftResponse

/-- Apply one request to the ledger. -/
def applySingleRequest (request : RaftRequest) (ledger : Ledger) : Answer × Ledger :=
  match execute request ledger with
  | .ok response ledger => (.ok response, ledger)
  | .error err ledger => (.error (.ledger err.text), ledger)

/-- State of the replicated state machine. -/
structure StateMachine (M : Type) where
  ledger : Ledger
  lastAppliedLogId : Option LogId
  lastMembership : StoredMembership M
  /-- The snapshot kept for followers. -/
  currentSnapshot : Option (Snapshot M)

/-- Builder of a snapshot, holding what it captured. -/
structure LedgerSnapshotBuilder (M : Type) where
  info : SnapshotMeta M
  snapshotPayload : SnapshotPayload

/-- Serialize what the builder captured. -/
def LedgerSnapshotBuilder.buildSnapshot {M : Type} (builder : LedgerSnapshotBuilder M)
    : Except StorageError (Snapshot M) :=
  match builder.snapshotPayload.encode with
  | .error detail =>
      .error (.readStateMachine ("failed to serialize snapshot payload: " ++ detail))
  | .ok data => .ok { info := builder.info, data }

theorem LedgerSnapshotBuilder.buildSnapshot_ok {M : Type} (builder : LedgerSnapshotBuilder M)
    (small : builder.snapshotPayload.journal.length < 2 ^ 64)
    : ∃ snapshot, builder.buildSnapshot = .ok snapshot := by
  rw [buildSnapshot, SnapshotPayload.encode, dif_pos small]
  exact ⟨_, rfl⟩

namespace StateMachine

variable {M : Type}

def new [Inhabited M] (scale : Scale) : StateMachine M where
  ledger := .new scale
  lastAppliedLogId := none
  lastMembership := { logId := none, membership := default }
  currentSnapshot := none

/-- Apply one committed entry. -/
def applyEntry (entry : Entry M) (machine : StateMachine M) : Answer × StateMachine M :=
  let machine := { machine with lastAppliedLogId := some entry.logId }
  match entry.payload with
  | .blank => (.ok .blank, machine)
  | .membership membership =>
      (.ok .blank, { machine with lastMembership := { logId := some entry.logId, membership } })
  | .normal request =>
      let (answer, ledger) := applySingleRequest request machine.ledger
      (answer, { machine with ledger })

/-- Apply committed entries in order. -/
def apply : List (Entry M) → StateMachine M → List Answer × StateMachine M
  | [], machine => ([], machine)
  | entry :: rest, machine =>
      let (answer, machine) := applyEntry entry machine
      let (answers, machine) := apply rest machine
      (answer :: answers, machine)

/-- Capture the journal and what has been applied; the time in milliseconds only names the
snapshot.
-/
def getSnapshotBuilder (millis : Nat) (machine : StateMachine M) : LedgerSnapshotBuilder M where
  info :=
    {
      lastLogId := machine.lastAppliedLogId
      lastMembership := machine.lastMembership
      snapshotId :=
        toString ((machine.lastAppliedLogId.map fun logId => logId.index.val).getD 0) ++ "-"
          ++ toString millis
    }
  snapshotPayload := { scale := machine.ledger.scale, journal := machine.ledger.journal }

/-- Rebuild the ledger from a snapshot by replay and take over what it says was applied. -/
def installSnapshot (info : SnapshotMeta M) (data : Bytes) (machine : StateMachine M)
    : Except StorageError Unit × StateMachine M :=
  match SnapshotPayload.decode data with
  | .error detail =>
      (.error (.readSnapshot info.lastLogId info.snapshotId
        ("failed to deserialize snapshot payload: " ++ detail)), machine)
  | .ok payload =>
      match Ledger.replay payload.scale payload.journal with
      | .error err =>
          (.error (.readSnapshot info.lastLogId info.snapshotId
            ("failed to replay snapshot journal: " ++ err.text)), machine)
      | .ok ledger =>
          (.ok (),
            {
              ledger
              lastAppliedLogId := info.lastLogId
              lastMembership := info.lastMembership
              currentSnapshot := some { info, data }
            })

def getCurrentSnapshot (machine : StateMachine M) : Option (Snapshot M) :=
  machine.currentSnapshot

end StateMachine

end TrustLedger.Raft
