import TrustLedger.LedgerCore.Ledger

/-! Commands of the ingress queue, and their conversion into ledger operations under a
timestamp watermark.
-/

namespace TrustLedger.Ingest

open Foundation LedgerCore

/-- Errors produced during micro-batch execution. Variants raised only by the queue and the
server in front of the engine are left out.
-/
inductive IngestError where
  | ledger (err : LedgerError)
  | wal (text : String)
  | codec (text : String)
  deriving DecidableEq, Repr

/-- Target entity referenced by a mutation operation. -/
inductive TargetEntity where
  | account (id : AccountId)
  | transfer (id : TransferId)
  deriving DecidableEq, Repr

/-- A single ledger mutation operation. Timestamp zero asks the engine to choose one. -/
inductive IngestOp where
  | createAccount (id : AccountId) (accountType : AccountType) (flags : AccountFlags)
    (scale : Scale) (timestamp : U64)
  | createTransfer (id : TransferId) (debitAccountId creditAccountId : AccountId)
    (amount : Amount) (timestamp : U64)
  | createPending (id : TransferId) (debitAccountId creditAccountId : AccountId)
    (amount : Amount) (timestamp : U64)
  | postPending (pendingId postTransferId : TransferId) (amount : Amount) (timestamp : U64)
  | voidPending (pendingId : TransferId) (timestamp : U64)
  deriving DecidableEq, Repr

namespace IngestOp

/-- The entity affected by an operation. -/
def target : IngestOp → TargetEntity
  | .createAccount id .. => .account id
  | .createTransfer id .. | .createPending id .. => .transfer id
  | .postPending _ postTransferId .. => .transfer postTransferId
  | .voidPending pendingId _ => .transfer pendingId

def timestamp : IngestOp → U64
  | .createAccount _ _ _ _ timestamp
  | .createTransfer _ _ _ _ timestamp
  | .createPending _ _ _ _ timestamp
  | .postPending _ _ _ timestamp
  | .voidPending _ timestamp => timestamp

/-- The ledger operation at an allocated timestamp; new transfers are validated. -/
def build : IngestOp → U64 → Except LedgerError BatchOp
  | .createAccount id accountType flags scale _, ts =>
      .ok (.createAccount id accountType flags scale ts)
  | .createTransfer id debitAccountId creditAccountId amount _, ts =>
      (Transfer.newImmediate id debitAccountId creditAccountId amount ts).map .transfer
  | .createPending id debitAccountId creditAccountId amount _, ts =>
      (Transfer.newPending id debitAccountId creditAccountId amount ts).map .pending
  | .postPending pendingId postTransferId amount _, ts =>
      .ok (.postPending pendingId postTransferId amount ts)
  | .voidPending pendingId _, ts => .ok (.voidPending pendingId ts)

end IngestOp

/-- The timestamp for a request and the watermark after it. `now` is the clock reading, in
nanoseconds since the epoch.
-/
def allocateTimestamp (requested now watermark : U64) : U64 × U64 :=
  if requested = 0 then
    -- at the largest value the next timestamp repeats the watermark
    let ts := max now (saturatingAdd watermark 1)
    (ts, ts)
  else
    (requested, max watermark requested)

/-- An operation with the clock reading that is made if it asks for a timestamp. -/
structure TimedOp where
  op : IngestOp
  now : U64
  deriving DecidableEq, Repr

/-- A conversion moves the timestamp watermark, also when it fails. -/
abbrev WatermarkM := EStateM IngestError U64

/-- Convert an ingress operation into a ledger operation. Every case first allocates the
timestamp, so an operation that fails validation has moved the watermark.
-/
def TimedOp.intoBatchOp (timed : TimedOp) : WatermarkM BatchOp := fun watermark =>
  let (ts, watermark) := allocateTimestamp timed.op.timestamp timed.now watermark
  match timed.op.build ts with
  | .ok op => .ok op watermark
  | .error err => .error (.ledger err) watermark

/-- Convert the operations of an atomic batch, up to the first that fails. -/
def intoBatchOps : List TimedOp → WatermarkM (List BatchOp)
  | [] => return []
  | timed :: rest => do
      let op ← timed.intoBatchOp
      let ops ← intoBatchOps rest
      return op :: ops

/-- The result of a successful single mutation. -/
inductive MutationResult where
  | account (account : Account)
  | transfer (transfer : Transfer)
  deriving DecidableEq, Repr

/-- The reply channel of a command, known by its identity. -/
structure Sender where
  id : Nat
  deriving DecidableEq, Repr

/-- Command dispatched from the ingress server to the single-writer engine. -/
inductive IngestCommand where
  | mutate (op : TimedOp) (respondTo : Sender)
  | applyBatch (ops : List TimedOp) (respondTo : Sender)
  | getAccount (id : AccountId) (respondTo : Sender)
  | getTransfer (id : TransferId) (respondTo : Sender)
  deriving DecidableEq, Repr

def IngestCommand.respondTo : IngestCommand → Sender
  | .mutate _ respondTo
  | .applyBatch _ respondTo
  | .getAccount _ respondTo
  | .getTransfer _ respondTo => respondTo

/-- A caller-chosen timestamp is kept, whatever the watermark and the clock are. -/
theorem allocateTimestamp_requested {requested : U64} (chosen : requested ≠ 0) (now watermark : U64)
    : allocateTimestamp requested now watermark = (requested, max watermark requested) := by
  simp only [allocateTimestamp, if_neg chosen]

theorem le_allocateTimestamp (requested now watermark : U64)
    : watermark ≤ (allocateTimestamp requested now watermark).2 := by
  unfold allocateTimestamp
  split
  · have next : watermark ≤ saturatingAdd watermark 1 := by
      rw [Fin.le_def, saturatingAdd_val]
      have bound := watermark.isLt
      omega
    exact next.trans (le_max_right _ _)
  · exact le_max_left _ _

/-- A zero timestamp is resolved to the clock, or to the next value above the watermark. -/
theorem allocateTimestamp_zero (now watermark : U64)
    : allocateTimestamp 0 now watermark
      = (max now (saturatingAdd watermark 1), max now (saturatingAdd watermark 1)) := by
  simp only [allocateTimestamp, if_pos]

/-- The operation a build gives once it has passed validation. -/
def IngestOp.built : IngestOp → U64 → BatchOp
  | .createAccount id accountType flags scale _, ts =>
      .createAccount id accountType flags scale ts
  | .createTransfer id debitAccountId creditAccountId amount _, ts =>
      .transfer ⟨id, debitAccountId, creditAccountId, amount, .posted, none, ts⟩
  | .createPending id debitAccountId creditAccountId amount _, ts =>
      .pending ⟨id, debitAccountId, creditAccountId, amount, .pending, none, ts⟩
  | .postPending pendingId postTransferId amount _, ts =>
      .postPending pendingId postTransferId amount ts
  | .voidPending pendingId _, ts => .voidPending pendingId ts

theorem IngestOp.build_ok {op : IngestOp} {ts : U64} {built : BatchOp}
    (builds : op.build ts = .ok built)
    : built = op.built ts := by
  cases op with
  | createTransfer id debit credit amount =>
      obtain ⟨t, validated, rfl⟩ := map_eq_ok.mp builds
      obtain ⟨-, -, rfl⟩ := Transfer.validated_eq_ok.mp validated
      rfl
  | createPending id debit credit amount =>
      obtain ⟨t, validated, rfl⟩ := map_eq_ok.mp builds
      obtain ⟨-, -, rfl⟩ := Transfer.validated_eq_ok.mp validated
      rfl
  | _ =>
      cases builds
      rfl

theorem TimedOp.intoBatchOp_ok {timed : TimedOp} {built : BatchOp} {watermark next : U64}
    (converted : timed.intoBatchOp watermark = .ok built next)
    : ∃ ts, timed.op.build ts = .ok built := by
  unfold TimedOp.intoBatchOp at converted
  simp only at converted
  split at converted
  · rename_i builds
    cases converted
    exact ⟨_, builds⟩
  · cases converted

end TrustLedger.Ingest
