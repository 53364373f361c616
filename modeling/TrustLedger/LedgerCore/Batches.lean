import TrustLedger.LedgerCore.Ledger
import TrustLedger.Foundation.Speculation

/-! Batches over the ledger: pre-images, rollback, speculative preparation, the commit of
prepared events, and replay.
-/

namespace TrustLedger.LedgerCore

open Foundation

/-- A pre-image of one side effect, recorded before its event applies. -/
inductive UndoOp where
  | removeAccount (id : AccountId)
  | accountFlagsBefore (id : AccountId) (flags : AccountFlags)
  | accountBalanceBefore (id : AccountId) (balance : Balance)
  | removeTransfer (id : TransferId)
  | transferStateBefore (id : TransferId) (state : TransferState)
  deriving DecidableEq, Repr

/-- What a rollback restores besides the pre-images. -/
structure Mark where
  journalLen : Nat
  timestamp : U64
  deriving DecidableEq, Repr

namespace Ledger

/-- Revert one pre-image. A missing entry is left as it is. -/
def revert (op : UndoOp) (l : Ledger) : Ledger :=
  match op with
  | .removeAccount id => { l with accounts := l.accounts.erase id }
  | .accountFlagsBefore id flags =>
      { l with accounts := l.accounts.modify id fun a => { a with flags } }
  | .accountBalanceBefore id balance =>
      { l with accounts := l.accounts.modify id fun a => { a with balance } }
  | .removeTransfer id => { l with transfers := l.transfers.erase id }
  | .transferStateBefore id state =>
      { l with transfers := l.transfers.modify id fun t => t.restoreState state }

/-- Revert every recorded pre-image in reverse order, then restore the journal length and
timestamp watermark captured before the batch.
-/
def rollback (undo : List UndoOp) (base : Mark) (l : Ledger) : Ledger :=
  let reverted := undo.foldr revert l
  { reverted with
    journal := reverted.journal.take base.journalLen
    lastTimestamp := base.timestamp }

/-- The journal length and watermark a batch starts from. -/
def mark (l : Ledger) : Mark :=
  ⟨l.journal.length, l.lastTimestamp⟩

/-- The account's balances as a pre-image. -/
def balanceBefore (l : Ledger) (id : AccountId) : Except LedgerError UndoOp := do
  let account ← l.getAccount id
  return .accountBalanceBefore id account.balance

def legPreImages (l : Ledger) (t : Transfer) : Except LedgerError (List UndoOp) := do
  let debit ← l.balanceBefore t.debitAccountId
  let credit ← l.balanceBefore t.creditAccountId
  return [debit, credit]

/-- Pre-images of an account closure. -/
def closurePreImages (l : Ledger) (id : AccountId) : Except LedgerError (List UndoOp) := do
  let account ← l.getAccount id
  return [.accountFlagsBefore id account.flags]

/-- Pre-images of storing a new transfer, posted or pending. -/
def transferPreImages (l : Ledger) (t : Transfer) : Except LedgerError (List UndoOp) := do
  let legs ← l.legPreImages t
  return legs ++ [.removeTransfer t.id]

/-- Pre-images of releasing a hold: both balances and the hold's state. -/
def releasePreImages (l : Ledger) (pendingId : TransferId)
    : Except LedgerError (List UndoOp) := do
  let hold ← l.getTransfer pendingId
  let legs ← l.legPreImages hold
  return legs ++ [.transferStateBefore pendingId hold.state]

/-- Pre-images of posting a hold: its release and the new settlement. -/
def postPreImages (l : Ledger) (pendingId postTransferId : TransferId)
    : Except LedgerError (List UndoOp) := do
  let released ← l.releasePreImages pendingId
  return released ++ [.removeTransfer postTransferId]

/-- Capture the pre-images of every side effect `event` will make. -/
def preImages (event : LedgerEvent) (l : Ledger) : Except LedgerError (List UndoOp) :=
  match event with
  | .accountCreated id .. => .ok [.removeAccount id]
  | .accountClosed id _ => l.closurePreImages id
  | .transferPosted t => l.transferPreImages t
  | .transferPendingCreated t => l.transferPreImages t
  | .transferPendingPosted pendingId postTransferId .. =>
      l.postPreImages pendingId postTransferId
  | .transferPendingVoided pendingId .. => l.releasePreImages pendingId

/-- Capture the pre-images of every side effect `op` will make. Unlike an event, an account
creation is already refused here when the account exists.
-/
def opPreImages (op : BatchOp) (l : Ledger) : Except LedgerError (List UndoOp) :=
  match op with
  | .createAccount id .. => do
      ensure (l.accounts[id]?.isNone) (.accountAlreadyExists id)
      return [.removeAccount id]
  | .closeAccount id _ => l.closurePreImages id
  | .transfer t => l.transferPreImages t
  | .pending t => l.transferPreImages t
  | .postPending pendingId postTransferId .. => l.postPreImages pendingId postTransferId
  | .voidPending pendingId _ => l.releasePreImages pendingId

/-- Journal events as operations with an undo log. -/
def eventLog : UndoLog Ledger UndoOp Mark LedgerEvent LedgerError (List LedgerEvent) where
  exec := applyEvent
  capture := preImages
  mark := mark
  rollback := rollback
  produced base l := l.journal.drop base.journalLen

/-- Batch operations with an undo log. -/
def opLog : UndoLog Ledger UndoOp Mark BatchOp LedgerError (List LedgerEvent) where
  exec := applyBatchOp
  capture := opPreImages
  mark := mark
  rollback := rollback
  produced base l := l.journal.drop base.journalLen

/-- Apply each event, recording its pre-images; the first failure rolls all of them back. -/
def applyWithUndo (events : List LedgerEvent) (base : Mark) : LedgerM (List UndoOp) :=
  eventLog.runWithUndo base events []

/-- Apply a batch of posted transfers atomically in sequence. -/
def applyBatch (transfers : List Transfer) : LedgerM Unit := do
  let base := (← get).mark
  let _ ← applyWithUndo (transfers.map .transferPosted) base

/-- Apply a batch of journal events atomically, re-validating each. -/
def commitEvents (events : List LedgerEvent) : LedgerM Unit := do
  let base := (← get).mark
  let _ ← applyWithUndo events base

/-- Speculatively validate a batch of operations and return the emitted events; the state is
rolled back either way.
-/
def prepareBatch (ops : List BatchOp) : LedgerM (List LedgerEvent) := do
  let base := (← get).mark
  let undo ← opLog.runWithUndo base ops []
  let produced := opLog.produced base (← get)
  modify (rollback undo base)
  return produced

/-- Speculatively prepare atomic multi-operation transactions; the state is rolled back before
returning.
-/
def prepareTransactions (txs : List (List BatchOp)) (l : Ledger)
    : List (Except LedgerError (List LedgerEvent)) × Ledger :=
  let ((results, allUndo), reached) := opLog.runTransactions txs [] l
  (results, rollback allUndo l.mark reached)

/-- Prepare operations individually: one single-operation transaction each. -/
def prepareBatchResults (ops : List BatchOp) (l : Ledger)
    : List (Except LedgerError (List LedgerEvent)) × Ledger :=
  prepareTransactions (ops.map fun op => [op]) l

/-- `prepareBatch` for immediate transfers. -/
def prepareTransfers (transfers : List Transfer) : LedgerM (List LedgerEvent) :=
  prepareBatch (transfers.map .transfer)

/-- Rebuild ledger state by replaying a list of journal events. -/
def replay (scale : Scale) (events : List LedgerEvent) : Except LedgerError Ledger :=
  match (events.forM applyEvent : LedgerM Unit) (.new scale) with
  | .ok _ l => .ok l
  | .error err _ => .error err

end Ledger

end TrustLedger.LedgerCore
