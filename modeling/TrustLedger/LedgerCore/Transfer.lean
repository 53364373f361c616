import TrustLedger.LedgerCore.Account

/-! Transfers, the journal events that record them, and the operations of a batch. -/

namespace TrustLedger.LedgerCore

open Foundation

/-- A transfer between two accounts. Every combination of fields is a value of this type,
since a transfer can also arrive by deserialization.
-/
structure Transfer where
  id : TransferId
  debitAccountId : AccountId
  creditAccountId : AccountId
  amount : Amount
  state : TransferState
  pendingId : Option TransferId
  timestamp : U64
  deriving DecidableEq, Repr

def Transfer.validateInvariants (id : TransferId) (debitAccountId creditAccountId : AccountId)
    (amount : Amount)
    : Except LedgerError Unit := do
  ensure (debitAccountId ≠ creditAccountId) (.debitCreditAccountSame debitAccountId)
  ensure (amount.isZero = false) (.zeroAmountTransfer id)

/-- The constructors' shared body: validate the accounts and amount, then fill the record. -/
def Transfer.validated (id : TransferId) (debitAccountId creditAccountId : AccountId)
    (amount : Amount) (state : TransferState) (pendingId : Option TransferId) (timestamp : U64)
    : Except LedgerError Transfer := do
  Transfer.validateInvariants id debitAccountId creditAccountId amount
  return { id, debitAccountId, creditAccountId, amount, state, pendingId, timestamp }

/-- Create a transfer that settles immediately. -/
def Transfer.newImmediate (id : TransferId) (debitAccountId creditAccountId : AccountId)
    (amount : Amount) (timestamp : U64)
    : Except LedgerError Transfer :=
  Transfer.validated id debitAccountId creditAccountId amount .posted none timestamp

/-- Create a pending transfer that holds funds. -/
def Transfer.newPending (id : TransferId) (debitAccountId creditAccountId : AccountId)
    (amount : Amount) (timestamp : U64)
    : Except LedgerError Transfer :=
  Transfer.validated id debitAccountId creditAccountId amount .pending none timestamp

/-- Create a posted transfer that settles a pending hold. -/
def Transfer.newSettlement (id : TransferId) (debitAccountId creditAccountId : AccountId)
    (amount : Amount) (pendingId : TransferId) (timestamp : U64)
    : Except LedgerError Transfer :=
  Transfer.validated id debitAccountId creditAccountId amount .posted (some pendingId) timestamp

/-- A fresh hold is a link target, so it cannot itself carry a hold link. -/
def Transfer.validateShape (t : Transfer) : Except LedgerError Unit :=
  match t.state, t.pendingId with
  -- a voided transfer with a link passes here; the mutators refuse its state before
  | .pending, some pendingId => .error (.invalidPendingLink t.id pendingId .pending)
  | _, _ => .ok ()

/-- Advance this transfer to `target`; only `pending` can move on. -/
def Transfer.transitionTo (t : Transfer) (target : TransferState) : Except LedgerError Transfer :=
  match t.state, target with
  | .pending, .posted | .pending, .voided => .ok { t with state := target }
  | _, _ => .error (.invalidTransferState t.id .pending t.state)

/-- Restore a state captured by the ledger's undo log. -/
def Transfer.restoreState (t : Transfer) (state : TransferState) : Transfer :=
  { t with state }

/-- An event recorded in the ledger journal. -/
inductive LedgerEvent where
  | accountCreated (id : AccountId) (accountType : AccountType) (flags : AccountFlags)
    (scale : Scale) (timestamp : U64)
  | accountClosed (id : AccountId) (timestamp : U64)
  | transferPosted (transfer : Transfer)
  | transferPendingCreated (transfer : Transfer)
  | transferPendingPosted (pendingId postTransferId : TransferId) (amount : Amount)
    (timestamp : U64)
  | transferPendingVoided (pendingId : TransferId) (amount : Amount) (timestamp : U64)
  deriving DecidableEq, Repr

/-- An operation in a multi-operation batch submitted to the ledger engine. -/
inductive BatchOp where
  | createAccount (id : AccountId) (accountType : AccountType) (flags : AccountFlags)
    (scale : Scale) (timestamp : U64)
  | transfer (transfer : Transfer)
  | pending (transfer : Transfer)
  | postPending (pendingId postTransferId : TransferId) (amount : Amount) (timestamp : U64)
  | voidPending (pendingId : TransferId) (timestamp : U64)
  | closeAccount (id : AccountId) (timestamp : U64)
  deriving DecidableEq, Repr

/-- A constructor succeeds exactly on distinct accounts and a positive amount. -/
theorem Transfer.validated_eq_ok {id : TransferId} {debit credit : AccountId} {amount : Amount}
    {state : TransferState} {pendingId : Option TransferId} {timestamp : U64} {t : Transfer}
    : Transfer.validated id debit credit amount state pendingId timestamp = .ok t
      ↔ debit ≠ credit
        ∧ 0 < amount.toNat
        ∧ t = ⟨id, debit, credit, amount, state, pendingId, timestamp⟩ := by
  simp only [Transfer.validated, Transfer.validateInvariants, bind_eq_ok, ensure_eq_ok,
    exists_const, Amount.isZero_eq_false, pure_eq_ok, and_assoc]
  rw [@eq_comm _ t]

theorem Transfer.validateShape_eq_ok {t : Transfer} {u : Unit}
    : t.validateShape = .ok u ↔ (t.state = .pending → t.pendingId = none) := by
  unfold Transfer.validateShape
  cases t.state <;> cases t.pendingId <;> simp

theorem Transfer.transitionTo_pending {t : Transfer} (target : TransferState)
    (pending : t.state = .pending) (moves : target ≠ .pending)
    : t.transitionTo target = .ok { t with state := target } := by
  cases target <;> simp_all [Transfer.transitionTo]

end TrustLedger.LedgerCore
