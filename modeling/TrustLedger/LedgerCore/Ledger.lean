import TrustLedger.LedgerCore.Transfer

/-! In-memory double-entry ledger: its state and the six elementary mutators.
Each mutator runs its read-only checks first and then writes field by field. A failing write
would keep the writes before it: the state of a failed run is whatever was reached. The model
is that of a release build, without the invariant check that debug builds run after each call.
-/

namespace TrustLedger.LedgerCore

open Foundation

/-- In-memory ledger holding accounts, transfers, and the event journal. -/
structure Ledger where
  scale : Scale
  accounts : Std.ExtTreeMap AccountId Account
  transfers : Std.ExtTreeMap TransferId Transfer
  journal : List LedgerEvent
  lastTimestamp : U64
  deriving DecidableEq

/-- A mutator: its error keeps the state reached so far. -/
abbrev LedgerM := EStateM LedgerError Ledger

namespace Ledger

/-- An empty ledger with the given decimal scale. -/
def new (scale : Scale) : Ledger :=
  { scale, accounts := ∅, transfers := ∅, journal := [], lastTimestamp := 0 }

def getAccount (l : Ledger) (id : AccountId) : Except LedgerError Account :=
  okOr l.accounts[id]? (.accountNotFound id)

def getTransfer (l : Ledger) (id : TransferId) : Except LedgerError Transfer :=
  okOr l.transfers[id]? (.transferNotFound id)

/-- Reject timestamps behind the previous recorded event; equal timestamps are allowed. -/
def checkTimestamp (l : Ledger) (timestamp : U64) : Except LedgerError Unit :=
  ensure (¬ timestamp < l.lastTimestamp) (.timestampBehindPrior timestamp l.lastTimestamp)

/-- Identity and shape of a new transfer: ID unused, accounts distinct, amount non-zero, and
the pending-link shape valid.
-/
def validateNewTransfer (l : Ledger) (t : Transfer) : Except LedgerError Unit := do
  ensure (l.transfers[t.id]?.isNone) (.transferAlreadyExists t.id)
  ensure (t.debitAccountId ≠ t.creditAccountId) (.debitCreditAccountSame t.debitAccountId)
  ensure (t.amount.isZero = false) (.zeroAmountTransfer t.id)
  t.validateShape

/-- A transfer that names a `pendingId` needs that hold to exist and be posted. -/
def validatePendingLink (l : Ledger) (t : Transfer) : Except LedgerError Unit :=
  match t.pendingId with
  | none => .ok ()
  | some pendingId => do
      let hold ← okOr l.transfers[pendingId]? (.pendingLinkMissing t.id pendingId)
      ensure (hold.state = .posted) (.invalidPendingLink t.id pendingId hold.state)

/-- Write part of an account's balance in place; the account must exist. -/
def updateBalance (id : AccountId) (f : Balance → Balance) : LedgerM Unit := do
  let _ ← check ((← get).getAccount id)
  modify fun l =>
    { l with accounts := l.accounts.modify id fun a => { a with balance := f a.balance } }

/-- Move a stored transfer along its lifecycle; the transfer must exist. -/
def transitionTransfer (id : TransferId) (target : TransferState) : LedgerM Unit := do
  let t ← check ((← get).getTransfer id)
  let moved ← check (t.transitionTo target)
  modify fun l => { l with transfers := l.transfers.modify id fun _ => moved }

/-- Advance the watermark after a timestamp has passed `checkTimestamp`. -/
def advanceTimestamp (timestamp : U64) : LedgerM Unit :=
  modify fun l => { l with lastTimestamp := max l.lastTimestamp timestamp }

def insertTransfer (t : Transfer) : LedgerM Unit :=
  modify fun l => { l with transfers := l.transfers.insert t.id t }

def pushEvent (event : LedgerEvent) : LedgerM Unit :=
  modify fun l => { l with journal := l.journal ++ [event] }

/-- Read-only checks of `createAccount`. -/
def admitAccount (l : Ledger) (id : AccountId) (scale : Scale) (timestamp : U64)
    : Except LedgerError Unit := do
  l.checkTimestamp timestamp
  ensure (l.accounts[id]?.isNone) (.accountAlreadyExists id)
  ensure (scale = l.scale) (.scaleMismatch l.scale scale)

/-- Create a new account with zero balance. -/
def createAccount (id : AccountId) (accountType : AccountType) (flags : AccountFlags)
    (scale : Scale) (timestamp : U64)
    : LedgerM Unit := do
  check ((← get).admitAccount id scale timestamp)
  modify fun l =>
    { l with accounts := l.accounts.insert id (.new id accountType flags scale) }
  advanceTimestamp timestamp
  pushEvent (.accountCreated id accountType flags scale timestamp)

/-- Read-only checks of `closeAccount`. -/
def admitClosure (l : Ledger) (id : AccountId) (timestamp : U64)
    : Except LedgerError Unit := do
  l.checkTimestamp timestamp
  let account ← l.getAccount id
  ensure (account.flags.isClosed = false) (.accountClosed id)

/-- Close an account. Closed accounts reject all new transfers. -/
def closeAccount (id : AccountId) (timestamp : U64) : LedgerM Unit := do
  check ((← get).admitClosure id timestamp)
  modify fun l =>
    { l with
      accounts := l.accounts.modify id fun a =>
        { a with flags := { a.flags with isClosed := true } } }
  advanceTimestamp timestamp
  pushEvent (.accountClosed id timestamp)

/-- Both legs of a new transfer, against the balance components it will raise. Returns the
new value of the debit component and of the credit component.
-/
def admitLegs (l : Ledger) (t : Transfer) (debits credits : Balance → Amount)
    : Except LedgerError (Amount × Amount) := do
  let debitAcc ← l.getAccount t.debitAccountId
  debitAcc.ensureCanDebit t.amount
  let newDebits ← (debits debitAcc.balance).checkedAdd t.amount
  let creditAcc ← l.getAccount t.creditAccountId
  creditAcc.ensureCanCredit t.amount
  let newCredits ← (credits creditAcc.balance).checkedAdd t.amount
  return (newDebits, newCredits)

/-- Read-only checks of `createTransfer`. -/
def admitTransfer (l : Ledger) (t : Transfer) : Except LedgerError (Amount × Amount) := do
  l.checkTimestamp t.timestamp
  ensure (t.state = .posted) (.invalidTransferState t.id .posted t.state)
  l.validateNewTransfer t
  l.validatePendingLink t
  l.admitLegs t Balance.debitsPosted Balance.creditsPosted

/-- Create and immediately settle a transfer between two accounts. -/
def createTransfer (t : Transfer) : LedgerM Unit := do
  let (newDebitsPosted, newCreditsPosted) ← check ((← get).admitTransfer t)
  -- both sums were taken before the first write; the two accounts are known to differ
  updateBalance t.debitAccountId fun b => { b with debitsPosted := newDebitsPosted }
  updateBalance t.creditAccountId fun b => { b with creditsPosted := newCreditsPosted }
  advanceTimestamp t.timestamp
  insertTransfer t
  pushEvent (.transferPosted t)

/-- Read-only checks of `createPending`; unlike a posted transfer, a hold has no link to
validate.
-/
def admitPending (l : Ledger) (t : Transfer) : Except LedgerError (Amount × Amount) := do
  l.checkTimestamp t.timestamp
  ensure (t.state = .pending) (.invalidTransferState t.id .pending t.state)
  l.validateNewTransfer t
  l.admitLegs t Balance.debitsPending Balance.creditsPending

/-- Create a pending transfer that holds funds without settling yet. -/
def createPending (t : Transfer) : LedgerM Unit := do
  let (newDebitsPending, newCreditsPending) ← check ((← get).admitPending t)
  updateBalance t.debitAccountId fun b => { b with debitsPending := newDebitsPending }
  updateBalance t.creditAccountId fun b => { b with creditsPending := newCreditsPending }
  advanceTimestamp t.timestamp
  insertTransfer t
  pushEvent (.transferPendingCreated t)

/-- The hold named by `pendingId`, provided it is still pending. -/
def pendingHold (l : Ledger) (pendingId : TransferId) : Except LedgerError Transfer := do
  let hold ← l.getTransfer pendingId
  ensure (hold.state = .pending) (.invalidTransferState pendingId .pending hold.state)
  return hold

/-- The values `postPending` writes once all its checks have passed. -/
structure PostPlan where
  hold : Transfer
  debitsPending : Amount
  debitsPosted : Amount
  creditsPending : Amount
  creditsPosted : Amount
  settlement : Transfer

/-- Read-only checks of `postPending`. -/
def admitPost (l : Ledger) (pendingId postTransferId : TransferId) (amount : Amount)
    (timestamp : U64)
    : Except LedgerError PostPlan := do
  l.checkTimestamp timestamp
  ensure (l.transfers[postTransferId]?.isNone) (.transferAlreadyExists postTransferId)
  let hold ← l.pendingHold pendingId
  ensure (¬ hold.amount.units < amount.units)
    (.partialAmountExceedsPending pendingId amount hold.amount)
  ensure (amount.isZero = false) (.zeroAmountTransfer postTransferId)
  -- neither closure nor limits are checked again: the funds were reserved by the hold
  let debitAccount ← l.getAccount hold.debitAccountId
  let debitsPending ← debitAccount.balance.debitsPending.checkedSub hold.amount
  let debitsPosted ← debitAccount.balance.debitsPosted.checkedAdd amount
  let creditAccount ← l.getAccount hold.creditAccountId
  let creditsPending ← creditAccount.balance.creditsPending.checkedSub hold.amount
  let creditsPosted ← creditAccount.balance.creditsPosted.checkedAdd amount
  let settlement ← Transfer.newSettlement postTransferId hold.debitAccountId
    hold.creditAccountId amount pendingId timestamp
  return { hold, debitsPending, debitsPosted, creditsPending, creditsPosted, settlement }

/-- Post a pending transfer. If amount is less than the hold, the rest is released. -/
def postPending (pendingId postTransferId : TransferId) (amount : Amount) (timestamp : U64)
    : LedgerM Unit := do
  let plan ← check ((← get).admitPost pendingId postTransferId amount timestamp)
  updateBalance plan.hold.debitAccountId fun b =>
    { b with debitsPending := plan.debitsPending, debitsPosted := plan.debitsPosted }
  updateBalance plan.hold.creditAccountId fun b =>
    { b with creditsPending := plan.creditsPending, creditsPosted := plan.creditsPosted }
  transitionTransfer pendingId .posted
  advanceTimestamp timestamp
  insertTransfer plan.settlement
  pushEvent (.transferPendingPosted pendingId postTransferId amount timestamp)

/-- Read-only checks of `voidPending`. Returns the hold and both released components. -/
def admitVoid (l : Ledger) (pendingId : TransferId) (timestamp : U64)
    : Except LedgerError (Transfer × Amount × Amount) := do
  l.checkTimestamp timestamp
  let hold ← l.pendingHold pendingId
  let debitAccount ← l.getAccount hold.debitAccountId
  let debitsPending ← debitAccount.balance.debitsPending.checkedSub hold.amount
  let creditAccount ← l.getAccount hold.creditAccountId
  let creditsPending ← creditAccount.balance.creditsPending.checkedSub hold.amount
  return (hold, debitsPending, creditsPending)

/-- Cancel a pending transfer and release the held funds. -/
def voidPending (pendingId : TransferId) (timestamp : U64) : LedgerM Unit := do
  let (hold, debitsPending, creditsPending) ← check ((← get).admitVoid pendingId timestamp)
  updateBalance hold.debitAccountId fun b => { b with debitsPending }
  updateBalance hold.creditAccountId fun b => { b with creditsPending }
  transitionTransfer pendingId .voided
  advanceTimestamp timestamp
  pushEvent (.transferPendingVoided pendingId hold.amount timestamp)

/-- A void event must name the amount its hold reserved. -/
def admitVoidedAmount (l : Ledger) (pendingId : TransferId) (amount : Amount)
    : Except LedgerError Unit := do
  let hold ← l.getTransfer pendingId
  ensure (hold.amount = amount) (.journalVoidedAmountMismatch pendingId hold.amount amount)

/-- Apply one journal event against the live ledger, re-validating it. -/
def applyEvent : LedgerEvent → LedgerM Unit
  | .accountCreated id accountType flags scale timestamp =>
      createAccount id accountType flags scale timestamp
  | .accountClosed id timestamp => closeAccount id timestamp
  | .transferPosted t => createTransfer t
  | .transferPendingCreated t => createPending t
  | .transferPendingPosted pendingId postTransferId amount timestamp =>
      postPending pendingId postTransferId amount timestamp
  | .transferPendingVoided pendingId amount timestamp => do
      -- the mutator takes no amount, so the recorded one is compared here
      check ((← get).admitVoidedAmount pendingId amount)
      voidPending pendingId timestamp

/-- Apply one batch operation against live ledger state. -/
def applyBatchOp : BatchOp → LedgerM Unit
  | .createAccount id accountType flags scale timestamp =>
      createAccount id accountType flags scale timestamp
  | .transfer t => createTransfer t
  | .pending t => createPending t
  | .postPending pendingId postTransferId amount timestamp =>
      postPending pendingId postTransferId amount timestamp
  | .voidPending pendingId timestamp => voidPending pendingId timestamp
  | .closeAccount id timestamp => closeAccount id timestamp

end Ledger

end TrustLedger.LedgerCore
