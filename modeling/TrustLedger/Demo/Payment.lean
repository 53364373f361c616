import TrustLedger.LedgerCore.Runs

/-! Payment records, their lifecycle, and the ledger accounts behind customers and merchants. -/

namespace TrustLedger.Demo

open Foundation LedgerCore

/-- Lifecycle state of a payment. -/
inductive PaymentState where
  | authorized
  | captured
  | voided
  | refunded
  deriving DecidableEq, Repr

instance : ToString PaymentState where
  toString
    | .authorized => "Authorized"
    | .captured => "Captured"
    | .voided => "Voided"
    | .refunded => "Refunded"

/-- A payment record with the ids of its ledger transfers. -/
structure Payment where
  id : U128
  merchantId : U128
  customerId : U128
  amount : U128
  feeAmount : U128
  state : PaymentState
  pendingTransferId : Option U128
  postedTransferId : Option U128
  settlementBatchSeq : Option U64
  createdAt : U64
  updatedAt : U64
  deriving DecidableEq, Repr

/-- Payment lifecycle failures. -/
inductive PaymentError where
  | invalidStateTransition (paymentId : U128) (start target : PaymentState)
  | ledger (error : LedgerError)
  deriving DecidableEq, Repr

/-- The text an error is displayed as. -/
def PaymentError.text : PaymentError → String
  | .invalidStateTransition paymentId start target =>
      s!"illegal payment transition from \"{start}\" to \"{target}\" for payment {paymentId.val}"
  | .ledger error => "ledger core error: " ++ error.text

namespace Payment

/-- A payment whose funds have just been reserved. -/
def newAuthorized (id merchantId customerId amount feeAmount pendingTransferId : U128)
    (timestamp : U64)
    : Payment :=
  {
    id, merchantId, customerId, amount, feeAmount
    state := .authorized
    pendingTransferId := some pendingTransferId
    postedTransferId := none
    settlementBatchSeq := none
    createdAt := timestamp
    updatedAt := timestamp
  }

/-- Only payments in state `start` move on to `target`. -/
def ensureState (p : Payment) (start target : PaymentState) : Except PaymentError Unit :=
  ensure (p.state = start) (.invalidStateTransition p.id p.state target)

def transitionToCaptured (p : Payment) (postedTransferId : U128) (timestamp : U64)
    : Except PaymentError Payment := do
  p.ensureState .authorized .captured
  return {
    p with
    state := .captured
    postedTransferId := some postedTransferId
    updatedAt := timestamp
  }

def transitionToVoided (p : Payment) (timestamp : U64) : Except PaymentError Payment := do
  p.ensureState .authorized .voided
  return { p with state := .voided, updatedAt := timestamp }

theorem transitionToCaptured_eq_ok {p q : Payment} {postedTransferId : U128} {timestamp : U64}
    : p.transitionToCaptured postedTransferId timestamp = .ok q
      ↔ p.state = .authorized
        ∧ q = {
            p with
            state := .captured
            postedTransferId := some postedTransferId
            updatedAt := timestamp
          } := by
  simp only [transitionToCaptured, ensureState, bind_eq_ok, ensure_eq_ok, exists_const, pure_eq_ok]
  rw [@eq_comm _ q]

theorem transitionToVoided_eq_ok {p q : Payment} {timestamp : U64}
    : p.transitionToVoided timestamp = .ok q
      ↔ p.state = .authorized ∧ q = { p with state := .voided, updatedAt := timestamp } := by
  simp only [transitionToVoided, ensureState, bind_eq_ok, ensure_eq_ok, exists_const, pure_eq_ok]
  rw [@eq_comm _ q]

end Payment

namespace AccountDirectory

/-- Platform fee revenue account. -/
def feeRevenue : AccountId := ⟨999_999⟩

/-- Bank asset vault reserve account. -/
def vaultAsset : AccountId := ⟨100⟩

/-- The account at an offset; a sum past the largest id stops the program. -/
def accountAt (offset id : U128) : Option AccountId :=
  (checkedAdd offset id).map AccountId.mk

/-- The account of a customer. -/
def customer (customerId : U128) : Option AccountId :=
  accountAt 1_000_000 customerId

/-- The account of a merchant. -/
def merchant (merchantId : U128) : Option AccountId :=
  accountAt 2_000_000 merchantId

theorem accountAt_eq_some {offset id : U128} {account : AccountId}
    : accountAt offset id = some account ↔ account.raw.val = offset.val + id.val := by
  cases account with
  | mk raw => simp [accountAt, checkedAdd_eq_some]

/-- How the setup of the application fails. -/
inductive SetupFailure where
  | returned (error : PaymentError)
  | panicked
  deriving DecidableEq, Repr

/-- A call of the ledger during setup. -/
def setupCall {α : Type} (x : LedgerM α) : EStateM SetupFailure Ledger α :=
  EStateM.adaptExcept (fun error => .returned (.ledger error)) x

def openLiability (account : AccountId) (scale : Scale) (timestamp : U64)
    : EStateM SetupFailure Ledger Unit :=
  setupCall (Ledger.createAccount account .liability .customer scale timestamp)

/-- Open a customer's account and fund it from the vault. -/
def setupCustomer (scale : Scale) (initialCustomerDeposit : U128) (timestamp : U64)
    (customerId : U128) (index : Nat)
    : EStateM SetupFailure Ledger Unit := do
  let account ← check (okOr (customer customerId) .panicked)
  openLiability account scale timestamp
  if 0 < initialCustomerDeposit then
    let depositTransfer ←
      setupCall (check (Transfer.newImmediate ⟨Fin.ofNat (2 ^ 128) (10_000 + index)⟩ vaultAsset
        account ⟨initialCustomerDeposit⟩ timestamp))
    setupCall (Ledger.createTransfer depositTransfer)

/-- Open the vault, the fee account and the accounts of the given merchants and customers. -/
def setupAccounts (scale : Scale) (merchants customers : List U128)
    (initialCustomerDeposit : U128) (timestamp : U64)
    : EStateM SetupFailure Ledger Unit := do
  setupCall (Ledger.createAccount vaultAsset .asset .bankAsset scale timestamp)
  setupCall (Ledger.createAccount feeRevenue .revenue .feeRevenue scale timestamp)
  merchants.forM fun merchantId => do
    let account ← check (okOr (merchant merchantId) .panicked)
    openLiability account scale timestamp
  customers.zipIdx.forM fun (customerId, index) =>
    setupCustomer scale initialCustomerDeposit timestamp customerId index

end AccountDirectory

end TrustLedger.Demo
