import TrustLedger.Foundation.Machine
import TrustLedger.Foundation.Fallible

/-! Identifiers, money amounts, transfer states and the ledger's error type. -/

namespace TrustLedger.LedgerCore

open Foundation

/-- Unique account ID, a typed key over `u128`. -/
structure AccountId where
  raw : U128
  deriving DecidableEq, Repr

/-- Unique transfer ID, a typed key over `u128`. -/
structure TransferId where
  raw : U128
  deriving DecidableEq, Repr

instance : Ord AccountId := ⟨compareOn AccountId.raw⟩

instance : Std.TransOrd AccountId :=
  inferInstanceAs (Std.TransCmp (compareOn AccountId.raw))

instance : Std.LawfulEqOrd AccountId where
  eq_of_compare {a b} same := by
    cases a
    cases b
    exact congrArg AccountId.mk (Std.LawfulEqOrd.eq_of_compare same)

instance : Ord TransferId := ⟨compareOn TransferId.raw⟩

instance : Std.TransOrd TransferId :=
  inferInstanceAs (Std.TransCmp (compareOn TransferId.raw))

instance : Std.LawfulEqOrd TransferId where
  eq_of_compare {a b} same := by
    cases a
    cases b
    exact congrArg TransferId.mk (Std.LawfulEqOrd.eq_of_compare same)

/-- Decimal scale factor. Deserialization admits every `u8`, so no upper bound is kept. -/
structure Scale where
  raw : Fin 256
  deriving DecidableEq, Repr

/-- USD Coin: six decimals. -/
def Scale.usdc : Scale :=
  ⟨6⟩

/-- Unsigned money amount in base units. -/
structure Amount where
  units : U128
  deriving DecidableEq, Repr

/-- The amount as an unbounded natural number. -/
def Amount.toNat (a : Amount) : Nat :=
  a.units.val

def Amount.zero : Amount :=
  ⟨0⟩

def Amount.isZero (a : Amount) : Bool :=
  a.units == 0

/-- State of a transfer. -/
inductive TransferState where
  | pending
  | posted
  | voided
  deriving DecidableEq, Repr

/-- Errors returned by the ledger. Variants raised only by parsing, formatting and signed
reporting are left out.
-/
inductive LedgerError where
  | arithmeticOverflow
  | insufficientFunds (accountId : AccountId) (requested available : Amount)
  | accountAlreadyExists (id : AccountId)
  | accountNotFound (id : AccountId)
  | accountClosed (id : AccountId)
  | transferAlreadyExists (id : TransferId)
  | transferNotFound (id : TransferId)
  | invalidTransferState (id : TransferId) (expected actual : TransferState)
  | debitCreditAccountSame (id : AccountId)
  | zeroAmountTransfer (id : TransferId)
  | scaleMismatch (expected actual : Scale)
  | conservationViolation (totalDebits totalCredits : Amount)
  | partialAmountExceedsPending (transferId : TransferId) (requested pending : Amount)
  | timestampBehindPrior (timestamp last : U64)
  | journalVoidedAmountMismatch (pendingId : TransferId) (pending amount : Amount)
  | pendingBalanceMismatch (accountId : AccountId) (balancePending transfersPending : Amount)
  | invalidPendingLink (transferId pendingId : TransferId) (actual : TransferState)
  | pendingLinkMissing (transferId pendingId : TransferId)
  deriving DecidableEq, Repr

instance : ToString AccountId := ⟨fun id => toString id.raw.val⟩
instance : ToString TransferId := ⟨fun id => toString id.raw.val⟩
instance : ToString Amount := ⟨fun amount => toString amount.units.val⟩
instance : ToString Scale := ⟨fun scale => "10^-" ++ toString scale.raw.val⟩

instance : ToString TransferState where
  toString
    | .pending => "Pending"
    | .posted => "Posted"
    | .voided => "Voided"

/-- The text an error is displayed as. -/
def LedgerError.text : LedgerError → String
  | .arithmeticOverflow => "arithmetic overflow encountered during monetary calculation"
  | .insufficientFunds accountId requested available =>
      s!"account {accountId} has insufficient funds: requested {requested}, available {available}"
  | .accountAlreadyExists id => s!"account already exists: {id}"
  | .accountNotFound id => s!"account not found: {id}"
  | .accountClosed id => s!"account {id} is closed"
  | .transferAlreadyExists id => s!"transfer already exists: {id}"
  | .transferNotFound id => s!"transfer not found: {id}"
  | .invalidTransferState id expected actual =>
      s!"transfer {id} is in invalid state: expected {expected}, actual {actual}"
  | .debitCreditAccountSame id => s!"debit and credit accounts must be distinct: {id}"
  | .zeroAmountTransfer id => s!"transfer {id} amount must be greater than zero"
  | .scaleMismatch expected actual => s!"scale mismatch: expected {expected}, actual {actual}"
  | .conservationViolation totalDebits totalCredits =>
      s!"financial conservation violation: total debits {totalDebits} != total credits "
        ++ s!"{totalCredits}"
  | .partialAmountExceedsPending transferId requested pending =>
      s!"posted amount {requested} exceeds pending reservation {pending} for transfer "
        ++ s!"{transferId}"
  | .timestampBehindPrior timestamp last =>
      s!"timestamp {timestamp.val} is behind the prior event timestamp {last.val}"
  | .journalVoidedAmountMismatch pendingId pending amount =>
      s!"journal corruption: voided amount {amount} does not match pending reservation {pending} "
        ++ s!"for transfer {pendingId}"
  | .pendingBalanceMismatch accountId balancePending transfersPending =>
      s!"account {accountId} pending balance {balancePending} does not match pending transfers "
        ++ s!"{transfersPending}"
  | .invalidPendingLink transferId pendingId actual =>
      s!"transfer {transferId} references pending hold {pendingId} in state {actual}, which cannot "
        ++ "back the reference"
  | .pendingLinkMissing transferId pendingId =>
      s!"transfer {transferId} references missing pending hold {pendingId}"

/-- Add two amounts, returning an error on overflow. -/
def Amount.checkedAdd (a b : Amount) : Except LedgerError Amount :=
  okOr ((Foundation.checkedAdd a.units b.units).map Amount.mk) .arithmeticOverflow

/-- Subtract two amounts, returning an error on underflow. -/
def Amount.checkedSub (a b : Amount) : Except LedgerError Amount :=
  okOr ((Foundation.checkedSub a.units b.units).map Amount.mk) .arithmeticOverflow

@[simp] theorem Amount.zero_toNat : Amount.zero.toNat = 0 :=
  rfl

theorem Amount.toNat_lt (a : Amount) : a.toNat < 2 ^ 128 :=
  a.units.isLt

theorem Amount.toNat_inj {a b : Amount} : a.toNat = b.toNat ↔ a = b := by
  cases a
  cases b
  simp [Amount.toNat, Fin.ext_iff]

@[simp] theorem Amount.isZero_eq_false {a : Amount} : a.isZero = false ↔ 0 < a.toNat := by
  simp only [Amount.isZero, beq_eq_false_iff_ne, ne_eq, Fin.ext_iff, Fin.val_zero,
    Amount.toNat]
  omega

@[simp] theorem Amount.checkedAdd_eq_ok {a b c : Amount}
    : a.checkedAdd b = .ok c ↔ c.toNat = a.toNat + b.toNat := by
  cases c
  simp [Amount.checkedAdd, Amount.toNat, checkedAdd_eq_some]

theorem Amount.checkedAdd_eq_error {a b : Amount} {e : LedgerError}
    : a.checkedAdd b = .error e ↔ 2 ^ 128 ≤ a.toNat + b.toNat ∧ e = .arithmeticOverflow := by
  have fits : Foundation.checkedAdd a.units b.units = none ↔ 2 ^ 128 ≤ a.toNat + b.toNat := by
    simp [Foundation.checkedAdd, Amount.toNat]
  rw [Amount.checkedAdd, okOr_eq_error, Option.map_eq_none_iff, fits, @eq_comm _ e]

@[simp] theorem Amount.checkedSub_eq_ok {a b c : Amount}
    : a.checkedSub b = .ok c ↔ c.toNat + b.toNat = a.toNat := by
  cases c
  simp [Amount.checkedSub, Amount.toNat, checkedSub_eq_some]

end TrustLedger.LedgerCore
