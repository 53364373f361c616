import TrustLedger.LedgerCore.Primitives

/-! Accounts, balance limits, and balances. -/

namespace TrustLedger.LedgerCore

open Foundation

/-- Account type in double-entry bookkeeping. -/
inductive AccountType where
  | asset
  | liability
  | equity
  | revenue
  | expense
  deriving DecidableEq, Repr

/-- Rules that control what an account can do. -/
structure AccountFlags where
  debitsMustNotExceedCredits : Bool := false
  creditsMustNotExceedDebits : Bool := false
  isClosed : Bool := false
  deriving DecidableEq, Repr

/-- Settings for customer deposit accounts: no overdrafts. -/
def AccountFlags.customer : AccountFlags :=
  { debitsMustNotExceedCredits := true }

/-- Settings for bank vaults: reserves cannot go negative. -/
def AccountFlags.bankAsset : AccountFlags :=
  { creditsMustNotExceedDebits := true }

/-- Settings for fee revenue accounts: unlimited credits. -/
def AccountFlags.feeRevenue : AccountFlags :=
  {}

/-- Settings with no limits, used for internal clearing. -/
def AccountFlags.unrestricted : AccountFlags :=
  {}

/-- Balances for an account, tracking posted totals and pending holds. -/
structure Balance where
  debitsPosted : Amount
  creditsPosted : Amount
  debitsPending : Amount
  creditsPending : Amount
  deriving DecidableEq, Repr

/-- Empty balances starting at zero. -/
def Balance.new : Balance :=
  ⟨.zero, .zero, .zero, .zero⟩

/-- What `limit` leaves after the posted and pending totals of one side; zero if they equal
or exceed it.
-/
def availableWithin (posted pending limit : Amount) : Except LedgerError Amount := do
  let total ← posted.checkedAdd pending
  if total.units ≤ limit.units then
    return ⟨limit.units - total.units⟩
  else
    return .zero

/-- Spendable balance for customer accounts: credits minus debits posted and pending. -/
def Balance.availableLiability (b : Balance) : Except LedgerError Amount :=
  availableWithin b.debitsPosted b.debitsPending b.creditsPosted

/-- Spendable balance for asset accounts: debits minus credits posted and pending. -/
def Balance.availableAsset (b : Balance) : Except LedgerError Amount :=
  availableWithin b.creditsPosted b.creditsPending b.debitsPosted

/-- A ledger account. -/
structure Account where
  id : AccountId
  accountType : AccountType
  flags : AccountFlags
  scale : Scale
  balance : Balance
  deriving DecidableEq, Repr

/-- An account with zero balance. -/
def Account.new (id : AccountId) (accountType : AccountType) (flags : AccountFlags) (scale : Scale)
    : Account :=
  { id, accountType, flags, scale, balance := .new }

/-- Check one side of an account against its closed flag and, when `limited`, against the
posted total of the other side.
-/
def Account.ensureRoom (a : Account) (limited : Bool) (posted pending limit : Amount)
    (available : Except LedgerError Amount) (amount : Amount)
    : Except LedgerError Unit := do
  ensure (a.flags.isClosed = false) (.accountClosed a.id)
  if limited then
    let reserved ← posted.checkedAdd pending
    let total ← reserved.checkedAdd amount
    if limit.units < total.units then
      let left ← available
      throw (.insufficientFunds a.id amount left)
    else
      return ()
  else
    return ()

/-- Check if this account can be debited by this amount. -/
def Account.ensureCanDebit (a : Account) (amount : Amount) : Except LedgerError Unit :=
  a.ensureRoom a.flags.debitsMustNotExceedCredits a.balance.debitsPosted
    a.balance.debitsPending a.balance.creditsPosted a.balance.availableLiability amount

/-- Check if this account can be credited by this amount. -/
def Account.ensureCanCredit (a : Account) (amount : Amount) : Except LedgerError Unit :=
  a.ensureRoom a.flags.creditsMustNotExceedDebits a.balance.creditsPosted
    a.balance.creditsPending a.balance.debitsPosted a.balance.availableAsset amount

/-- One side passes exactly on open accounts whose limit, if any, leaves room. Witness: the
two checked sums are representable because the limit bounds them.
-/
theorem Account.ensureRoom_eq_ok {a : Account} {limited : Bool}
    {posted pending limit amount : Amount} {available : Except LedgerError Amount}
    : a.ensureRoom limited posted pending limit available amount = .ok ()
      ↔ a.flags.isClosed = false
        ∧ (limited = true
          → posted.toNat + pending.toNat + amount.toNat ≤ limit.toNat) := by
  have bound := limit.toNat_lt
  simp only [Account.ensureRoom, bind_eq_ok, ensure_eq_ok, exists_const]
  apply and_congr_right
  intro _
  cases limited with
  | false => simp
  | true =>
      simp only [if_true, forall_const, bind_eq_ok, Amount.checkedAdd_eq_ok]
      constructor
      · rintro ⟨reserved, reservedSum, total, totalSum, passed⟩
        split at passed
        · simp only [bind_eq_ok, throw_ne_ok, and_false, exists_false] at passed
        · rename_i within
          rw [Fin.lt_def] at within
          simp only [Amount.toNat] at *
          omega
      · intro within
        refine ⟨⟨⟨posted.toNat + pending.toNat, by omega⟩⟩, rfl,
          ⟨⟨posted.toNat + pending.toNat + amount.toNat, by omega⟩⟩, rfl, ?_⟩
        rw [if_neg]
        · rfl
        · rw [Fin.lt_def]
          exact Nat.not_lt.mpr within

theorem Account.ensureCanDebit_eq_ok {a : Account} {amount : Amount}
    : a.ensureCanDebit amount = .ok ()
      ↔ a.flags.isClosed = false
        ∧ (a.flags.debitsMustNotExceedCredits = true
          → a.balance.debitsPosted.toNat + a.balance.debitsPending.toNat + amount.toNat
            ≤ a.balance.creditsPosted.toNat) :=
  Account.ensureRoom_eq_ok

theorem Account.ensureCanCredit_eq_ok {a : Account} {amount : Amount}
    : a.ensureCanCredit amount = .ok ()
      ↔ a.flags.isClosed = false
        ∧ (a.flags.creditsMustNotExceedDebits = true
          → a.balance.creditsPosted.toNat + a.balance.creditsPending.toNat + amount.toNat
            ≤ a.balance.debitsPosted.toNat) :=
  Account.ensureRoom_eq_ok

end TrustLedger.LedgerCore
