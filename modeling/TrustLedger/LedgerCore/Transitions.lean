import TrustLedger.LedgerCore.Ledger

/-! What one accepted event does to a ledger. `Step` states every guard and every write of the
six mutators; `applyEvent` succeeds exactly along it and otherwise changes nothing.
-/

namespace TrustLedger.LedgerCore

open Foundation

namespace Ledger

variable {l : Ledger} {timestamp : U64} {u : Unit} {t hold : Transfer} {pendingId : TransferId}

@[simp] theorem checkTimestamp_eq_ok
    : l.checkTimestamp timestamp = .ok u ↔ l.lastTimestamp ≤ timestamp := by
  simp [checkTimestamp]

@[simp] theorem getAccount_eq_ok {id : AccountId} {a : Account}
    : l.getAccount id = .ok a ↔ l.accounts[id]? = some a := by
  simp [getAccount]

@[simp] theorem getTransfer_eq_ok {id : TransferId}
    : l.getTransfer id = .ok t ↔ l.transfers[id]? = some t := by
  simp [getTransfer]

/-- Identity and shape demanded of every new transfer. -/
structure Fresh (l : Ledger) (t : Transfer) : Prop where
  unused : l.transfers[t.id]? = none
  distinct : t.debitAccountId ≠ t.creditAccountId
  positive : 0 < t.amount.toNat
  unlinked : t.state = .pending → t.pendingId = none

theorem validateNewTransfer_eq_ok : l.validateNewTransfer t = .ok u ↔ l.Fresh t := by
  simp only [validateNewTransfer, bind_eq_ok, ensure_eq_ok, exists_const,
    Option.isNone_iff_eq_none, Amount.isZero_eq_false, Transfer.validateShape_eq_ok]
  constructor
  · rintro ⟨unused, distinct, positive, unlinked⟩
    exact ⟨unused, distinct, positive, unlinked⟩
  · rintro ⟨unused, distinct, positive, unlinked⟩
    exact ⟨unused, distinct, positive, unlinked⟩

/-- The hold a transfer links to, if any, is stored and posted. -/
def LinkPosted (l : Ledger) (t : Transfer) : Prop :=
  ∀ pendingId, t.pendingId = some pendingId →
    ∃ hold, l.transfers[pendingId]? = some hold ∧ hold.state = .posted

theorem validatePendingLink_eq_ok : l.validatePendingLink t = .ok u ↔ l.LinkPosted t := by
  unfold validatePendingLink LinkPosted
  cases t.pendingId with
  | none => simp
  | some pendingId => simp [bind_eq_ok]

/-- Both accounts of a transfer exist and admit it, and the raised components fit. -/
structure Legs (l : Ledger) (t : Transfer) (debits credits : Balance → Amount)
    (newDebits newCredits : Amount)
    : Prop where
  debit : ∃ account, l.accounts[t.debitAccountId]? = some account
    ∧ account.ensureCanDebit t.amount = .ok ()
    ∧ newDebits.toNat = (debits account.balance).toNat + t.amount.toNat
  credit : ∃ account, l.accounts[t.creditAccountId]? = some account
    ∧ account.ensureCanCredit t.amount = .ok ()
    ∧ newCredits.toNat = (credits account.balance).toNat + t.amount.toNat

theorem admitLegs_eq_ok {debits credits : Balance → Amount} {newDebits newCredits : Amount}
    : l.admitLegs t debits credits = .ok (newDebits, newCredits)
      ↔ l.Legs t debits credits newDebits newCredits := by
  simp only [admitLegs, bind_eq_ok, getAccount_eq_ok, Amount.checkedAdd_eq_ok, pure_eq_ok,
    Prod.mk.injEq]
  constructor
  · rintro ⟨debit, debitFound, _, canDebit, _, debitSum, credit, creditFound, _, canCredit,
      _, creditSum, rfl, rfl⟩
    exact ⟨⟨debit, debitFound, canDebit, debitSum⟩, ⟨credit, creditFound, canCredit, creditSum⟩⟩
  · rintro ⟨⟨debit, debitFound, canDebit, debitSum⟩, ⟨credit, creditFound, canCredit, creditSum⟩⟩
    exact ⟨debit, debitFound, (), canDebit, _, debitSum, credit, creditFound, (), canCredit,
      _, creditSum, rfl, rfl⟩

theorem pendingHold_eq_ok
    : l.pendingHold pendingId = .ok hold
      ↔ l.transfers[pendingId]? = some hold ∧ hold.state = .pending := by
  simp only [pendingHold, bind_eq_ok, getTransfer_eq_ok, ensure_eq_ok, exists_const,
    pure_eq_ok]
  constructor
  · rintro ⟨_, found, pending, rfl⟩
    exact ⟨found, pending⟩
  · rintro ⟨found, pending⟩
    exact ⟨hold, found, pending, rfl⟩

/-- A hold's accounts exist and still carry its reservation; the named amounts are what
stays reserved on each side.
-/
structure Reserved (l : Ledger) (hold : Transfer) (debit credit : Account)
    (debitsPending creditsPending : Amount)
    : Prop where
  debitFound : l.accounts[hold.debitAccountId]? = some debit
  debitLeft : debitsPending.toNat + hold.amount.toNat = debit.balance.debitsPending.toNat
  creditFound : l.accounts[hold.creditAccountId]? = some credit
  creditLeft : creditsPending.toNat + hold.amount.toNat = credit.balance.creditsPending.toNat

theorem admitVoid_eq_ok {debitsPending creditsPending : Amount}
    : l.admitVoid pendingId timestamp = .ok (hold, debitsPending, creditsPending)
      ↔ l.lastTimestamp ≤ timestamp
        ∧ l.transfers[pendingId]? = some hold
        ∧ hold.state = .pending
        ∧ ∃ debit credit, l.Reserved hold debit credit debitsPending creditsPending := by
  simp only [admitVoid, bind_eq_ok, checkTimestamp_eq_ok, exists_const, pendingHold_eq_ok,
    getAccount_eq_ok, Amount.checkedSub_eq_ok, pure_eq_ok, Prod.mk.injEq]
  constructor
  · rintro ⟨inOrder, _, ⟨found, pending⟩, debit, debitFound, _, debitLeft, credit,
      creditFound, _, creditLeft, rfl, rfl, rfl⟩
    exact ⟨inOrder, found, pending, debit, credit, debitFound, debitLeft, creditFound,
      creditLeft⟩
  · rintro ⟨inOrder, found, pending, debit, credit, debitFound, debitLeft, creditFound,
      creditLeft⟩
    exact ⟨inOrder, hold, ⟨found, pending⟩, debit, debitFound, _, debitLeft, credit,
      creditFound, _, creditLeft, rfl, rfl, rfl⟩

/-- Everything a post call checks, with the values it is about to write. -/
structure Postable (l : Ledger) (pendingId postTransferId : TransferId) (amount : Amount)
    (timestamp : U64) (plan : PostPlan)
    : Prop where
  inOrder : l.lastTimestamp ≤ timestamp
  unused : l.transfers[postTransferId]? = none
  found : l.transfers[pendingId]? = some plan.hold
  pending : plan.hold.state = .pending
  within : amount.toNat ≤ plan.hold.amount.toNat
  positive : 0 < amount.toNat
  distinct : plan.hold.debitAccountId ≠ plan.hold.creditAccountId
  reserved
    : ∃ debit credit,
        l.Reserved plan.hold debit credit plan.debitsPending plan.creditsPending
        ∧ plan.debitsPosted.toNat = debit.balance.debitsPosted.toNat + amount.toNat
        ∧ plan.creditsPosted.toNat = credit.balance.creditsPosted.toNat + amount.toNat
  settlement
    : plan.settlement
      = ⟨postTransferId, plan.hold.debitAccountId, plan.hold.creditAccountId, amount,
          .posted, some pendingId, timestamp⟩

theorem admitPost_eq_ok {postTransferId : TransferId} {amount : Amount} {plan : PostPlan}
    : l.admitPost pendingId postTransferId amount timestamp = .ok plan
      ↔ l.Postable pendingId postTransferId amount timestamp plan := by
  simp only [admitPost, bind_eq_ok, checkTimestamp_eq_ok, exists_const, pendingHold_eq_ok,
    getAccount_eq_ok, Amount.checkedSub_eq_ok, Amount.checkedAdd_eq_ok, pure_eq_ok,
    ensure_eq_ok, Option.isNone_iff_eq_none, Amount.isZero_eq_false, Transfer.newSettlement,
    Transfer.validated_eq_ok, Fin.lt_def, Nat.not_lt]
  constructor
  · rintro ⟨inOrder, unused, hold, ⟨found, pending⟩, within, positive, debit, debitFound,
      _, debitLeft, _, debitSum, credit, creditFound, _, creditLeft, _, creditSum, _,
      ⟨distinct, _, settled⟩, rfl⟩
    exact {
      inOrder, unused, found, pending, within, positive, distinct
      reserved := ⟨debit, credit, ⟨debitFound, debitLeft, creditFound, creditLeft⟩,
        debitSum, creditSum⟩
      settlement := settled
    }
  · intro post
    obtain ⟨debit, credit, reserved, debitSum, creditSum⟩ := post.reserved
    exact ⟨post.inOrder, post.unused, plan.hold, ⟨post.found, post.pending⟩, post.within,
      post.positive, debit, reserved.debitFound, _, reserved.debitLeft, _, debitSum, credit,
      reserved.creditFound, _, reserved.creditLeft, _, creditSum, plan.settlement,
      ⟨post.distinct, post.positive, post.settlement⟩, rfl⟩

/-- Rewrite part of one stored balance. -/
def withBalance (l : Ledger) (id : AccountId) (f : Balance → Balance) : Ledger :=
  { l with accounts := l.accounts.modify id fun a => { a with balance := f a.balance } }

/-- Rewrite part of the balances on both sides of a transfer. -/
def withLegs (l : Ledger) (t : Transfer) (f g : Balance → Balance) : Ledger :=
  (l.withBalance t.debitAccountId f).withBalance t.creditAccountId g

/-- Store a transfer under its own id. -/
def withTransfer (l : Ledger) (t : Transfer) : Ledger :=
  { l with transfers := l.transfers.insert t.id t }

/-- Replace a stored transfer. -/
def withMoved (l : Ledger) (id : TransferId) (t : Transfer) : Ledger :=
  { l with transfers := l.transfers.modify id fun _ => t }

/-- Append an event and move the watermark to its timestamp. -/
def logged (l : Ledger) (event : LedgerEvent) (timestamp : U64) : Ledger :=
  { l with journal := l.journal ++ [event], lastTimestamp := timestamp }

/-- One accepted event: its guards on the ledger before, and the ledger after. -/
inductive Step (l : Ledger) : LedgerEvent → Ledger → Prop where
  | accountCreated {id accountType flags timestamp}
    (inOrder : l.lastTimestamp ≤ timestamp) (unused : l.accounts[id]? = none)
    : Step l (.accountCreated id accountType flags l.scale timestamp)
        (logged
          { l with accounts := l.accounts.insert id (.new id accountType flags l.scale) }
          (.accountCreated id accountType flags l.scale timestamp) timestamp)
  | accountClosed {id account timestamp}
    (inOrder : l.lastTimestamp ≤ timestamp) (found : l.accounts[id]? = some account)
    (isOpen : account.flags.isClosed = false)
    : Step l (.accountClosed id timestamp)
        (logged
          { l with
            accounts := l.accounts.modify id fun a =>
              { a with flags := { a.flags with isClosed := true } } }
          (.accountClosed id timestamp) timestamp)
  | transferPosted {t newDebits newCredits}
    (inOrder : l.lastTimestamp ≤ t.timestamp) (posted : t.state = .posted)
    (fresh : l.Fresh t) (linked : l.LinkPosted t)
    (legs : l.Legs t Balance.debitsPosted Balance.creditsPosted newDebits newCredits)
    : Step l (.transferPosted t)
        (((l.withLegs t (fun b => { b with debitsPosted := newDebits })
          (fun b => { b with creditsPosted := newCredits })).withTransfer t).logged
            (.transferPosted t) t.timestamp)
  | transferPendingCreated {t newDebits newCredits}
    (inOrder : l.lastTimestamp ≤ t.timestamp) (pending : t.state = .pending)
    (fresh : l.Fresh t)
    (legs : l.Legs t Balance.debitsPending Balance.creditsPending newDebits newCredits)
    : Step l (.transferPendingCreated t)
        (((l.withLegs t (fun b => { b with debitsPending := newDebits })
          (fun b => { b with creditsPending := newCredits })).withTransfer t).logged
            (.transferPendingCreated t) t.timestamp)
  | transferPendingPosted {pendingId postTransferId amount timestamp plan}
    (post : l.Postable pendingId postTransferId amount timestamp plan)
    : Step l (.transferPendingPosted pendingId postTransferId amount timestamp)
        ((((l.withLegs plan.hold
          (fun b =>
            { b with debitsPending := plan.debitsPending, debitsPosted := plan.debitsPosted })
          (fun b =>
            { b with
              creditsPending := plan.creditsPending, creditsPosted := plan.creditsPosted })
          ).withMoved pendingId { plan.hold with state := .posted }).withTransfer
            plan.settlement).logged
              (.transferPendingPosted pendingId postTransferId amount timestamp) timestamp)
  | transferPendingVoided {pendingId timestamp hold debit credit debitsPending creditsPending}
    (inOrder : l.lastTimestamp ≤ timestamp) (found : l.transfers[pendingId]? = some hold)
    (pending : hold.state = .pending)
    (reserved : l.Reserved hold debit credit debitsPending creditsPending)
    : Step l (.transferPendingVoided pendingId hold.amount timestamp)
        (((l.withLegs hold (fun b => { b with debitsPending })
          (fun b => { b with creditsPending })).withMoved pendingId
            { hold with state := .voided }).logged
              (.transferPendingVoided pendingId hold.amount timestamp) timestamp)

end Ledger

end TrustLedger.LedgerCore
