import TrustLedger.LedgerCore.Effects

/-! Closure is final. A capture or a void does not look at the closed flag, but it only trades
a reservation made before the closure for at most the same amount; everything else that could
name a closed account is refused.
-/

namespace TrustLedger.LedgerCore

open Foundation

/-- One of the two legs of a transfer is `account`. -/
def Transfer.Names (t : Transfer) (account : AccountId) : Prop :=
  t.debitAccountId = account ∨ t.creditAccountId = account

/-- Everything debited or reserved for a debit. -/
def Balance.debitsTotal (b : Balance) : Nat :=
  b.debitsPosted.toNat + b.debitsPending.toNat

/-- Everything credited or reserved for a credit. -/
def Balance.creditsTotal (b : Balance) : Nat :=
  b.creditsPosted.toNat + b.creditsPending.toNat

namespace Ledger

/-- `t` settles a hold that is pending in `l`, on the hold's accounts and within its amount. -/
def SettlesHold (l : Ledger) (t : Transfer) : Prop :=
  ∃ pendingId hold,
    t.pendingId = some pendingId
    ∧ l.transfers[pendingId]? = some hold
    ∧ hold.state = .pending
    ∧ t.debitAccountId = hold.debitAccountId
    ∧ t.creditAccountId = hold.creditAccountId
    ∧ t.amount.toNat ≤ hold.amount.toNat

/-- What can have happened to an account between `l`, where it was closed, and `l'`. -/
structure ClosedSince (l : Ledger) (id : AccountId) (account : Account) (l' : Ledger)
    : Prop where
  closed
    : ∃ account', l'.accounts[id]? = some account'
        ∧ account'.flags.isClosed
        ∧ account'.balance.debitsTotal ≤ account.balance.debitsTotal
        ∧ account'.balance.creditsTotal ≤ account.balance.creditsTotal
  unnamed
    : ∃ events, l'.journal = l.journal ++ events
        ∧ ∀ t, .transferPosted t ∈ events ∨ .transferPendingCreated t ∈ events → ¬ t.Names id
  settlements
    : ∀ (transferId : TransferId) (t : Transfer), l'.transfers[transferId]? = some t
      → l.transfers[transferId]? = none → t.Names id → l.SettlesHold t

/-- Stored transfers stay as they are, but for the state of a hold that was pending. -/
def KeepsTransfers (l l' : Ledger) : Prop :=
  ∀ (id : TransferId) (t : Transfer), l.transfers[id]? = some t
    → ∃ t', l'.transfers[id]? = some t'
        ∧ t' = { t with state := t'.state }
        ∧ (t.state ≠ .pending → t' = t)

section Steps

variable {l l' : Ledger} {event : LedgerEvent} {id : AccountId} {account : Account}

theorem KeepsTransfers.refl (l : Ledger) : KeepsTransfers l l :=
  fun _ t found => ⟨t, found, rfl, fun _ => rfl⟩

theorem KeepsTransfers.step {l₀ : Ledger} (kept : KeepsTransfers l₀ l) (step : l.Step event l')
    : KeepsTransfers l₀ l' := by
  intro id t found
  obtain ⟨mid, there, same, settled⟩ := kept id t found
  refine ⟨event.restate id mid, step.transfer_kept there, ?_, ?_⟩
  · rw [event.restate_eq, same]
  · intro notPending
    have unchanged := settled notPending
    subst unchanged
    exact Option.some.inj ((step.transfer_kept there).symm.trans
      (step.settled_kept there notPending))

theorem KeepsTransfers.pending {transferId : TransferId} {t hold : Transfer}
    (kept : KeepsTransfers l l') (before : l.transfers[transferId]? = some t)
    (now : l'.transfers[transferId]? = some hold) (pending : hold.state = .pending)
    : t = hold := by
  obtain ⟨t', there, same, settled⟩ := kept transferId t before
  obtain rfl : t' = hold := Option.some.inj (there.symm.trans now)
  by_cases state : t.state = .pending
  · rw [same, pending, ← state]
  · exact (settled state).symm

theorem Legs.unnamed {t : Transfer} {debits credits : Balance → Amount}
    {newDebits newCredits : Amount} (legs : l.Legs t debits credits newDebits newCredits)
    (found : l.accounts[id]? = some account) (closed : account.flags.isClosed)
    : ¬ t.Names id := by
  intro named
  rcases named with rfl | rfl
  · obtain ⟨debit, there, canDebit, -⟩ := legs.debit
    cases found.symm.trans there
    rw [(Account.ensureCanDebit_eq_ok.mp canDebit).1] at closed
    cases closed
  · obtain ⟨credit, there, canCredit, -⟩ := legs.credit
    cases found.symm.trans there
    rw [(Account.ensureCanCredit_eq_ok.mp canCredit).1] at closed
    cases closed

variable (step : l.Step event l') (found : l.accounts[id]? = some account)
  (closed : account.flags.isClosed)

include step found closed

theorem Step.unnamed {t : Transfer}
    (opens : event = .transferPosted t ∨ event = .transferPendingCreated t)
    : ¬ t.Names id := by
  cases step with
  | transferPosted inOrder posted fresh linked legs =>
      rcases opens with same | same
      · cases same
        exact legs.unnamed found closed
      · cases same
  | transferPendingCreated inOrder pending fresh legs =>
      rcases opens with same | same
      · cases same
      · cases same
        exact legs.unnamed found closed
  | _ => rcases opens with same | same <;> cases same

/-- On a closed account an event posts and reserves no more than it releases. -/
theorem Step.closed_releases {side : Transfer → AccountId} (leg : ∀ t, side t = id → t.Names id)
    : l.posts side id event + reserves side id event ≤ l.releases side id event := by
  have unnamed {t : Transfer}
      (opens : event = .transferPosted t ∨ event = .transferPendingCreated t)
      : side t ≠ id :=
    fun same => step.unnamed found closed opens (leg t same)
  cases step with
  | transferPosted inOrder posted fresh linked legs =>
      simp [posts, reserves, unnamed (.inl rfl)]
  | transferPendingCreated inOrder pending fresh legs =>
      simp [posts, reserves, unnamed (.inr rfl)]
  | transferPendingPosted post =>
      have within := post.within
      simp only [posts, reserves, releases, LedgerEvent.settles, post.found, Nat.add_zero]
      split
      · exact within
      · exact Nat.le_refl 0
  | _ => exact Nat.zero_le _

/-- A transfer that first appears on a closed account settles a hold of the ledger before. -/
theorem Step.settlement_origin {t : Transfer} (records : l.recorded event = some t)
    (named : t.Names id)
    : l.SettlesHold t := by
  cases step with
  | transferPosted inOrder posted fresh linked legs =>
      cases records
      exact absurd named (legs.unnamed found closed)
  | transferPendingCreated inOrder pending fresh legs =>
      cases records
      exact absurd named (legs.unnamed found closed)
  | @transferPendingPosted pendingId postTransferId amount timestamp plan post =>
      rw [recorded, post.found] at records
      cases records
      exact ⟨pendingId, plan.hold, rfl, post.found, post.pending, rfl, rfl, post.within⟩
  | _ => cases records

end Steps

section Runs

variable {l₀ l l' : Ledger} {event : LedgerEvent} {id : AccountId} {account : Account}

/-- A hold on the account that is pending now was pending when the account was closed: what was
stored since is a settlement, and holds carry no link.
-/
theorem ClosedSince.hold_before {pendingId : TransferId} {hold : Transfer}
    (since : ClosedSince l₀ id account l) (backed : l.Backed) (kept : KeepsTransfers l₀ l)
    (found : l.transfers[pendingId]? = some hold) (pending : hold.state = .pending)
    (named : hold.Names id)
    : l₀.transfers[pendingId]? = some hold := by
  cases before : l₀.transfers[pendingId]? with
  | some t => rw [kept.pending before found pending]
  | none =>
      obtain ⟨link, -, linked, -⟩ := since.settlements pendingId hold found before named
      rw [(backed.stored pendingId hold found).unlinked (.inl pending)] at linked
      cases linked

theorem ClosedSince.step (since : ClosedSince l₀ id account l) (backed : l.Backed)
    (kept : KeepsTransfers l₀ l) (step : l.Step event l')
    : ClosedSince l₀ id account l' := by
  obtain ⟨now, found, closed, debits, credits⟩ := since.closed
  refine { closed := ?_, unnamed := ?_, settlements := ?_ }
  · obtain ⟨after, there, shifted⟩ := step.account_kept backed found
    have debitsTraded := step.closed_releases found closed (fun t => Or.inl)
    have creditsTraded := step.closed_releases found closed (fun t => Or.inr)
    have debitsPosted := shifted.debitsPosted
    have creditsPosted := shifted.creditsPosted
    have debitsPending := shifted.debitsPending
    have creditsPending := shifted.creditsPending
    refine ⟨after, there, shifted.closed closed, ?_, ?_⟩
    · simp only [Balance.debitsTotal] at *
      omega
    · simp only [Balance.creditsTotal] at *
      omega
  · obtain ⟨events, journal, unnamed⟩ := since.unnamed
    refine ⟨events ++ [event], by rw [step.journal, journal, List.append_assoc], ?_⟩
    intro t opens
    simp only [List.mem_append, List.mem_singleton] at opens
    rcases opens with (earlier | last) | (earlier | last)
    · exact unnamed t (.inl earlier)
    · exact step.unnamed found closed (.inl last.symm)
    · exact unnamed t (.inr earlier)
    · exact step.unnamed found closed (.inr last.symm)
  · intro transferId t stored unused named
    rcases step.transfer_origin stored with ⟨records, rfl⟩ | ⟨before, there, rfl⟩
    · obtain ⟨pendingId, hold, link, holdFound, pending, debit, credit, within⟩ :=
        step.settlement_origin found closed records named
      have holdNamed : hold.Names id := by
        rw [Transfer.Names, ← debit, ← credit]
        exact named
      exact ⟨pendingId, hold, link,
        since.hold_before backed kept holdFound pending holdNamed, pending, debit, credit,
        within⟩
    · rw [event.restate_eq] at named ⊢
      exact since.settlements transferId before there unused named

theorem ClosedSince.runFrom (backed : l.Backed) (found : l.accounts[id]? = some account)
    (closed : account.flags.isClosed) (mutations : List Mutation)
    : ClosedSince l id account (Mutation.runFrom mutations l) := by
  have start : ClosedSince l id account l := by
    refine ⟨⟨account, found, closed, Nat.le_refl _, Nat.le_refl _⟩, ⟨[], ?_, ?_⟩, ?_⟩
    · exact (List.append_nil _).symm
    · intro t opens
      simp at opens
    · intro transferId t stored unused
      rw [unused] at stored
      cases stored
  obtain ⟨events, ran⟩ := Mutation.runFrom_events mutations l
  have all : (Mutation.runFrom mutations l).Backed
      ∧ KeepsTransfers l (Mutation.runFrom mutations l)
      ∧ ClosedSince l id account (Mutation.runFrom mutations l) := by
    refine applyEvents_preserves
      (P := fun now => now.Backed ∧ KeepsTransfers l now ∧ ClosedSince l id account now)
      ?_ ⟨backed, .refl l, start⟩ ran
    intro mid event after holds step
    obtain ⟨midBacked, kept, since⟩ := holds
    exact ⟨midBacked.step step, kept.step step, since.step midBacked kept step⟩
  exact all.2.2

end Runs

/-- An account that is closed stays closed through any later run: no new transfer or hold names
it, whatever is stored on it since settles a hold that was pending at the closure, and what is
debited or credited, posted and pending together, never grows, from any point of the run to any
later one.
-/
theorem closure_final {scale : Scale} {l : Ledger} (reached : Reachable scale l)
    {id : AccountId} {account : Account} (found : l.accounts[id]? = some account)
    (closed : account.flags.isClosed) (first later : List Mutation)
    : ClosedSince l id account (Mutation.runFrom first l)
      ∧ ∃ mid, (Mutation.runFrom first l).accounts[id]? = some mid
          ∧ ClosedSince (Mutation.runFrom first l) id mid
              (Mutation.runFrom later (Mutation.runFrom first l)) := by
  have since := ClosedSince.runFrom reached.backed found closed first
  obtain ⟨mid, there, stillClosed, -, -⟩ := since.closed
  have reachedMid := reached.runFrom first
  exact ⟨since, mid, there, ClosedSince.runFrom reachedMid.backed there stillClosed later⟩

/-- A merchant is closed while a hold in its favour is pending. -/
def closedMerchant : List Mutation :=
  partialCapture.take 4 ++ [.closeAccount ⟨1⟩ 13]

/-- Capturing part of the hold still reaches the closed account, within what was reserved. -/
theorem closure_final_closedMerchant
    : ∃ account,
        (Mutation.runAll ⟨2⟩ closedMerchant).accounts[(⟨1⟩ : AccountId)]? = some account
        ∧ account.balance.creditsTotal = 50
        ∧ ClosedSince (Mutation.runAll ⟨2⟩ closedMerchant) ⟨1⟩ account
            (Mutation.runFrom [.postPending ⟨11⟩ ⟨13⟩ ⟨30⟩ 14]
              (Mutation.runAll ⟨2⟩ closedMerchant)) :=
  ⟨⟨⟨1⟩, .asset, { isClosed := true }, ⟨2⟩, ⟨⟨100⟩, ⟨0⟩, ⟨0⟩, ⟨50⟩⟩⟩, by decide, by decide,
    (closure_final (reachable_runAll ⟨2⟩ closedMerchant) (by decide) rfl
      [.postPending ⟨11⟩ ⟨13⟩ ⟨30⟩ 14] []).1⟩

end Ledger

end TrustLedger.LedgerCore
