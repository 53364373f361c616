import TrustLedger.LedgerCore.Conservation

/-! What one accepted event does to a single stored transfer and to a single account. Every
invariant that follows one entry through a run is read off these two descriptions.
-/

namespace TrustLedger.LedgerCore

open Foundation

/-- The hold an event settles, and the state it leaves the hold in. -/
def LedgerEvent.settles : LedgerEvent → Option (TransferId × TransferState)
  | .transferPendingPosted pendingId _ _ _ => some (pendingId, .posted)
  | .transferPendingVoided pendingId _ _ => some (pendingId, .voided)
  | _ => none

/-- The account an event closes. -/
def LedgerEvent.closes : LedgerEvent → Option AccountId
  | .accountClosed id _ => some id
  | _ => none

/-- A transfer stored under `id` after an event: settled if it is the event's hold. -/
def LedgerEvent.restate (event : LedgerEvent) (id : TransferId) (t : Transfer) : Transfer :=
  match event.settles with
  | some (pendingId, state) => if pendingId = id then { t with state } else t
  | none => t

theorem LedgerEvent.restate_unsettled (event : LedgerEvent) {id : TransferId}
    (silent : event.settles = none)
    : event.restate id = fun t => t := by
  funext t
  simp only [LedgerEvent.restate, silent]

theorem LedgerEvent.restate_settled (event : LedgerEvent) {pendingId id : TransferId}
    {state : TransferState} (settles : event.settles = some (pendingId, state))
    : event.restate id = fun t => if pendingId = id then { t with state } else t := by
  funext t
  simp only [LedgerEvent.restate, settles]

/-- Only the state of a transfer is ever rewritten. -/
theorem LedgerEvent.restate_eq (event : LedgerEvent) (id : TransferId) (t : Transfer)
    : event.restate id t = { t with state := (event.restate id t).state } := by
  unfold LedgerEvent.restate
  split
  · split <;> rfl
  · rfl

namespace Ledger

/-- The settlement that capturing `amount` of a hold records. -/
def settlementOf (hold : Transfer) (pendingId postTransferId : TransferId) (amount : Amount)
    (timestamp : U64)
    : Transfer :=
  ⟨postTransferId, hold.debitAccountId, hold.creditAccountId, amount, .posted, some pendingId,
    timestamp⟩

/-- The transfer an event stores, if any. -/
def recorded (l : Ledger) : LedgerEvent → Option Transfer
  | .transferPosted t => some t
  | .transferPendingCreated t => some t
  | .transferPendingPosted pendingId postTransferId amount timestamp =>
      l.transfers[pendingId]?.map (settlementOf · pendingId postTransferId amount timestamp)
  | _ => none

@[simp] theorem logged_transfers (l : Ledger) (event : LedgerEvent) (timestamp : U64)
    : (l.logged event timestamp).transfers = l.transfers :=
  rfl

@[simp] theorem logged_accounts (l : Ledger) (event : LedgerEvent) (timestamp : U64)
    : (l.logged event timestamp).accounts = l.accounts :=
  rfl

@[simp] theorem withTransfer_accounts (l : Ledger) (t : Transfer)
    : (l.withTransfer t).accounts = l.accounts :=
  rfl

@[simp] theorem withMoved_accounts (l : Ledger) (id : TransferId) (t : Transfer)
    : (l.withMoved id t).accounts = l.accounts :=
  rfl

@[simp] theorem withLegs_transfers (l : Ledger) (t : Transfer) (f g : Balance → Balance)
    : (l.withLegs t f g).transfers = l.transfers :=
  rfl

@[simp] theorem getElem?_withTransfer (l : Ledger) (t : Transfer) (id : TransferId)
    : (l.withTransfer t).transfers[id]? = if t.id = id then some t else l.transfers[id]? := by
  simp [withTransfer, Std.ExtTreeMap.getElem?_insert]

theorem getElem?_withMoved {l : Ledger} {pendingId : TransferId} {hold : Transfer}
    (found : l.transfers[pendingId]? = some hold) (t : Transfer) (id : TransferId)
    : (l.withMoved pendingId t).transfers[id]?
      = if pendingId = id then some t else l.transfers[id]? := by
  simp only [withMoved, Std.ExtTreeMap.getElem?_modify, Std.LawfulEqCmp.compare_eq_iff_eq]
  split
  · rename_i same
    rw [found, Option.map_some]
  · rfl

section Transfers

variable {l l' : Ledger} {event : LedgerEvent} {id : TransferId} {t : Transfer}

variable (step : l.Step event l')

include step

theorem Step.settles_pending {state : TransferState} (settles : event.settles = some (id, state))
    : ∃ hold, l.transfers[id]? = some hold ∧ hold.state = .pending ∧ state ≠ .pending := by
  cases step with
  | transferPendingPosted post =>
      cases settles
      exact ⟨_, post.found, post.pending, by simp⟩
  | transferPendingVoided inOrder found pending reserved =>
      cases settles
      exact ⟨_, found, pending, by simp⟩
  | _ => cases settles

theorem Step.restate_pending (pending : (event.restate id t).state = .pending)
    : event.restate id t = t ∧ ∀ state, event.settles ≠ some (id, state) := by
  cases settles : event.settles with
  | none => exact ⟨by rw [event.restate_unsettled settles], by simp⟩
  | some target =>
      obtain ⟨pendingId, state⟩ := target
      simp only [event.restate_settled settles] at pending ⊢
      obtain ⟨-, -, -, leaves⟩ := step.settles_pending settles
      by_cases same : pendingId = id
      · rw [if_pos same] at pending
        exact absurd pending leaves
      · exact ⟨if_neg same, by simp [same]⟩

theorem Step.recorded_unused (records : l.recorded event = some t) : l.transfers[t.id]? = none := by
  cases step with
  | transferPosted inOrder posted fresh linked legs =>
      cases records
      exact fresh.unused
  | transferPendingCreated inOrder pending fresh legs =>
      cases records
      exact fresh.unused
  | transferPendingPosted post =>
      rw [recorded, post.found] at records
      cases records
      exact post.unused
  | _ => cases records

theorem Step.recorded_pending (records : l.recorded event = some t) (pending : t.state = .pending)
    : event = .transferPendingCreated t := by
  cases step with
  | transferPosted inOrder posted fresh linked legs =>
      cases records
      rw [posted] at pending
      cases pending
  | transferPendingCreated inOrder pending fresh legs =>
      cases records
      rfl
  | transferPendingPosted post =>
      rw [recorded, post.found] at records
      cases records
      cases pending
  | _ => cases records

/-- The transfers stored after a step: what the event records, and what was stored before with
the event's hold settled.
-/
theorem Step.getElem?_transfers
    : l'.transfers[id]?
      = match l.recorded event with
        | some new =>
            if new.id = id then some new else l.transfers[id]?.map (event.restate id)
        | none => l.transfers[id]?.map (event.restate id) := by
  cases step with
  | accountCreated inOrder unused =>
      simp [recorded, LedgerEvent.restate_unsettled (.accountCreated _ _ _ _ _) rfl]
  | accountClosed inOrder found isOpen =>
      simp [recorded, LedgerEvent.restate_unsettled (.accountClosed _ _) rfl]
  | transferPosted inOrder posted fresh linked legs =>
      simp [recorded, LedgerEvent.restate_unsettled (.transferPosted _) rfl]
  | transferPendingCreated inOrder pending fresh legs =>
      simp [recorded, LedgerEvent.restate_unsettled (.transferPendingCreated _) rfl]
  | @transferPendingPosted pendingId postTransferId amount timestamp plan post =>
      have moved (f g : Balance → Balance) :=
        getElem?_withMoved (l := l.withLegs plan.hold f g) post.found
          { plan.hold with state := .posted } id
      simp only [logged_transfers, getElem?_withTransfer, moved, withLegs_transfers, recorded,
        post.found, Option.map_some, settlementOf, post.settlement,
        LedgerEvent.restate_settled (.transferPendingPosted _ _ _ _) rfl]
      by_cases same : pendingId = id
      · subst same
        simp [post.found]
      · simp [same]
  | @transferPendingVoided pendingId timestamp hold debit credit debitsPending creditsPending
      inOrder found pending reserved =>
      have moved (f g : Balance → Balance) :=
        getElem?_withMoved (l := l.withLegs hold f g) found { hold with state := .voided } id
      simp only [logged_transfers, moved, withLegs_transfers, recorded,
        LedgerEvent.restate_settled (.transferPendingVoided _ _ _) rfl]
      by_cases same : pendingId = id
      · subst same
        simp [found]
      · simp [same]

/-- Stored transfers stay stored; only the event's hold changes. -/
theorem Step.transfer_kept (found : l.transfers[id]? = some t)
    : l'.transfers[id]? = some (event.restate id t) := by
  rw [step.getElem?_transfers, found]
  split
  · rename_i new records
    have other : new.id ≠ id := by
      intro same
      have unused := step.recorded_unused records
      rw [same, found] at unused
      cases unused
    rw [if_neg other, Option.map_some]
  · rfl

theorem Step.transfer_isSome (there : l.transfers[id]?.isSome) : l'.transfers[id]?.isSome := by
  obtain ⟨t, found⟩ := Option.isSome_iff_exists.mp there
  rw [step.transfer_kept found, Option.isSome_some]

theorem Step.settled_kept (found : l.transfers[id]? = some t) (settled : t.state ≠ .pending)
    : l'.transfers[id]? = some t := by
  rw [step.transfer_kept found]
  cases settles : event.settles with
  | none => rw [event.restate_unsettled settles]
  | some target =>
      obtain ⟨pendingId, state⟩ := target
      have other : pendingId ≠ id := by
        intro same
        subst same
        obtain ⟨hold, there, pending, -⟩ := step.settles_pending settles
        cases found.symm.trans there
        exact settled pending
      simp only [event.restate_settled settles, if_neg other]

theorem Step.recorded_stored (records : l.recorded event = some t)
    : l'.transfers[t.id]? = some t := by
  rw [step.getElem?_transfers, records]
  exact if_pos rfl

/-- A transfer stored after a step was stored before it, or is the one the event records. -/
theorem Step.transfer_origin (found : l'.transfers[id]? = some t)
    : (l.recorded event = some t ∧ t.id = id)
      ∨ ∃ before, l.transfers[id]? = some before ∧ t = event.restate id before := by
  rw [step.getElem?_transfers] at found
  have earlier (kept : l.transfers[id]?.map (event.restate id) = some t)
      : ∃ before, l.transfers[id]? = some before ∧ t = event.restate id before := by
    obtain ⟨before, there, now⟩ := Option.map_eq_some_iff.mp kept
    exact ⟨before, there, now.symm⟩
  split at found
  · rename_i new records
    split at found
    · rename_i same
      cases found
      exact .inl ⟨records, same⟩
    · exact .inr (earlier found)
  · exact .inr (earlier found)

end Transfers

/-- What an event posts on `account`, seen from one side. -/
def posts (l : Ledger) (side : Transfer → AccountId) (account : AccountId)
    : LedgerEvent → Nat
  | .transferPosted t => if side t = account then t.amount.toNat else 0
  | .transferPendingPosted pendingId _ amount _ =>
      match l.transfers[pendingId]? with
      | some hold => if side hold = account then amount.toNat else 0
      | none => 0
  | _ => 0

/-- What an event adds to the reservation on `account`, seen from one side. -/
def reserves (side : Transfer → AccountId) (account : AccountId) : LedgerEvent → Nat
  | .transferPendingCreated t => if side t = account then t.amount.toNat else 0
  | _ => 0

/-- What an event takes from the reservation on `account`, seen from one side. -/
def releases (l : Ledger) (side : Transfer → AccountId) (account : AccountId) (event : LedgerEvent)
    : Nat :=
  match event.settles with
  | some (pendingId, _) =>
      match l.transfers[pendingId]? with
      | some hold => if side hold = account then hold.amount.toNat else 0
      | none => 0
  | none => 0

/-- How an event changes an account: its closed flag, and each side by what the event posts,
reserves and releases there.
-/
structure Shifted (l : Ledger) (event : LedgerEvent) (id : AccountId) (before after : Account)
    : Prop where
  flags
    : after.flags
      = if event.closes = some id then { before.flags with isClosed := true } else before.flags
  debitsPosted
    : after.balance.debitsPosted.toNat
      = before.balance.debitsPosted.toNat + l.posts Transfer.debitAccountId id event
  creditsPosted
    : after.balance.creditsPosted.toNat
      = before.balance.creditsPosted.toNat + l.posts Transfer.creditAccountId id event
  debitsPending
    : after.balance.debitsPending.toNat + l.releases Transfer.debitAccountId id event
      = before.balance.debitsPending.toNat + reserves Transfer.debitAccountId id event
  creditsPending
    : after.balance.creditsPending.toNat + l.releases Transfer.creditAccountId id event
      = before.balance.creditsPending.toNat + reserves Transfer.creditAccountId id event

section Accounts

variable {l l' : Ledger} {event : LedgerEvent} {id : AccountId} {after : Account}

/-- A rewrite of both legs of `t` shifts each account by what it moves there. -/
theorem Shifted.of_moves {t : Transfer} {debit credit : Account} {f g : Balance → Balance}
    {posted reserved released : Nat} (moves : Moves debit credit f g posted reserved released)
    (distinct : t.debitAccountId ≠ t.creditAccountId)
    (debitFound : l.accounts[t.debitAccountId]? = some debit)
    (creditFound : l.accounts[t.creditAccountId]? = some credit)
    (found : (l.withLegs t f g).accounts[id]? = some after) (stays : event.closes = none)
    (posts : ∀ side, l.posts side id event = if side t = id then posted else 0)
    (reserves : ∀ side, reserves side id event = if side t = id then reserved else 0)
    (releases : ∀ side, l.releases side id event = if side t = id then released else 0)
    : ∃ before, l.accounts[id]? = some before ∧ l.Shifted event id before after := by
  obtain ⟨before, there, flags, side⟩ := withLegs_cases distinct found
  obtain ⟨debitsPosted, debitsPending, debitOther, creditsPosted, creditsPending, creditOther⟩ :=
    moves
  have flagged : after.flags
      = if event.closes = some id then { before.flags with isClosed := true }
        else before.flags := by
    simp [flags, stays]
  rcases side with ⟨rfl, balance⟩ | ⟨rfl, balance⟩ | ⟨notDebit, notCredit, balance⟩
  · obtain rfl : debit = before := Option.some.inj (debitFound.symm.trans there)
    refine ⟨debit, there, flagged, ?_, ?_, ?_, ?_⟩
    · simpa [posts, balance] using debitsPosted
    · simp [posts, balance, Ne.symm distinct, debitOther.1]
    · simpa [reserves, releases, balance] using debitsPending
    · simp [reserves, releases, balance, Ne.symm distinct, debitOther.2]
  · obtain rfl : credit = before := Option.some.inj (creditFound.symm.trans there)
    refine ⟨credit, there, flagged, ?_, ?_, ?_, ?_⟩
    · simp [posts, balance, distinct, creditOther.1]
    · simpa [posts, balance] using creditsPosted
    · simp [reserves, releases, balance, distinct, creditOther.2]
    · simpa [reserves, releases, balance] using creditsPending
  · refine ⟨before, there, flagged, ?_, ?_, ?_, ?_⟩
    · simp [posts, balance, Ne.symm notDebit]
    · simp [posts, balance, Ne.symm notCredit]
    · simp [reserves, releases, balance, Ne.symm notDebit]
    · simp [reserves, releases, balance, Ne.symm notCredit]

/-- An event that moves no money leaves the balances alone. -/
theorem Shifted.of_balance {before : Account} (flags : after.flags
      = if event.closes = some id then { before.flags with isClosed := true } else before.flags)
    (balance : after.balance = before.balance) (posts : ∀ side, l.posts side id event = 0)
    (reserves : ∀ side, reserves side id event = 0)
    (releases : ∀ side, l.releases side id event = 0)
    : l.Shifted event id before after := by
  refine ⟨flags, ?_, ?_, ?_, ?_⟩
  · rw [balance, posts, Nat.add_zero]
  · rw [balance, posts, Nat.add_zero]
  · rw [balance, reserves, releases]
  · rw [balance, reserves, releases]

/-- An account after a step was there before, shifted by the event, or was just created. -/
theorem Step.account_origin (backed : l.Backed) (step : l.Step event l')
    (found : l'.accounts[id]? = some after)
    : (∃ before, l.accounts[id]? = some before ∧ l.Shifted event id before after)
      ∨ l.accounts[id]? = none ∧ after.balance = .new := by
  cases step with
  | @accountCreated new accountType flags timestamp inOrder unused =>
      simp only [logged, Std.ExtTreeMap.getElem?_insert,
        Std.LawfulEqCmp.compare_eq_iff_eq] at found
      split at found
      · rename_i same
        cases found
        exact .inr ⟨same ▸ unused, rfl⟩
      · exact .inl ⟨after, found,
          .of_balance rfl rfl (fun _ => rfl) (fun _ => rfl) (fun _ => rfl)⟩
  | @accountClosed closed account timestamp inOrder there isOpen =>
      simp only [logged, Std.ExtTreeMap.getElem?_modify,
        Std.LawfulEqCmp.compare_eq_iff_eq] at found
      split at found
      · rename_i same
        subst same
        obtain ⟨before, present, rfl⟩ := Option.map_eq_some_iff.mp found
        exact .inl ⟨before, present,
          .of_balance (by simp [LedgerEvent.closes]) rfl (fun _ => rfl) (fun _ => rfl)
            (fun _ => rfl)⟩
      · rename_i other
        exact .inl ⟨after, found,
          .of_balance (by simp [LedgerEvent.closes, other]) rfl (fun _ => rfl) (fun _ => rfl)
            (fun _ => rfl)⟩
  | @transferPosted t newDebits newCredits inOrder posted fresh linked legs =>
      obtain ⟨debit, debitFound, -⟩ := legs.debit
      obtain ⟨credit, creditFound, -⟩ := legs.credit
      exact .inl (Shifted.of_moves (legs.posts debitFound creditFound) fresh.distinct debitFound
        creditFound found rfl (fun _ => rfl) (by simp [reserves])
        (by simp [releases, LedgerEvent.settles]))
  | @transferPendingCreated t newDebits newCredits inOrder pending fresh legs =>
      obtain ⟨debit, debitFound, -⟩ := legs.debit
      obtain ⟨credit, creditFound, -⟩ := legs.credit
      exact .inl (Shifted.of_moves (legs.reserves debitFound creditFound) fresh.distinct debitFound
        creditFound found rfl (by simp [posts]) (fun _ => rfl)
        (by simp [releases, LedgerEvent.settles]))
  | @transferPendingPosted pendingId postTransferId amount timestamp plan post =>
      obtain ⟨debit, credit, reserved, debitSum, creditSum⟩ := post.reserved
      exact .inl (Shifted.of_moves (reserved.captures debitSum creditSum) post.distinct
        reserved.debitFound reserved.creditFound found rfl (by simp [posts, post.found])
        (by simp [reserves]) (by simp [releases, LedgerEvent.settles, post.found]))
  | @transferPendingVoided pendingId timestamp hold debit credit debitsPending creditsPending
      inOrder there pending reserved =>
      exact .inl (Shifted.of_moves reserved.releases (backed.stored pendingId hold there).distinct
        reserved.debitFound reserved.creditFound found rfl (by simp [posts])
        (by simp [reserves]) (by simp [releases, LedgerEvent.settles, there]))

theorem Step.account_isSome (step : l.Step event l') (there : l.accounts[id]?.isSome)
    : l'.accounts[id]?.isSome := by
  cases step with
  | accountCreated inOrder unused =>
      simp only [logged, Std.ExtTreeMap.getElem?_insert]
      split
      · rfl
      · exact there
  | accountClosed inOrder found isOpen =>
      simpa [logged, Std.ExtTreeMap.contains_modify] using there
  | _ =>
      simpa only [logged_accounts, withTransfer_accounts, withMoved_accounts, withLegs_isSome]
        using there

/-- An account is shifted by every event. -/
theorem Step.account_kept (backed : l.Backed) (step : l.Step event l') {before : Account}
    (found : l.accounts[id]? = some before)
    : ∃ after, l'.accounts[id]? = some after ∧ l.Shifted event id before after := by
  have there : l.accounts[id]?.isSome := by simp [found]
  obtain ⟨after, now⟩ := Option.isSome_iff_exists.mp (step.account_isSome there)
  rcases step.account_origin backed now with ⟨other, there, shifted⟩ | ⟨absent, -⟩
  · obtain rfl : before = other := Option.some.inj (found.symm.trans there)
    exact ⟨after, now, shifted⟩
  · rw [found] at absent
    cases absent

theorem Shifted.closed {before : Account} (shifted : l.Shifted event id before after)
    (closed : before.flags.isClosed)
    : after.flags.isClosed := by
  rw [shifted.flags]
  split
  · rfl
  · exact closed

end Accounts

end Ledger

end TrustLedger.LedgerCore
