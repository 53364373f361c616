import TrustLedger.LedgerCore.Overdraft

/-! What a reachable ledger accepts. A pending hold can always be released, and posted as long as
the posted totals fit; a new transfer is accepted up to the available balance that is published.
-/

namespace TrustLedger.LedgerCore

open Foundation FiniteMap

namespace Ledger

section Settling

variable {l : Ledger} {pendingId : TransferId} {hold : Transfer}

theorem amount_le_held (found : l.transfers[pendingId]? = some hold)
    (pending : hold.state = .pending) (side : Transfer → AccountId)
    : hold.amount.toNat ≤ held side (side hold) l := by
  rw [held, total_eq_add_erase _ found, heldBy_pending pending, if_pos rfl]
  exact Nat.le_add_right _ _

/-- The accounts of a pending hold exist and still carry its reservation. -/
theorem Backed.reserved (backed : l.Backed) (found : l.transfers[pendingId]? = some hold)
    (pending : hold.state = .pending)
    : ∃ debit credit debitsPending creditsPending,
        l.Reserved hold debit credit debitsPending creditsPending := by
  have stored := backed.stored pendingId hold found
  obtain ⟨debit, debitFound⟩ := Option.isSome_iff_exists.mp stored.debitExists
  obtain ⟨credit, creditFound⟩ := Option.isSome_iff_exists.mp stored.creditExists
  have debitsHeld := backed.debitsHeld _ debit debitFound
  have creditsHeld := backed.creditsHeld _ credit creditFound
  have debits := amount_le_held found pending Transfer.debitAccountId
  have credits := amount_le_held found pending Transfer.creditAccountId
  have debitsBound := debit.balance.debitsPending.toNat_lt
  have creditsBound := credit.balance.creditsPending.toNat_lt
  refine ⟨debit, credit,
    ⟨⟨debit.balance.debitsPending.toNat - hold.amount.toNat, by omega⟩⟩,
    ⟨⟨credit.balance.creditsPending.toNat - hold.amount.toNat, by omega⟩⟩,
    debitFound, ?_, creditFound, ?_⟩
  · exact Nat.sub_add_cancel (by omega)
  · exact Nat.sub_add_cancel (by omega)

/-- The posted totals of a hold's accounts have room for an amount. -/
def PostFits (l : Ledger) (hold : Transfer) (amount : Amount) : Prop :=
  ∀ debit credit, l.accounts[hold.debitAccountId]? = some debit
    → l.accounts[hold.creditAccountId]? = some credit
    → debit.balance.debitsPosted.toNat + amount.toNat < 2 ^ 128
      ∧ credit.balance.creditsPosted.toNat + amount.toNat < 2 ^ 128

/-- How the calls that settle a pending hold end. -/
structure Settleable (l : Ledger) (pendingId : TransferId) (hold : Transfer) : Prop where
  /-- Both accounts are found and both reservations can be taken back. -/
  reserved
    : ∃ debit credit debitsPending creditsPending,
        l.Reserved hold debit credit debitsPending creditsPending
  voids
    : ∀ timestamp, l.lastTimestamp ≤ timestamp → ∃ l', voidPending pendingId timestamp l = .ok () l'
  voidRefused
    : ∀ {timestamp e l'}, voidPending pendingId timestamp l = .error e l'
      → e = .timestampBehindPrior timestamp l.lastTimestamp
  posts
    : ∀ {postTransferId amount timestamp}, l.transfers[postTransferId]? = none
      → 0 < amount.toNat → amount.toNat ≤ hold.amount.toNat → l.lastTimestamp ≤ timestamp
      → ((∃ l', postPending pendingId postTransferId amount timestamp l = .ok () l')
        ↔ l.PostFits hold amount)
  postRefused
    : ∀ {postTransferId amount timestamp e l'},
      postPending pendingId postTransferId amount timestamp l = .error e l'
      → (∀ id, e ≠ .accountNotFound id) ∧ (e = .arithmeticOverflow → ¬l.PostFits hold amount)

theorem Backed.void_refused (backed : l.Backed) (found : l.transfers[pendingId]? = some hold)
    (pending : hold.state = .pending) {timestamp : U64} {e : LedgerError}
    (refused : l.admitVoid pendingId timestamp = .error e)
    : e = .timestampBehindPrior timestamp l.lastTimestamp := by
  obtain ⟨debit, credit, debitsPending, creditsPending, reserved⟩ := backed.reserved found pending
  by_cases inOrder : l.lastTimestamp ≤ timestamp
  · have accepted := admitVoid_eq_ok.mpr ⟨inOrder, found, pending, debit, credit, reserved⟩
    rw [accepted] at refused
    cases refused
  · rw [admitVoid, bind_eq_error, checkTimestamp, ensure_eq_error] at refused
    rcases refused with ⟨-, same⟩ | ⟨_, passed, -⟩
    · exact same.symm
    · exact absurd (checkTimestamp_eq_ok.mp passed) inOrder

/-- Why a call that posts a pending hold is refused. -/
theorem Backed.post_refused (backed : l.Backed) (found : l.transfers[pendingId]? = some hold)
    (pending : hold.state = .pending) {postTransferId : TransferId} {amount : Amount}
    {timestamp : U64} {e : LedgerError}
    (refused : l.admitPost pendingId postTransferId amount timestamp = .error e)
    : (∀ id, e ≠ .accountNotFound id) ∧ (e = .arithmeticOverflow → ¬l.PostFits hold amount) := by
  obtain ⟨debit, credit, debitsPending, creditsPending, reserved⟩ := backed.reserved found pending
  have distinct := (backed.stored pendingId hold found).distinct
  have debits := Amount.checkedSub_eq_ok.mpr reserved.debitLeft
  have credits := Amount.checkedSub_eq_ok.mpr reserved.creditLeft
  simp only [admitPost, bind_eq_error, checkTimestamp, ensure_eq_error, ensure_eq_ok,
    exists_const, pendingHold_eq_ok.mpr ⟨found, pending⟩, reduceCtorEq, Except.ok.injEq,
    exists_eq_left', false_or, getAccount_eq_ok.mpr reserved.debitFound, debits,
    getAccount_eq_ok.mpr reserved.creditFound, credits, Amount.checkedAdd_eq_error,
    Amount.checkedAdd_eq_ok] at refused
  have overflows (large : 2 ^ 128 ≤ debit.balance.debitsPosted.toNat + amount.toNat
      ∨ 2 ^ 128 ≤ credit.balance.creditsPosted.toNat + amount.toNat)
      : ¬l.PostFits hold amount := by
    intro fits
    have := fits debit credit reserved.debitFound reserved.creditFound
    omega
  rcases refused with ⟨-, rfl⟩ | ⟨-, ⟨-, rfl⟩ | ⟨-, ⟨-, rfl⟩ | ⟨-, ⟨-, rfl⟩ | ⟨positive, sums⟩⟩⟩⟩
  · exact ⟨nofun, nofun⟩
  · exact ⟨nofun, nofun⟩
  · exact ⟨nofun, nofun⟩
  · exact ⟨nofun, nofun⟩
  · rcases sums with ⟨large, rfl⟩ | ⟨_, -, ⟨large, rfl⟩ | ⟨_, -, unsettled⟩⟩
    · exact ⟨nofun, fun _ => overflows (.inl large)⟩
    · exact ⟨nofun, fun _ => overflows (.inr large)⟩
    · -- the settlement itself is always well formed
      have settled : Transfer.newSettlement postTransferId hold.debitAccountId
          hold.creditAccountId amount pendingId timestamp = .ok _ :=
        Transfer.validated_eq_ok.mpr ⟨distinct, Amount.isZero_eq_false.mp positive, rfl⟩
      rcases unsettled with failed | ⟨_, -, ends⟩
      · rw [settled] at failed
        cases failed
      · cases ends

/-- In every reachable ledger a pending hold can be released, and posted as long as the posted
totals fit. Witness: pending balances are the sums of the open holds.
-/
theorem holds_settleable {scale : Scale} (reached : Reachable scale l)
    (found : l.transfers[pendingId]? = some hold) (pending : hold.state = .pending)
    : l.Settleable pendingId hold where
  reserved := reached.backed.reserved found pending
  voids timestamp inOrder := by
    obtain ⟨debit, credit, debitsPending, creditsPending, reserved⟩ :=
      reached.backed.reserved found pending
    exact ⟨_, (voidPending_planned pendingId timestamp).accepts
      (admitVoid_eq_ok.mpr ⟨inOrder, found, pending, debit, credit, reserved⟩)⟩
  voidRefused {timestamp e l'} failed := by
    cases decided : l.admitVoid pendingId timestamp with
    | error e' =>
        rw [(voidPending_planned pendingId timestamp).rejects decided] at failed
        cases failed
        exact reached.backed.void_refused found pending decided
    | ok released =>
        rw [(voidPending_planned pendingId timestamp).accepts decided] at failed
        cases failed
  posts {postTransferId amount timestamp} unused positive within inOrder := by
    constructor
    · intro ⟨l', ran⟩ debit credit debitFound creditFound
      obtain ⟨plan, accepted, -⟩ := (postPending_planned _ _ _ _).ok_iff.mp ran
      have post := admitPost_eq_ok.mp accepted
      cases found.symm.trans post.found
      obtain ⟨debit', credit', reserved, debitSum, creditSum⟩ := post.reserved
      cases debitFound.symm.trans reserved.debitFound
      cases creditFound.symm.trans reserved.creditFound
      have debits := plan.debitsPosted.toNat_lt
      have credits := plan.creditsPosted.toNat_lt
      omega
    · intro fits
      obtain ⟨debit, credit, debitsPending, creditsPending, reserved⟩ :=
        reached.backed.reserved found pending
      obtain ⟨debits, credits⟩ := fits debit credit reserved.debitFound reserved.creditFound
      have post : l.Postable pendingId postTransferId amount timestamp {
          hold, debitsPending, creditsPending
          debitsPosted := ⟨⟨_, debits⟩⟩
          creditsPosted := ⟨⟨_, credits⟩⟩
          settlement := ⟨postTransferId, hold.debitAccountId, hold.creditAccountId, amount, .posted,
            some pendingId, timestamp⟩ } := {
        inOrder, unused, found, pending, within, positive
        distinct := (reached.backed.stored pendingId hold found).distinct
        reserved := ⟨debit, credit, reserved, rfl, rfl⟩
        settlement := rfl
      }
      exact ⟨_, (postPending_planned _ _ _ _).accepts (admitPost_eq_ok.mpr post)⟩
  postRefused {postTransferId amount timestamp e l'} failed := by
    cases decided : l.admitPost pendingId postTransferId amount timestamp with
    | error e' =>
        rw [(postPending_planned _ _ _ _).rejects decided] at failed
        cases failed
        exact reached.backed.post_refused found pending decided
    | ok plan =>
        rw [(postPending_planned _ _ _ _).accepts decided] at failed
        cases failed

/-- A customer's hold whose two accounts are closed before it is settled. -/
def closedAfterHold : List Mutation :=
  partialCapture.take 4 ++ [.closeAccount ⟨1⟩ 13, .closeAccount ⟨2⟩ 13]

/-- The hold on closed accounts can still be settled. -/
theorem holds_settleable_closedAfterHold
    : (Mutation.runAll ⟨2⟩ closedAfterHold).accounts.toList.all
        (fun entry => entry.2.flags.isClosed)
      ∧ (Mutation.runAll ⟨2⟩ closedAfterHold).Settleable ⟨11⟩
          ⟨⟨11⟩, ⟨2⟩, ⟨1⟩, ⟨50⟩, .pending, none, 12⟩ :=
  ⟨by decide, holds_settleable (reachable_runAll ⟨2⟩ closedAfterHold) (by decide) rfl⟩

end Settling

section Threshold

theorem availableWithin_eq_ok {posted pending limit available : Amount}
    : availableWithin posted pending limit = .ok available
      ↔ posted.toNat + pending.toNat < 2 ^ 128
        ∧ available.toNat = limit.toNat - (posted.toNat + pending.toNat) := by
  simp only [availableWithin, bind_eq_ok, Amount.checkedAdd_eq_ok]
  constructor
  · rintro ⟨total, sum, left⟩
    refine ⟨sum ▸ total.toNat_lt, ?_⟩
    rw [← sum]
    split at left
    · rename_i within
      cases left
      exact Fin.sub_val_of_le within
    · rename_i beyond
      cases left
      have : limit.toNat < total.toNat := Nat.lt_of_not_le beyond
      simp only [Amount.zero_toNat]
      omega
  · rintro ⟨fits, left⟩
    refine ⟨⟨⟨_, fits⟩⟩, rfl, ?_⟩
    split
    · rename_i within
      have same : (⟨limit.units - ⟨posted.toNat + pending.toNat, fits⟩⟩ : Amount) = available :=
        Amount.toNat_inj.mp (left ▸ Fin.sub_val_of_le within)
      rw [same]
      rfl
    · rename_i beyond
      have : limit.toNat < posted.toNat + pending.toNat := Nat.lt_of_not_le beyond
      have same : Amount.zero = available := by
        rw [← Amount.toNat_inj, left, Amount.zero_toNat]
        omega
      rw [same]
      rfl

/-- An account has an amount available on the debit side, if that side is limited. -/
def DebitAvailable (a : Account) (amount : Amount) : Prop :=
  a.flags.debitsMustNotExceedCredits = true
    → ∃ available, a.balance.availableLiability = .ok available ∧ amount.toNat ≤ available.toNat

/-- An account has an amount available on the credit side, if that side is limited. -/
def CreditAvailable (a : Account) (amount : Amount) : Prop :=
  a.flags.creditsMustNotExceedDebits = true
    → ∃ available, a.balance.availableAsset = .ok available ∧ amount.toNat ≤ available.toNat

/-- Within its limit, one side has room for what is published as available. -/
theorem available_iff_room {posted pending limit amount : Amount}
    (within : posted.toNat + pending.toNat ≤ limit.toNat)
    : (∃ available, availableWithin posted pending limit = .ok available
        ∧ amount.toNat ≤ available.toNat)
      ↔ posted.toNat + pending.toNat + amount.toNat ≤ limit.toNat := by
  have bound := limit.toNat_lt
  simp only [availableWithin_eq_ok]
  constructor
  · intro ⟨available, ⟨_, left⟩, enough⟩
    omega
  · intro room
    refine ⟨⟨⟨limit.toNat - (posted.toNat + pending.toNat), by omega⟩⟩, ⟨by omega, rfl⟩, ?_⟩
    exact Nat.le_sub_of_add_le (by omega)

variable {l : Ledger} {t : Transfer} {debit credit : Account}

/-- Both legs of a transfer between open accounts are admitted exactly up to what is available. -/
theorem Limited.legs_iff (limited : l.Limited)
    (debitFound : l.accounts[t.debitAccountId]? = some debit)
    (creditFound : l.accounts[t.creditAccountId]? = some credit)
    (debitOpen : debit.flags.isClosed = false) (creditOpen : credit.flags.isClosed = false)
    (debits credits : Balance → Amount)
    : (∃ newDebits newCredits, l.Legs t debits credits newDebits newCredits)
      ↔ DebitAvailable debit t.amount
        ∧ CreditAvailable credit t.amount
        ∧ (debits debit.balance).toNat + t.amount.toNat < 2 ^ 128
        ∧ (credits credit.balance).toNat + t.amount.toNat < 2 ^ 128 := by
  have debitRoom : debit.ensureCanDebit t.amount = .ok () ↔ DebitAvailable debit t.amount := by
    rw [Account.ensureCanDebit_eq_ok, and_iff_right debitOpen]
    refine forall_congr' fun flagged => ?_
    exact (available_iff_room ((limited _ debit debitFound).debits flagged)).symm
  have creditRoom
      : credit.ensureCanCredit t.amount = .ok () ↔ CreditAvailable credit t.amount := by
    rw [Account.ensureCanCredit_eq_ok, and_iff_right creditOpen]
    refine forall_congr' fun flagged => ?_
    exact (available_iff_room ((limited _ credit creditFound).credits flagged)).symm
  constructor
  · intro ⟨newDebits, newCredits, legs⟩
    obtain ⟨debit', found, canDebit, debitSum⟩ := legs.debit
    cases debitFound.symm.trans found
    obtain ⟨credit', found', canCredit, creditSum⟩ := legs.credit
    cases creditFound.symm.trans found'
    exact ⟨debitRoom.mp canDebit, creditRoom.mp canCredit, debitSum ▸ newDebits.toNat_lt,
      creditSum ▸ newCredits.toNat_lt⟩
  · intro ⟨debitAvailable, creditAvailable, debitFits, creditFits⟩
    exact ⟨⟨⟨_, debitFits⟩⟩, ⟨⟨_, creditFits⟩⟩,
      ⟨debit, debitFound, debitRoom.mpr debitAvailable, rfl⟩,
      ⟨credit, creditFound, creditRoom.mpr creditAvailable, rfl⟩⟩

/-- In every reachable ledger a new transfer or hold between open accounts is accepted exactly if
the published available balances cover it and the components it raises fit.
-/
theorem available_is_threshold {scale : Scale} (reached : Reachable scale l) {id : TransferId}
    {debitId creditId : AccountId} {amount : Amount} {timestamp : U64}
    (unused : l.transfers[id]? = none) (inOrder : l.lastTimestamp ≤ timestamp)
    (debitFound : l.accounts[debitId]? = some debit)
    (creditFound : l.accounts[creditId]? = some credit)
    (debitOpen : debit.flags.isClosed = false) (creditOpen : credit.flags.isClosed = false)
    : (∀ t, Transfer.newImmediate id debitId creditId amount timestamp = .ok t →
        ((∃ l', createTransfer t l = .ok () l')
          ↔ DebitAvailable debit amount
            ∧ CreditAvailable credit amount
            ∧ debit.balance.debitsPosted.toNat + amount.toNat < 2 ^ 128
            ∧ credit.balance.creditsPosted.toNat + amount.toNat < 2 ^ 128))
      ∧ ∀ t, Transfer.newPending id debitId creditId amount timestamp = .ok t →
          ((∃ l', createPending t l = .ok () l')
            ↔ DebitAvailable debit amount
              ∧ CreditAvailable credit amount
              ∧ debit.balance.debitsPending.toNat + amount.toNat < 2 ^ 128
              ∧ credit.balance.creditsPending.toNat + amount.toNat < 2 ^ 128) := by
  constructor
  · intro t built
    obtain ⟨distinct, positive, rfl⟩ := Transfer.validated_eq_ok.mp built
    rw [← reached.limited.legs_iff (t := ⟨id, debitId, creditId, amount, .posted, none, timestamp⟩)
      debitFound creditFound debitOpen creditOpen]
    constructor
    · intro ⟨l', ran⟩
      obtain ⟨raised, accepted, -⟩ := (createTransfer_planned _).ok_iff.mp ran
      exact ⟨_, _, (admitTransfer_eq_ok.mp accepted).2.2.2.2⟩
    · intro ⟨newDebits, newCredits, legs⟩
      have fresh : l.Fresh ⟨id, debitId, creditId, amount, .posted, none, timestamp⟩ :=
        ⟨unused, distinct, positive, fun _ => rfl⟩
      exact ⟨_, (createTransfer_planned _).accepts
        (admitTransfer_eq_ok.mpr ⟨inOrder, rfl, fresh, nofun, legs⟩)⟩
  · intro t built
    obtain ⟨distinct, positive, rfl⟩ := Transfer.validated_eq_ok.mp built
    rw [← reached.limited.legs_iff (t := ⟨id, debitId, creditId, amount, .pending, none, timestamp⟩)
      debitFound creditFound debitOpen creditOpen]
    constructor
    · intro ⟨l', ran⟩
      obtain ⟨raised, accepted, -⟩ := (createPending_planned _).ok_iff.mp ran
      exact ⟨_, _, (admitPending_eq_ok.mp accepted).2.2.2⟩
    · intro ⟨newDebits, newCredits, legs⟩
      have fresh : l.Fresh ⟨id, debitId, creditId, amount, .pending, none, timestamp⟩ :=
        ⟨unused, distinct, positive, fun _ => rfl⟩
      exact ⟨_, (createPending_planned _).accepts
        (admitPending_eq_ok.mpr ⟨inOrder, rfl, fresh, legs⟩)⟩

/-- After a partial capture the customer has 70 available, and exactly that can be transferred. -/
theorem available_is_threshold_partialCapture
    : (∃ l', createTransfer ⟨⟨20⟩, ⟨2⟩, ⟨1⟩, ⟨70⟩, .posted, none, 14⟩
        (Mutation.runAll ⟨2⟩ partialCapture) = .ok () l')
      ∧ ¬ ∃ l', createTransfer ⟨⟨20⟩, ⟨2⟩, ⟨1⟩, ⟨71⟩, .posted, none, 14⟩
        (Mutation.runAll ⟨2⟩ partialCapture) = .ok () l' := by
  have customer : (Mutation.runAll ⟨2⟩ partialCapture).accounts[(⟨2⟩ : AccountId)]?
      = some ⟨⟨2⟩, .liability, .customer, ⟨2⟩, ⟨⟨30⟩, ⟨100⟩, ⟨0⟩, ⟨0⟩⟩⟩ := by decide
  have vault : (Mutation.runAll ⟨2⟩ partialCapture).accounts[(⟨1⟩ : AccountId)]?
      = some ⟨⟨1⟩, .asset, .unrestricted, ⟨2⟩, ⟨⟨100⟩, ⟨30⟩, ⟨0⟩, ⟨0⟩⟩⟩ := by decide
  have unused : (Mutation.runAll ⟨2⟩ partialCapture).transfers[(⟨20⟩ : TransferId)]? = none := by
    decide
  have inOrder : (Mutation.runAll ⟨2⟩ partialCapture).lastTimestamp ≤ 14 := by decide
  have available : Balance.availableLiability ⟨⟨30⟩, ⟨100⟩, ⟨0⟩, ⟨0⟩⟩ = .ok ⟨70⟩ := by decide
  have reached := reachable_runAll ⟨2⟩ partialCapture
  constructor
  · have built : Transfer.newImmediate ⟨20⟩ ⟨2⟩ ⟨1⟩ ⟨70⟩ 14 = .ok _ := rfl
    refine ((available_is_threshold reached unused inOrder customer vault rfl rfl).1 _ built).mpr
      ⟨fun _ => ⟨⟨70⟩, available, le_rfl⟩, nofun, ?_⟩
    decide
  · have built : Transfer.newImmediate ⟨20⟩ ⟨2⟩ ⟨1⟩ ⟨71⟩ 14 = .ok _ := rfl
    intro accepted
    obtain ⟨left, published, covered⟩ :=
      (((available_is_threshold reached unused inOrder customer vault rfl rfl).1 _ built).mp
        accepted).1 rfl
    cases available.symm.trans published
    exact absurd covered (by decide)

end Threshold

end Ledger

end TrustLedger.LedgerCore
