import TrustLedger.LedgerCore.Balances

/-! Conservation and structural backing: debits equal credits, posted and pending, every
pending balance is the sum of the holds on it, and stored transfers are well formed.
-/

namespace TrustLedger.LedgerCore

open Foundation Foundation.FiniteMap

namespace Ledger

/-- What a transfer contributes to the reservation on `account`, seen from one side. -/
def heldBy (side : Transfer → AccountId) (account : AccountId) (t : Transfer) : Nat :=
  if t.state = .pending ∧ side t = account then t.amount.toNat else 0

/-- Sum of the amounts of the pending transfers whose `side` is `account`. -/
def held (side : Transfer → AccountId) (account : AccountId) (l : Ledger) : Nat :=
  total (fun _ t => heldBy side account t) l.transfers

/-- What is true of every transfer stored under `id`. -/
structure Stored (l : Ledger) (id : TransferId) (t : Transfer) : Prop where
  ownId : t.id = id
  distinct : t.debitAccountId ≠ t.creditAccountId
  debitExists : l.accounts[t.debitAccountId]?.isSome
  creditExists : l.accounts[t.creditAccountId]?.isSome
  positive : 0 < t.amount.toNat
  unlinked : t.state = .pending ∨ t.state = .voided → t.pendingId = none
  linked : t.state = .posted → l.LinkPosted t

/-- Stored transfers are well formed. -/
def AllStored (l : Ledger) : Prop :=
  ∀ id t, l.transfers[id]? = some t → l.Stored id t

/-- Balances, transfers and links agree. -/
structure Backed (l : Ledger) : Prop where
  posted : balanceSum Balance.debitsPosted l = balanceSum Balance.creditsPosted l
  pending : balanceSum Balance.debitsPending l = balanceSum Balance.creditsPending l
  debitsHeld
    : ∀ id account, l.accounts[id]? = some account
      → account.balance.debitsPending.toNat = held Transfer.debitAccountId id l
  creditsHeld
    : ∀ id account, l.accounts[id]? = some account
      → account.balance.creditsPending.toNat = held Transfer.creditAccountId id l
  stored : l.AllStored

/-- The holds seen from `side` change on the transfer's own account only. -/
def HeldMoves (side : Transfer → AccountId) (t : Transfer) (reserved released : Nat) (l l' : Ledger)
    : Prop :=
  ∀ id, held side id l' + (if side t = id then released else 0)
    = held side id l + (if side t = id then reserved else 0)

section Moved

variable {l l' : Ledger} {t : Transfer} {debit credit : Account} {f g : Balance → Balance}
  {posted reserved released : Nat}

/-- Moving the same amounts on both sides keeps the books balanced, as long as the holds move
with the pending totals. Witness: the sums move by the same amounts on both sides, and each
account by the amounts of its own side.
-/
theorem Backed.moved (backed : l.Backed) (moves : Moves debit credit f g posted reserved released)
    (distinct : t.debitAccountId ≠ t.creditAccountId)
    (debitFound : l.accounts[t.debitAccountId]? = some debit)
    (creditFound : l.accounts[t.creditAccountId]? = some credit)
    (accounts : l'.accounts = (l.withLegs t f g).accounts)
    (debitsMove : HeldMoves Transfer.debitAccountId t reserved released l l')
    (creditsMove : HeldMoves Transfer.creditAccountId t reserved released l l')
    (stored : l'.AllStored)
    : l'.Backed := by
  have sums (component : Balance → Amount)
      : balanceSum component l' = balanceSum component (l.withLegs t f g) := by
    simp only [balanceSum, accounts]
  have shift := fun component =>
    balanceSum_withLegs (f := f) (g := g) component distinct debitFound creditFound
  obtain ⟨debitsPosted, debitsPending, debitOther, creditsPosted, creditsPending, creditOther⟩ :=
    moves
  refine { posted := ?_, pending := ?_, debitsHeld := ?_, creditsHeld := ?_, stored := stored }
  · have before := backed.posted
    have debits := shift Balance.debitsPosted
    have credits := shift Balance.creditsPosted
    rw [creditOther.1] at debits
    rw [debitOther.1] at credits
    rw [sums, sums]
    omega
  · have before := backed.pending
    have debits := shift Balance.debitsPending
    have credits := shift Balance.creditsPending
    rw [creditOther.2] at debits
    rw [debitOther.2] at credits
    rw [sums, sums]
    omega
  · intro id account' found
    rw [accounts] at found
    obtain ⟨account, before, -, side⟩ := withLegs_cases distinct found
    have backing := backed.debitsHeld id account before
    have moved := debitsMove id
    rcases side with ⟨rfl, balance⟩ | ⟨rfl, balance⟩ | ⟨notDebit, -, balance⟩
    · obtain rfl : debit = account := Option.some.inj (debitFound.symm.trans before)
      rw [if_pos rfl, if_pos rfl] at moved
      rw [balance]
      omega
    · -- the credit account's debit holds are untouched: the two legs differ
      obtain rfl : credit = account := Option.some.inj (creditFound.symm.trans before)
      rw [if_neg distinct, if_neg distinct] at moved
      rw [balance, creditOther.2]
      omega
    · rw [if_neg (Ne.symm notDebit), if_neg (Ne.symm notDebit)] at moved
      rw [balance]
      omega
  · intro id account' found
    rw [accounts] at found
    obtain ⟨account, before, -, side⟩ := withLegs_cases distinct found
    have backing := backed.creditsHeld id account before
    have moved := creditsMove id
    rcases side with ⟨rfl, balance⟩ | ⟨rfl, balance⟩ | ⟨-, notCredit, balance⟩
    · obtain rfl : debit = account := Option.some.inj (debitFound.symm.trans before)
      rw [if_neg (Ne.symm distinct), if_neg (Ne.symm distinct)] at moved
      rw [balance, debitOther.2]
      omega
    · obtain rfl : credit = account := Option.some.inj (creditFound.symm.trans before)
      rw [if_pos rfl, if_pos rfl] at moved
      rw [balance]
      omega
    · rw [if_neg (Ne.symm notCredit), if_neg (Ne.symm notCredit)] at moved
      rw [balance]
      omega

end Moved

variable {l l' : Ledger} {t hold : Transfer} {id : TransferId} {f g : Balance → Balance}
  {scale : Scale}

theorem held_withTransfer (side : Transfer → AccountId) (account : AccountId)
    (unused : l.transfers[t.id]? = none)
    : held side account (l.withTransfer t) = heldBy side account t + held side account l :=
  total_insert_new _ unused

theorem held_withMoved (moved : Transfer) (side : Transfer → AccountId) (account : AccountId)
    (found : l.transfers[id]? = some hold)
    : held side account (l.withMoved id moved) + heldBy side account hold
      = held side account l + heldBy side account moved :=
  total_modify _ found

theorem heldBy_settled (settled : t.state ≠ .pending) (side : Transfer → AccountId)
    (account : AccountId)
    : heldBy side account t = 0 :=
  if_neg fun holds => settled holds.1

theorem heldBy_pending (pending : t.state = .pending) (side : Transfer → AccountId)
    (account : AccountId)
    : heldBy side account t = if side t = account then t.amount.toNat else 0 := by
  simp only [heldBy, pending, true_and]

section HeldMoves

variable {l : Ledger} {t hold : Transfer} {side : Transfer → AccountId}

theorem HeldMoves.pending (unused : l.transfers[t.id]? = none) (pending : t.state = .pending)
    : HeldMoves side t t.amount.toNat 0 l (l.withTransfer t) := by
  intro account
  rw [held_withTransfer side account unused, heldBy_pending pending, ite_self, Nat.add_zero,
    Nat.add_comm]

theorem HeldMoves.released {id : TransferId} {state : TransferState}
    (found : l.transfers[id]? = some hold) (pending : hold.state = .pending)
    (settled : state ≠ .pending)
    : HeldMoves side hold 0 hold.amount.toNat l (l.withMoved id { hold with state }) := by
  intro account
  have moved := held_withMoved { hold with state } side account found
  rw [heldBy_pending pending, heldBy_settled settled] at moved
  rw [ite_self]
  exact moved

theorem HeldMoves.then_settled {l₀ : Ledger} {reserved released : Nat}
    (moves : HeldMoves side hold reserved released l₀ l) (unused : l.transfers[t.id]? = none)
    (settled : t.state ≠ .pending)
    : HeldMoves side hold reserved released l₀ (l.withTransfer t) := by
  intro account
  rw [held_withTransfer side account unused, heldBy_settled settled, Nat.zero_add]
  exact moves account

theorem HeldMoves.settled {other : Transfer} (unused : l.transfers[t.id]? = none)
    (settled : t.state ≠ .pending)
    : HeldMoves side other 0 0 l (l.withTransfer t) :=
  HeldMoves.then_settled (fun _ => rfl) unused settled

end HeldMoves

/-- Transfers that are posted in `l` are posted in `l'`. -/
def KeepsPosted (l l' : Ledger) : Prop :=
  ∀ (id : TransferId) (hold : Transfer), l.transfers[id]? = some hold → hold.state = .posted
    → ∃ hold', l'.transfers[id]? = some hold' ∧ hold'.state = .posted

theorem LinkPosted.mono (linked : l.LinkPosted t) (kept : KeepsPosted l l') : l'.LinkPosted t := by
  intro pendingId link
  obtain ⟨hold, found, posted⟩ := linked pendingId link
  exact kept pendingId hold found posted

theorem Stored.mono (stored : l.Stored id t)
    (accounts : ∀ id : AccountId, l.accounts[id]?.isSome → l'.accounts[id]?.isSome)
    (kept : KeepsPosted l l')
    : l'.Stored id t :=
  { stored with
    debitExists := accounts _ stored.debitExists
    creditExists := accounts _ stored.creditExists
    linked := fun posted => (stored.linked posted).mono kept }

theorem AllStored.accounts (all : l.AllStored) (transfers : l'.transfers = l.transfers)
    (accounts : ∀ id : AccountId, l.accounts[id]?.isSome → l'.accounts[id]?.isSome)
    : l'.AllStored := by
  intro id t found
  rw [transfers] at found
  apply (all id t found).mono accounts
  intro id hold there posted
  exact ⟨hold, by rw [transfers]; exact there, posted⟩

theorem AllStored.withLegs (all : l.AllStored) (t : Transfer) : (l.withLegs t f g).AllStored :=
  all.accounts rfl fun _ there => withLegs_isSome.trans there

theorem Stored.withLegs {stored : Transfer} (wellFormed : l.Stored id stored) (t : Transfer)
    : (l.withLegs t f g).Stored id stored :=
  wellFormed.mono (fun _ there => withLegs_isSome.trans there)
    fun _ hold there posted => ⟨hold, there, posted⟩

theorem AllStored.withTransfer (all : l.AllStored) (unused : l.transfers[t.id]? = none)
    (stored : l.Stored t.id t)
    : (l.withTransfer t).AllStored := by
  have kept : KeepsPosted l (l.withTransfer t) := by
    intro id hold found posted
    refine ⟨hold, ?_, posted⟩
    have other : t.id ≠ id := by
      rintro rfl
      rw [unused] at found
      cases found
    simp [Ledger.withTransfer, Std.ExtTreeMap.getElem?_insert, other, found]
  intro id t' found
  simp only [Ledger.withTransfer, Std.ExtTreeMap.getElem?_insert,
    Std.LawfulEqCmp.compare_eq_iff_eq] at found
  split at found
  · rename_i same
    subst same
    cases found
    exact stored.mono (fun _ there => there) kept
  · exact (all id t' found).mono (fun _ there => there) kept

theorem AllStored.withMoved {state : TransferState} (all : l.AllStored)
    (found : l.transfers[id]? = some hold) (pending : hold.state = .pending)
    : (l.withMoved id { hold with state }).AllStored := by
  have kept : KeepsPosted l (l.withMoved id { hold with state }) := by
    intro id' other there posted
    have elsewhere : id ≠ id' := by
      rintro rfl
      cases found.symm.trans there
      rw [pending] at posted
      cases posted
    exact ⟨other, by simp [Ledger.withMoved, Std.ExtTreeMap.getElem?_modify, elsewhere, there],
      posted⟩
  intro id' t there
  simp only [Ledger.withMoved, Std.ExtTreeMap.getElem?_modify,
    Std.LawfulEqCmp.compare_eq_iff_eq] at there
  split at there
  · rename_i same
    subst same
    rw [found, Option.map_some, Option.some_inj] at there
    subst there
    -- a hold carries no link, so turning it posted leaves no link to justify
    have unlinked : hold.pendingId = none := (all id hold found).unlinked (.inl pending)
    have before : (l.withMoved id { hold with state }).Stored id hold :=
      (all id hold found).mono (fun _ there => there) kept
    exact {
      before with
      unlinked := fun _ => unlinked
      linked := by
        intro _ pendingId link
        cases unlinked.symm.trans link }
  · exact (all id' t there).mono (fun _ there => there) kept

theorem held_eq_zero {id : AccountId} {side : Transfer → AccountId}
    (named : ∀ (transferId : TransferId) (t : Transfer), l.transfers[transferId]? = some t
      → l.accounts[side t]?.isSome) (unused : l.accounts[id]? = none)
    : held side id l = 0 := by
  apply total_eq_zero
  intro transferId t found
  apply if_neg
  rintro ⟨-, rfl⟩
  have exists' := named transferId t found
  rw [unused] at exists'
  cases exists'

theorem Backed.accountCreated {l : Ledger} {account : Account} {id : AccountId}
    (backed : l.Backed) (unused : l.accounts[id]? = none) (empty : account.balance = .new)
    : { l with accounts := l.accounts.insert id account }.Backed := by
  have sums (component : Balance → Amount) (zero : component .new = .zero)
      : balanceSum component { l with accounts := l.accounts.insert id account }
        = balanceSum component l := by
    simp only [balanceSum, total_insert_new _ unused, empty, zero, Amount.zero_toNat, zero_add]
  have lookup {id' : AccountId} {account' : Account}
      (found : (l.accounts.insert id account)[id']? = some account')
      : id = id' ∧ account'.balance = .new ∨ l.accounts[id']? = some account' := by
    rw [Std.ExtTreeMap.getElem?_insert] at found
    split at found
    · rename_i same
      exact .inl ⟨Std.LawfulEqCmp.eq_of_compare same, by cases found; exact empty⟩
    · exact .inr found
  refine { posted := ?_, pending := ?_, debitsHeld := ?_, creditsHeld := ?_, stored := ?_ }
  · rw [sums _ rfl, sums _ rfl]
    exact backed.posted
  · rw [sums _ rfl, sums _ rfl]
    exact backed.pending
  · intro id' account' found
    rcases lookup found with ⟨rfl, balance⟩ | before
    · rw [balance]
      exact (held_eq_zero (fun id t there => (backed.stored id t there).debitExists) unused).symm
    · exact backed.debitsHeld id' account' before
  · intro id' account' found
    rcases lookup found with ⟨rfl, balance⟩ | before
    · rw [balance]
      exact (held_eq_zero (fun id t there => (backed.stored id t there).creditExists) unused).symm
    · exact backed.creditsHeld id' account' before
  · refine AllStored.accounts (l := l) backed.stored rfl fun id' there => ?_
    simp only [Std.ExtTreeMap.getElem?_insert]
    split
    · rfl
    · exact there

theorem Backed.accountRewritten {f : Account → Account} {id : AccountId} {account : Account}
    (backed : l.Backed) (found : l.accounts[id]? = some account)
    (kept : ∀ a, (f a).balance = a.balance)
    : { l with accounts := l.accounts.modify id f }.Backed := by
  have sums (component : Balance → Amount)
      : balanceSum component { l with accounts := l.accounts.modify id f }
        = balanceSum component l := by
    have traded :=
      total_modify (fun _ account => (component account.balance).toNat) (f := f) found
    simp only [kept] at traded
    exact Nat.add_right_cancel traded
  have lookup {id' : AccountId} {account' : Account}
      (there : (l.accounts.modify id f)[id']? = some account')
      : ∃ before, l.accounts[id']? = some before ∧ account'.balance = before.balance := by
    rw [Std.ExtTreeMap.getElem?_modify] at there
    split at there
    · rename_i same
      obtain rfl := Std.LawfulEqCmp.eq_of_compare same
      obtain ⟨before, present, rfl⟩ := Option.map_eq_some_iff.mp there
      exact ⟨before, present, kept before⟩
    · exact ⟨account', there, rfl⟩
  refine { posted := ?_, pending := ?_, debitsHeld := ?_, creditsHeld := ?_, stored := ?_ }
  · rw [sums, sums]
    exact backed.posted
  · rw [sums, sums]
    exact backed.pending
  · intro id' account' there
    obtain ⟨before, present, balance⟩ := lookup there
    rw [balance]
    exact backed.debitsHeld id' before present
  · intro id' account' there
    obtain ⟨before, present, balance⟩ := lookup there
    rw [balance]
    exact backed.creditsHeld id' before present
  · refine AllStored.accounts (l := l) backed.stored rfl fun id' there => ?_
    simpa [Std.ExtTreeMap.contains_modify] using there

theorem Backed.logged (backed : l.Backed) (event : LedgerEvent) (timestamp : U64)
    : (l.logged event timestamp).Backed :=
  ⟨backed.posted, backed.pending, backed.debitsHeld, backed.creditsHeld,
    fun id t found =>
      (backed.stored id t found).mono (fun _ there => there)
        fun _ hold there posted => ⟨hold, there, posted⟩⟩

theorem Legs.stored {debits credits : Balance → Amount} {newDebits newCredits : Amount}
    (legs : l.Legs t debits credits newDebits newCredits) (fresh : l.Fresh t)
    (settling : t.state = .pending ∨ t.state = .posted)
    (linked : t.state = .posted → l.LinkPosted t)
    : l.Stored t.id t := by
  obtain ⟨⟨debit, debitFound, -⟩, ⟨credit, creditFound, -⟩⟩ := legs
  refine ⟨rfl, fresh.distinct, by simp [debitFound], by simp [creditFound], fresh.positive,
    ?_, linked⟩
  rintro (pending | voided)
  · exact fresh.unlinked pending
  · rcases settling with state | state
    · rw [state] at voided
      cases voided
    · rw [state] at voided
      cases voided

theorem Postable.stored {pendingId postTransferId : TransferId} {amount : Amount} {timestamp : U64}
    {plan : PostPlan} (post : l.Postable pendingId postTransferId amount timestamp plan)
    : ((l.withLegs plan.hold f g).withMoved pendingId { plan.hold with state := .posted }).Stored
        plan.settlement.id plan.settlement := by
  obtain ⟨debit, credit, reserved, -, -⟩ := post.reserved
  rw [post.settlement]
  refine ⟨rfl, post.distinct, ?_, ?_, post.positive, by simp, ?_⟩
  · exact withLegs_isSome.trans (by simp [reserved.debitFound])
  · exact withLegs_isSome.trans (by simp [reserved.creditFound])
  · rintro - _ ⟨⟩
    refine ⟨{ plan.hold with state := .posted }, ?_, rfl⟩
    simp [withMoved, withLegs, withBalance, post.found]

/-- Every accepted event keeps the books balanced and backed. -/
theorem Backed.step {event : LedgerEvent} (backed : l.Backed) (step : l.Step event l')
    : l'.Backed := by
  cases step with
  | accountCreated inOrder unused => exact (backed.accountCreated unused rfl).logged _ _
  | accountClosed inOrder found isOpen =>
      apply Backed.logged
      exact backed.accountRewritten found fun _ => rfl
  | @transferPosted t newDebits newCredits inOrder posted fresh linked legs =>
      obtain ⟨⟨debit, debitFound, -⟩, ⟨credit, creditFound, -⟩⟩ := id legs
      have settled : t.state ≠ .pending := by simp [posted]
      apply Backed.logged
      refine backed.moved (legs.posts debitFound creditFound) fresh.distinct debitFound
        creditFound rfl ?_ ?_ ?_
      · exact HeldMoves.settled (l := l.withLegs t _ _) fresh.unused settled
      · exact HeldMoves.settled (l := l.withLegs t _ _) fresh.unused settled
      · exact (backed.stored.withLegs t).withTransfer fresh.unused
          ((legs.stored fresh (.inr posted) fun _ => linked).withLegs t)
  | @transferPendingCreated t newDebits newCredits inOrder pending fresh legs =>
      obtain ⟨⟨debit, debitFound, -⟩, ⟨credit, creditFound, -⟩⟩ := id legs
      have unposted : t.state ≠ .posted := by simp [pending]
      apply Backed.logged
      refine backed.moved (legs.reserves debitFound creditFound) fresh.distinct debitFound
        creditFound rfl ?_ ?_ ?_
      · exact HeldMoves.pending (l := l.withLegs t _ _) fresh.unused pending
      · exact HeldMoves.pending (l := l.withLegs t _ _) fresh.unused pending
      · exact (backed.stored.withLegs t).withTransfer fresh.unused
          ((legs.stored fresh (.inl pending) fun posted => absurd posted unposted).withLegs t)
  | @transferPendingPosted pendingId postTransferId amount timestamp plan post =>
      obtain ⟨debit, credit, reserved, debitSum, creditSum⟩ := post.reserved
      have settlement := post.settlement
      have unused : l.transfers[plan.settlement.id]? = none := by
        rw [settlement]
        exact post.unused
      have settled : plan.settlement.state ≠ .pending := by simp [settlement]
      have moved (f g : Balance → Balance)
          : ((l.withLegs plan.hold f g).withMoved pendingId
              { plan.hold with state := .posted }).transfers[plan.settlement.id]? = none :=
        withMoved_absent (l := l.withLegs plan.hold f g) unused
      apply Backed.logged
      refine backed.moved (reserved.captures debitSum creditSum) post.distinct
        reserved.debitFound reserved.creditFound rfl ?_ ?_ ?_
      · exact (HeldMoves.released (l := l.withLegs plan.hold _ _) post.found post.pending
          (by simp)).then_settled (moved _ _) settled
      · exact (HeldMoves.released (l := l.withLegs plan.hold _ _) post.found post.pending
          (by simp)).then_settled (moved _ _) settled
      · exact ((backed.stored.withLegs plan.hold).withMoved post.found
          post.pending).withTransfer (moved _ _) post.stored
  | @transferPendingVoided pendingId timestamp hold debit credit debitsPending creditsPending
      inOrder found pending reserved =>
      -- a void does not compare the accounts; they differ because the hold was stored
      have distinct := (backed.stored pendingId hold found).distinct
      apply Backed.logged
      refine backed.moved reserved.releases distinct reserved.debitFound reserved.creditFound
        rfl ?_ ?_ ?_
      · exact HeldMoves.released (l := l.withLegs hold _ _) found pending (by simp)
      · exact HeldMoves.released (l := l.withLegs hold _ _) found pending (by simp)
      · exact (backed.stored.withLegs hold).withMoved found pending

theorem backed_new (scale : Scale) : (new scale).Backed := by
  refine { posted := rfl, pending := rfl, debitsHeld := ?_, creditsHeld := ?_, stored := ?_ }
  · intro id account found
    simp [new] at found
  · intro id account found
    simp [new] at found
  · intro id t found
    simp [new] at found

theorem Reachable.backed (reached : Reachable scale l) : l.Backed :=
  reached.invariant Backed.step (backed_new scale)

/-- What steps from backed ledgers preserve holds of every reachable ledger. -/
theorem Reachable.invariant_backed {P : Ledger → Prop}
    (preserved : ∀ {l event l'}, l.Backed → P l → l.Step event l' → P l')
    (reached : Reachable scale l) (initial : P (.new scale))
    : P l := by
  have both : l.Backed ∧ P l := by
    refine reached.invariant (P := fun l => l.Backed ∧ P l) ?_ ⟨backed_new scale, initial⟩
    intro l event l' holds step
    exact ⟨holds.1.step step, preserved holds.1 holds.2 step⟩
  exact both.2

/-- In every reachable ledger debits equal credits, posted and pending, every pending balance
is exactly the sum of its holds, and every stored transfer is well formed.
-/
theorem reachable_backed {scale : Scale} {l : Ledger} (reached : Reachable scale l) : l.Backed :=
  reached.backed

/-- After a partial capture the books hold the funding and the captured part. -/
theorem backed_partialCapture
    : balanceSum Balance.creditsPosted (Mutation.runAll ⟨2⟩ partialCapture) = 130
      ∧ (Mutation.runAll ⟨2⟩ partialCapture).Backed :=
  ⟨by decide, reachable_backed (reachable_runAll ⟨2⟩ partialCapture)⟩

end Ledger

end TrustLedger.LedgerCore
