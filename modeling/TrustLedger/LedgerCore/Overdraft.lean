import TrustLedger.LedgerCore.Conservation

/-! No overdraft: an account limited by its flags stays within its limit through immediate
transfers, holds, full and partial captures, voids and closures.
-/

namespace TrustLedger.LedgerCore

open Foundation

/-- The bounds an account's flags impose, over the integers. -/
structure Account.WithinLimits (a : Account) : Prop where
  debits
    : a.flags.debitsMustNotExceedCredits = true
      → a.balance.debitsPosted.toNat + a.balance.debitsPending.toNat
        ≤ a.balance.creditsPosted.toNat
  credits
    : a.flags.creditsMustNotExceedDebits = true
      → a.balance.creditsPosted.toNat + a.balance.creditsPending.toNat
        ≤ a.balance.debitsPosted.toNat

namespace Ledger

/-- Every account is within its limits. -/
def Limited (l : Ledger) : Prop :=
  ∀ (id : AccountId) (account : Account), l.accounts[id]? = some account
    → account.WithinLimits

/-- Money may move as long as each limited side has room for it, counting what it releases. -/
theorem Limited.moved {l l' : Ledger} {t : Transfer} {debit credit : Account}
    {f g : Balance → Balance} {posted reserved released : Nat} (limited : l.Limited)
    (moves : Moves debit credit f g posted reserved released)
    (distinct : t.debitAccountId ≠ t.creditAccountId)
    (debitFound : l.accounts[t.debitAccountId]? = some debit)
    (creditFound : l.accounts[t.creditAccountId]? = some credit) (debitRoom
      : debit.flags.debitsMustNotExceedCredits = true
        → debit.balance.debitsPosted.toNat + debit.balance.debitsPending.toNat + posted + reserved
          ≤ debit.balance.creditsPosted.toNat + released) (creditRoom
      : credit.flags.creditsMustNotExceedDebits = true
        → credit.balance.creditsPosted.toNat + credit.balance.creditsPending.toNat + posted
            + reserved
          ≤ credit.balance.debitsPosted.toNat + released)
    (accounts : l'.accounts = (l.withLegs t f g).accounts)
    : l'.Limited := by
  obtain ⟨debitsPosted, debitsPending, debitOther, creditsPosted, creditsPending, creditOther⟩ :=
    moves
  intro id account' found
  rw [accounts] at found
  obtain ⟨account, before, flags, side⟩ := withLegs_cases distinct found
  have within := limited id account before
  rcases side with ⟨rfl, balance⟩ | ⟨rfl, balance⟩ | ⟨-, -, balance⟩
  · -- the debit side: its own limit needs the room, the opposite limit only gains from it
    obtain rfl : debit = account := Option.some.inj (debitFound.symm.trans before)
    constructor
    · intro flagged
      have room := debitRoom (flags ▸ flagged)
      rw [balance, debitOther.1]
      omega
    · intro flagged
      have bound := within.credits (flags ▸ flagged)
      rw [balance, debitOther.1, debitOther.2]
      omega
  · obtain rfl : credit = account := Option.some.inj (creditFound.symm.trans before)
    constructor
    · intro flagged
      have bound := within.debits (flags ▸ flagged)
      rw [balance, creditOther.1, creditOther.2]
      omega
    · intro flagged
      have room := creditRoom (flags ▸ flagged)
      rw [balance, creditOther.1]
      omega
  · constructor
    · intro flagged
      rw [balance]
      exact within.debits (flags ▸ flagged)
    · intro flagged
      rw [balance]
      exact within.credits (flags ▸ flagged)

theorem Legs.room {l : Ledger} {t : Transfer} {debits credits : Balance → Amount}
    {newDebits newCredits : Amount} (legs : l.Legs t debits credits newDebits newCredits)
    : ∃ debit credit,
        l.accounts[t.debitAccountId]? = some debit
        ∧ l.accounts[t.creditAccountId]? = some credit
        ∧ (debit.flags.debitsMustNotExceedCredits = true
          → debit.balance.debitsPosted.toNat + debit.balance.debitsPending.toNat
              + t.amount.toNat
            ≤ debit.balance.creditsPosted.toNat)
        ∧ (credit.flags.creditsMustNotExceedDebits = true
          → credit.balance.creditsPosted.toNat + credit.balance.creditsPending.toNat
              + t.amount.toNat
            ≤ credit.balance.debitsPosted.toNat) := by
  obtain ⟨⟨debit, debitFound, canDebit, -⟩, ⟨credit, creditFound, canCredit, -⟩⟩ := legs
  exact ⟨debit, credit, debitFound, creditFound, (Account.ensureCanDebit_eq_ok.mp canDebit).2,
    (Account.ensureCanCredit_eq_ok.mp canCredit).2⟩

/-- Every accepted event keeps limited accounts within their limits. A capture or void is not
guarded, but it releases at least what it posts.
-/
theorem Limited.step {l l' : Ledger} {event : LedgerEvent} (limited : l.Limited)
    (backed : l.Backed) (step : l.Step event l')
    : l'.Limited := by
  cases step with
  | @accountCreated id accountType flags timestamp inOrder unused =>
      intro id' account found
      simp only [logged, Std.ExtTreeMap.getElem?_insert] at found
      split at found
      · cases found
        exact ⟨fun _ => Nat.le_refl 0, fun _ => Nat.le_refl 0⟩
      · exact limited id' account found
  | @accountClosed id closing timestamp inOrder there isOpen =>
      intro id' account found
      simp only [logged, Std.ExtTreeMap.getElem?_modify] at found
      split at found
      · obtain ⟨before, present, rfl⟩ := Option.map_eq_some_iff.mp found
        exact ⟨(limited _ before present).debits, (limited _ before present).credits⟩
      · exact limited id' account found
  | transferPosted inOrder posted fresh linked legs =>
      obtain ⟨debit, credit, debitFound, creditFound, debitRoom, creditRoom⟩ := legs.room
      exact limited.moved (legs.posts debitFound creditFound) fresh.distinct debitFound
        creditFound debitRoom creditRoom rfl
  | transferPendingCreated inOrder pending fresh legs =>
      obtain ⟨debit, credit, debitFound, creditFound, debitRoom, creditRoom⟩ := legs.room
      exact limited.moved (legs.reserves debitFound creditFound) fresh.distinct debitFound
        creditFound debitRoom creditRoom rfl
  | transferPendingPosted post =>
      obtain ⟨debit, credit, reserved, debitSum, creditSum⟩ := post.reserved
      -- no guard looks at the limits here; the released hold covers the captured amount
      have within := post.within
      refine limited.moved (reserved.captures debitSum creditSum) post.distinct
        reserved.debitFound reserved.creditFound ?_ ?_ rfl
      · intro flagged
        have bound := (limited _ debit reserved.debitFound).debits flagged
        omega
      · intro flagged
        have bound := (limited _ credit reserved.creditFound).credits flagged
        omega
  | @transferPendingVoided pendingId timestamp hold debit credit debitsPending creditsPending
      inOrder found pending reserved =>
      refine limited.moved reserved.releases (backed.stored pendingId hold found).distinct
        reserved.debitFound reserved.creditFound ?_ ?_ rfl
      · intro flagged
        have bound := (limited _ debit reserved.debitFound).debits flagged
        omega
      · intro flagged
        have bound := (limited _ credit reserved.creditFound).credits flagged
        omega

theorem Reachable.limited {scale : Scale} {l : Ledger} (reached : Reachable scale l)
    : l.Limited := by
  refine reached.invariant_backed (fun backed limited step => limited.step backed step) ?_
  intro id account found
  simp [Ledger.new] at found

/-- No run of public calls, whichever of them fail, takes an account past its limits. -/
theorem reachable_limited {scale : Scale} {l : Ledger} (reached : Reachable scale l) : l.Limited :=
  reached.limited

/-- The customer of a partial capture is a limited account with funds left. -/
theorem limited_partialCapture
    : ((Mutation.runAll ⟨2⟩ partialCapture).accounts[(⟨2⟩ : AccountId)]?.map
        fun a => (a.flags.debitsMustNotExceedCredits, a.balance.debitsPosted.toNat))
        = some (true, 30)
      ∧ (Mutation.runAll ⟨2⟩ partialCapture).Limited :=
  ⟨by decide, reachable_limited (reachable_runAll ⟨2⟩ partialCapture)⟩

end Ledger

end TrustLedger.LedgerCore
