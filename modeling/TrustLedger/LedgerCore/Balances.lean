import TrustLedger.LedgerCore.Runs

/-! How a rewrite of both legs of a transfer changes accounts and balance sums, and which
amounts each accepted transfer event moves.
-/

namespace TrustLedger.LedgerCore

open Foundation Foundation.FiniteMap

namespace Ledger

/-- Sum of one balance component over all accounts. -/
def balanceSum (component : Balance → Amount) (l : Ledger) : Nat :=
  total (fun _ account => (component account.balance).toNat) l.accounts

variable {l : Ledger} {t : Transfer} {f g : Balance → Balance} {id : AccountId}

/-- An account after a rewrite of two different legs is an account before it, with its balance
rewritten on the side it stands on.
-/
theorem withLegs_cases {account' : Account} (distinct : t.debitAccountId ≠ t.creditAccountId)
    (found : (l.withLegs t f g).accounts[id]? = some account')
    : ∃ account,
        l.accounts[id]? = some account
        ∧ account'.flags = account.flags
        ∧ (id = t.debitAccountId ∧ account'.balance = f account.balance
          ∨ id = t.creditAccountId ∧ account'.balance = g account.balance
          ∨ id ≠ t.debitAccountId ∧ id ≠ t.creditAccountId
            ∧ account'.balance = account.balance) := by
  simp only [withLegs, withBalance, Std.ExtTreeMap.getElem?_modify,
    Std.LawfulEqCmp.compare_eq_iff_eq] at found
  -- the credit leg is written last, so its rewrite is the outermost
  by_cases onCredit : t.creditAccountId = id
  · subst onCredit
    simp only [if_true, distinct, if_false, Option.map_eq_some_iff] at found
    obtain ⟨account, before, rfl⟩ := found
    exact ⟨account, before, rfl, .inr (.inl ⟨rfl, rfl⟩)⟩
  · by_cases onDebit : t.debitAccountId = id
    · subst onDebit
      simp only [onCredit, if_true, if_false, Option.map_eq_some_iff] at found
      obtain ⟨account, before, rfl⟩ := found
      exact ⟨account, before, rfl, .inl ⟨rfl, rfl⟩⟩
    · simp only [onCredit, onDebit, if_false] at found
      exact ⟨account', found, rfl, .inr (.inr ⟨Ne.symm onDebit, Ne.symm onCredit, rfl⟩)⟩

theorem withLegs_isSome : (l.withLegs t f g).accounts[id]?.isSome = l.accounts[id]?.isSome := by
  simp [withLegs, withBalance, Std.ExtTreeMap.contains_modify]

/-- A rewrite of two different legs moves a balance sum by what it changes on each side. -/
theorem balanceSum_withLegs {debit credit : Account} (component : Balance → Amount)
    (distinct : t.debitAccountId ≠ t.creditAccountId)
    (debitFound : l.accounts[t.debitAccountId]? = some debit)
    (creditFound : l.accounts[t.creditAccountId]? = some credit)
    : balanceSum component (l.withLegs t f g)
        + (component debit.balance).toNat + (component credit.balance).toNat
      = balanceSum component l
        + (component (f debit.balance)).toNat + (component (g credit.balance)).toNat := by
  have creditKept
      : (l.withBalance t.debitAccountId f).accounts[t.creditAccountId]? = some credit := by
    simp [withBalance, Std.ExtTreeMap.getElem?_modify, distinct, creditFound]
  have onDebit :=
    total_modify (fun _ account => (component account.balance).toNat)
      (f := fun a => { a with balance := f a.balance }) debitFound
  have onCredit :=
    total_modify (fun _ account => (component account.balance).toNat)
      (f := fun a => { a with balance := g a.balance }) creditKept
  simp only [balanceSum, withLegs, withBalance] at *
  omega

/-- A rewrite of both legs that adds `posted` to each posted total, and takes `released` from
and adds `reserved` to each pending total, leaving the opposite components alone.
-/
structure Moves (debit credit : Account) (f g : Balance → Balance)
    (posted reserved released : Nat)
    : Prop where
  debitsPosted
    : (f debit.balance).debitsPosted.toNat = debit.balance.debitsPosted.toNat + posted
  debitsPending
    : (f debit.balance).debitsPending.toNat + released
      = debit.balance.debitsPending.toNat + reserved
  debitOther
    : (f debit.balance).creditsPosted = debit.balance.creditsPosted
      ∧ (f debit.balance).creditsPending = debit.balance.creditsPending
  creditsPosted
    : (g credit.balance).creditsPosted.toNat = credit.balance.creditsPosted.toNat + posted
  creditsPending
    : (g credit.balance).creditsPending.toNat + released
      = credit.balance.creditsPending.toNat + reserved
  creditOther
    : (g credit.balance).debitsPosted = credit.balance.debitsPosted
      ∧ (g credit.balance).debitsPending = credit.balance.debitsPending

section Moved

variable {l : Ledger} {t hold : Transfer}
  {newDebits newCredits debitsPending creditsPending : Amount} {debit credit : Account}

theorem Legs.posts (legs : l.Legs t Balance.debitsPosted Balance.creditsPosted newDebits newCredits)
    (debitFound : l.accounts[t.debitAccountId]? = some debit)
    (creditFound : l.accounts[t.creditAccountId]? = some credit)
    : Moves debit credit (fun b => { b with debitsPosted := newDebits })
        (fun b => { b with creditsPosted := newCredits }) t.amount.toNat 0 0 := by
  obtain ⟨⟨debit', debitFound', -, debitSum⟩, ⟨credit', creditFound', -, creditSum⟩⟩ := legs
  obtain rfl : debit = debit' := Option.some.inj (debitFound.symm.trans debitFound')
  obtain rfl : credit = credit' := Option.some.inj (creditFound.symm.trans creditFound')
  exact ⟨debitSum, rfl, ⟨rfl, rfl⟩, creditSum, rfl, ⟨rfl, rfl⟩⟩

theorem Legs.reserves
    (legs : l.Legs t Balance.debitsPending Balance.creditsPending newDebits newCredits)
    (debitFound : l.accounts[t.debitAccountId]? = some debit)
    (creditFound : l.accounts[t.creditAccountId]? = some credit)
    : Moves debit credit (fun b => { b with debitsPending := newDebits })
        (fun b => { b with creditsPending := newCredits }) 0 t.amount.toNat 0 := by
  obtain ⟨⟨debit', debitFound', -, debitSum⟩, ⟨credit', creditFound', -, creditSum⟩⟩ := legs
  obtain rfl : debit = debit' := Option.some.inj (debitFound.symm.trans debitFound')
  obtain rfl : credit = credit' := Option.some.inj (creditFound.symm.trans creditFound')
  exact ⟨rfl, debitSum, ⟨rfl, rfl⟩, rfl, creditSum, ⟨rfl, rfl⟩⟩

theorem Reserved.releases (reserved : l.Reserved hold debit credit debitsPending creditsPending)
    : Moves debit credit (fun b => { b with debitsPending }) (fun b => { b with creditsPending })
        0 0 hold.amount.toNat :=
  ⟨rfl, reserved.debitLeft, ⟨rfl, rfl⟩, rfl, reserved.creditLeft, ⟨rfl, rfl⟩⟩

/-- A capture releases the whole hold and posts the captured amount. -/
theorem Reserved.captures {amount : Amount} {debitsPosted creditsPosted : Amount}
    (reserved : l.Reserved hold debit credit debitsPending creditsPending)
    (debitSum : debitsPosted.toNat = debit.balance.debitsPosted.toNat + amount.toNat)
    (creditSum : creditsPosted.toNat = credit.balance.creditsPosted.toNat + amount.toNat)
    : Moves debit credit (fun b => { b with debitsPending, debitsPosted })
        (fun b => { b with creditsPending, creditsPosted })
        amount.toNat 0 hold.amount.toNat :=
  ⟨debitSum, reserved.debitLeft, ⟨rfl, rfl⟩, creditSum, reserved.creditLeft, ⟨rfl, rfl⟩⟩

end Moved

end Ledger

end TrustLedger.LedgerCore
