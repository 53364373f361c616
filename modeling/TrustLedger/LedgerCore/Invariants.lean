import TrustLedger.LedgerCore.Conservation

/-! The ledger's own invariant check. It sums balances over all accounts with checked
arithmetic, while the mutators bound each account separately: on a reachable ledger the check
passes exactly when the totals fit the amount type.
-/

namespace TrustLedger.LedgerCore

open Foundation Foundation.FiniteMap

/-- The four running totals, kept as one balance, after one more account. -/
def Balance.addTotals (totals : Balance) (account : Account) : Except LedgerError Balance := do
  let debitsPosted ← totals.debitsPosted.checkedAdd account.balance.debitsPosted
  let creditsPosted ← totals.creditsPosted.checkedAdd account.balance.creditsPosted
  let debitsPending ← totals.debitsPending.checkedAdd account.balance.debitsPending
  let creditsPending ← totals.creditsPending.checkedAdd account.balance.creditsPending
  return { debitsPosted, creditsPosted, debitsPending, creditsPending }

namespace Ledger

/-- Reservations read off the transfers, for each account and side. -/
structure HeldTotals where
  debits : Std.ExtTreeMap AccountId Amount
  credits : Std.ExtTreeMap AccountId Amount

/-- The reservation of an account, zero without an entry. -/
def heldAmount (held : Std.ExtTreeMap AccountId Amount) (id : AccountId) : Amount :=
  held[id]?.getD .zero

/-- Add a hold to an account's reservation. -/
def addHeld (held : Std.ExtTreeMap AccountId Amount) (id : AccountId) (amount : Amount)
    : Except LedgerError (Std.ExtTreeMap AccountId Amount) := do
  let sum ← (heldAmount held id).checkedAdd amount
  return held.insert id sum

/-- Check one transfer, and add it to the reservations if it is pending. -/
def verifyTransfer (l : Ledger) (held : HeldTotals) (t : Transfer)
    : Except LedgerError HeldTotals := do
  ensure (l.accounts[t.debitAccountId]?.isSome) (.accountNotFound t.debitAccountId)
  ensure (l.accounts[t.creditAccountId]?.isSome) (.accountNotFound t.creditAccountId)
  match t.state with
  | .pending =>
      let debits ← addHeld held.debits t.debitAccountId t.amount
      let credits ← addHeld held.credits t.creditAccountId t.amount
      return { debits, credits }
  | .posted =>
      l.validatePendingLink t
      return held
  | .voided =>
      match t.pendingId with
      | some pendingId => throw (.invalidPendingLink t.id pendingId t.state)
      | none => return held

/-- Compare an account's pending balances with the reservations. -/
def verifyAccount (held : HeldTotals) (id : AccountId) (balance : Balance)
    : Except LedgerError Unit := do
  ensure (balance.debitsPending = heldAmount held.debits id)
    (.pendingBalanceMismatch id balance.debitsPending (heldAmount held.debits id))
  ensure (balance.creditsPending = heldAmount held.credits id)
    (.pendingBalanceMismatch id balance.creditsPending (heldAmount held.credits id))

/-- Verify the transfer index is consistent with account balances. -/
def verifyStructure (l : Ledger) : Except LedgerError Unit := do
  let held ← (l.transfers.toList.map Prod.snd).foldlM l.verifyTransfer ⟨∅, ∅⟩
  l.accounts.toList.forM fun entry => verifyAccount held entry.1 entry.2.balance

/-- Check total-debits-equal-total-credits conservation and that the transfer index backs the
account balances.
-/
def verifyInvariants (l : Ledger) : Except LedgerError Unit := do
  let totals ← (l.accounts.toList.map Prod.snd).foldlM Balance.addTotals .new
  ensure (totals.debitsPosted = totals.creditsPosted)
    (.conservationViolation totals.debitsPosted totals.creditsPosted)
  ensure (totals.debitsPending = totals.creditsPending)
    (.conservationViolation totals.debitsPending totals.creditsPending)
  l.verifyStructure

end Ledger

section Totals

/-- `sums` are `totals` plus the balances of `accounts`, component by component. -/
structure Balance.SumsTo (totals : Balance) (accounts : List Account) (sums : Balance)
    : Prop where
  debitsPosted
    : sums.debitsPosted.toNat
      = totals.debitsPosted.toNat + (accounts.map fun a => a.balance.debitsPosted.toNat).sum
  creditsPosted
    : sums.creditsPosted.toNat
      = totals.creditsPosted.toNat + (accounts.map fun a => a.balance.creditsPosted.toNat).sum
  debitsPending
    : sums.debitsPending.toNat
      = totals.debitsPending.toNat + (accounts.map fun a => a.balance.debitsPending.toNat).sum
  creditsPending
    : sums.creditsPending.toNat
      = totals.creditsPending.toNat + (accounts.map fun a => a.balance.creditsPending.toNat).sum

variable {totals sums : Balance} {account : Account}

theorem Balance.addTotals_eq_ok
    : totals.addTotals account = .ok sums ↔ totals.SumsTo [account] sums := by
  simp only [Balance.addTotals, bind_eq_ok, Amount.checkedAdd_eq_ok, pure_eq_ok]
  constructor
  · rintro ⟨debitsPosted, first, creditsPosted, second, debitsPending, third, creditsPending,
      fourth, rfl⟩
    exact ⟨by simpa using first, by simpa using second, by simpa using third,
      by simpa using fourth⟩
  · rintro ⟨first, second, third, fourth⟩
    exact ⟨sums.debitsPosted, by simpa using first, sums.creditsPosted, by simpa using second,
      sums.debitsPending, by simpa using third, sums.creditsPending, by simpa using fourth, rfl⟩

/-- A sum that fits has partial sums that fit. -/
theorem Amount.exists_partial {total sum part : Amount} {rest : Nat}
    (fits : sum.toNat = total.toNat + (part.toNat + rest))
    : ∃ mid : Amount, mid.toNat = total.toNat + part.toNat ∧ sum.toNat = mid.toNat + rest := by
  have bound := sum.toNat_lt
  exact ⟨⟨⟨total.toNat + part.toNat, by omega⟩⟩, rfl, by rw [fits, ← Nat.add_assoc]; rfl⟩

theorem Balance.sumsTo_cons {rest : List Account}
    : (∃ mid, totals.SumsTo [account] mid ∧ Balance.SumsTo mid rest sums)
      ↔ totals.SumsTo (account :: rest) sums := by
  constructor
  · rintro ⟨mid, ⟨debitsPosted, creditsPosted, debitsPending, creditsPending⟩, later⟩
    simp only [List.map_cons, List.map_nil, List.sum_cons, List.sum_nil, Nat.add_zero] at *
    refine ⟨?_, ?_, ?_, ?_⟩
    · simp [later.debitsPosted, debitsPosted, Nat.add_assoc]
    · simp [later.creditsPosted, creditsPosted, Nat.add_assoc]
    · simp [later.debitsPending, debitsPending, Nat.add_assoc]
    · simp [later.creditsPending, creditsPending, Nat.add_assoc]
  · rintro ⟨a, b, c, d⟩
    obtain ⟨debitsPosted, a, a'⟩ := Amount.exists_partial a
    obtain ⟨creditsPosted, b, b'⟩ := Amount.exists_partial b
    obtain ⟨debitsPending, c, c'⟩ := Amount.exists_partial c
    obtain ⟨creditsPending, d, d'⟩ := Amount.exists_partial d
    exact ⟨⟨debitsPosted, creditsPosted, debitsPending, creditsPending⟩,
      ⟨by simpa using a, by simpa using b, by simpa using c, by simpa using d⟩,
      ⟨a', b', c', d'⟩⟩

/-- The loop over the accounts succeeds exactly on totals that fit. -/
theorem Balance.foldlM_addTotals {accounts : List Account}
    : accounts.foldlM Balance.addTotals totals = .ok sums ↔ totals.SumsTo accounts sums := by
  induction accounts generalizing totals with
  | nil =>
      simp only [List.foldlM_nil, pure_eq_ok]
      constructor
      · rintro rfl
        exact ⟨rfl, rfl, rfl, rfl⟩
      · rintro ⟨a, b, c, d⟩
        simp only [List.map_nil, List.sum_nil, Nat.add_zero, Amount.toNat_inj] at a b c d
        cases totals
        cases sums
        simp_all
  | cons account rest ih =>
      simp only [List.foldlM_cons, bind_eq_ok, Balance.addTotals_eq_ok, ih]
      exact Balance.sumsTo_cons

end Totals

namespace Ledger

/-- The totals of all balances fit the amount type. -/
def Fits (l : Ledger) : Prop :=
  balanceSum Balance.debitsPosted l < 2 ^ 128 ∧ balanceSum Balance.debitsPending l < 2 ^ 128

section Structure

variable {l : Ledger}

theorem addHeld_fits {held : Std.ExtTreeMap AccountId Amount} {id : AccountId}
    {amount : Amount} (fits : (heldAmount held id).toNat + amount.toNat < 2 ^ 128)
    : ∃ held', addHeld held id amount = .ok held'
        ∧ ∀ id', (heldAmount held' id').toNat
          = (heldAmount held id').toNat + if id = id' then amount.toNat else 0 := by
  refine ⟨held.insert id ⟨⟨(heldAmount held id).toNat + amount.toNat, fits⟩⟩, ?_, ?_⟩
  · simp only [addHeld, bind_eq_ok, Amount.checkedAdd_eq_ok, pure_eq_ok]
    exact ⟨_, rfl, rfl⟩
  · intro id'
    simp only [heldAmount, Std.ExtTreeMap.getElem?_insert, Std.LawfulEqCmp.compare_eq_iff_eq]
    split
    · rename_i same
      subst same
      rfl
    · rfl

/-- `held'` is `held` with the pending transfers of `ts` added. -/
def HeldAfter (held : HeldTotals) (ts : List Transfer) (held' : HeldTotals) : Prop :=
  ∀ id, (heldAmount held'.debits id).toNat
        = (heldAmount held.debits id).toNat
          + (ts.map (heldBy Transfer.debitAccountId id)).sum
      ∧ (heldAmount held'.credits id).toNat
        = (heldAmount held.credits id).toNat
          + (ts.map (heldBy Transfer.creditAccountId id)).sum

/-- There is room for the pending transfers of `ts` in every reservation. -/
def HeldRoom (held : HeldTotals) (ts : List Transfer) : Prop :=
  ∀ id, (heldAmount held.debits id).toNat
        + (ts.map (heldBy Transfer.debitAccountId id)).sum < 2 ^ 128
      ∧ (heldAmount held.credits id).toNat
        + (ts.map (heldBy Transfer.creditAccountId id)).sum < 2 ^ 128

/-- A well-formed transfer passes, and is added if it is pending. -/
theorem Stored.verifyTransfer {id : TransferId} {t : Transfer} {held : HeldTotals}
    (stored : l.Stored id t) (room : HeldRoom held [t])
    : ∃ held', l.verifyTransfer held t = .ok held' ∧ HeldAfter held [t] held' := by
  have unheld (settled : t.state ≠ .pending) : HeldAfter held [t] held := by
    intro id
    simp [heldBy_settled settled]
  simp only [Ledger.verifyTransfer, bind_eq_ok, ensure_eq_ok, stored.debitExists,
    stored.creditExists, exists_const, true_and]
  cases state : t.state with
  | posted =>
      have linked := validatePendingLink_eq_ok (u := ()).mpr (stored.linked state)
      exact ⟨held, by simp [linked], unheld (by simp [state])⟩
  | voided =>
      have unlinked := stored.unlinked (.inr state)
      exact ⟨held, by simp [unlinked], unheld (by simp [state])⟩
  | pending =>
      have debitRoom := (room t.debitAccountId).1
      have creditRoom := (room t.creditAccountId).2
      simp only [List.map_cons, List.map_nil, List.sum_cons, List.sum_nil, Nat.add_zero,
        heldBy_pending state, if_true] at debitRoom creditRoom
      obtain ⟨debits, debitsAdded, debitsAre⟩ := addHeld_fits debitRoom
      obtain ⟨credits, creditsAdded, creditsAre⟩ := addHeld_fits creditRoom
      refine ⟨⟨debits, credits⟩, ?_, ?_⟩
      · simp only [bind_eq_ok, pure_eq_ok]
        exact ⟨debits, debitsAdded, credits, creditsAdded, rfl⟩
      · intro id
        simp [heldBy_pending state, debitsAre, creditsAre]

/-- The loop over the transfers passes while the reservations have room. -/
theorem foldlM_verifyTransfer {ts : List Transfer} {held : HeldTotals}
    (stored : ∀ t ∈ ts, ∃ id, l.Stored id t) (room : HeldRoom held ts)
    : ∃ held', ts.foldlM l.verifyTransfer held = .ok held' ∧ HeldAfter held ts held' := by
  induction ts generalizing held with
  | nil => exact ⟨held, rfl, fun id => ⟨rfl, rfl⟩⟩
  | cons t rest ih =>
      obtain ⟨id, wellFormed⟩ := stored t (.head _)
      simp only [HeldRoom, List.map_cons, List.sum_cons] at room
      have roomNow : HeldRoom held [t] := by
        intro id
        have both := room id
        simp only [List.map_cons, List.map_nil, List.sum_cons, List.sum_nil]
        omega
      obtain ⟨mid, passed, added⟩ := wellFormed.verifyTransfer roomNow
      simp only [HeldAfter, List.map_cons, List.map_nil, List.sum_cons, List.sum_nil,
        Nat.add_zero] at added
      have roomLater : HeldRoom mid rest := by
        intro id
        have both := room id
        have now := added id
        omega
      obtain ⟨held', finished, later⟩ := ih (fun t mem => stored t (.tail _ mem)) roomLater
      refine ⟨held', ?_, ?_⟩
      · simp only [List.foldlM_cons, bind_eq_ok]
        exact ⟨mid, passed, finished⟩
      · intro id
        have now := added id
        have then_ := later id
        simp only [List.map_cons, List.sum_cons]
        omega

theorem Backed.held_lt (backed : l.Backed) (id : AccountId)
    : held Transfer.debitAccountId id l < 2 ^ 128
      ∧ held Transfer.creditAccountId id l < 2 ^ 128 := by
  cases found : l.accounts[id]? with
  | none =>
      rw [held_eq_zero (fun id t there => (backed.stored id t there).debitExists) found,
        held_eq_zero (fun id t there => (backed.stored id t there).creditExists) found]
      simp
  | some account =>
      rw [← backed.debitsHeld id account found, ← backed.creditsHeld id account found]
      exact ⟨account.balance.debitsPending.toNat_lt, account.balance.creditsPending.toNat_lt⟩

theorem Backed.verifyStructure (backed : l.Backed) : l.verifyStructure = .ok () := by
  have values (side : Transfer → AccountId) (id : AccountId)
      : ((l.transfers.toList.map Prod.snd).map (heldBy side id)).sum = held side id l := by
    rw [List.map_map]
    rfl
  have stored : ∀ t ∈ l.transfers.toList.map Prod.snd, ∃ id, l.Stored id t := by
    intro t mem
    obtain ⟨⟨id, t⟩, entry, rfl⟩ := List.mem_map.mp mem
    exact ⟨id, backed.stored id t (Std.ExtTreeMap.mem_toList_iff_getElem?_eq_some.mp entry)⟩
  have empty (id : AccountId) : (heldAmount ∅ id).toNat = 0 := by simp [heldAmount]
  have room : HeldRoom ⟨∅, ∅⟩ (l.transfers.toList.map Prod.snd) := by
    intro id
    rw [values, values, empty, Nat.zero_add, Nat.zero_add]
    exact backed.held_lt id
  obtain ⟨reservations, passed, totals⟩ := foldlM_verifyTransfer stored room
  simp only [Ledger.verifyStructure, bind_eq_ok]
  refine ⟨reservations, passed, forM_eq_ok.mpr ?_⟩
  rintro ⟨id, account⟩ entry
  have found := Std.ExtTreeMap.mem_toList_iff_getElem?_eq_some.mp entry
  obtain ⟨debits, credits⟩ := totals id
  rw [values, empty, Nat.zero_add] at debits credits
  simp only [verifyAccount, bind_eq_ok, ensure_eq_ok, exists_const, ← Amount.toNat_inj]
  exact ⟨(backed.debitsHeld id account found).trans debits.symm,
    (backed.creditsHeld id account found).trans credits.symm⟩

/-- On a backed ledger the check passes exactly when the totals fit. -/
theorem Backed.verifyInvariants_iff (backed : l.Backed) : l.verifyInvariants = .ok () ↔ l.Fits := by
  have values (component : Balance → Amount)
      : ((l.accounts.toList.map Prod.snd).map fun a => (component a.balance).toNat).sum
        = balanceSum component l := by
    rw [List.map_map]
    rfl
  simp only [Ledger.verifyInvariants, bind_eq_ok, Balance.foldlM_addTotals, ensure_eq_ok,
    exists_const, backed.verifyStructure, and_true]
  constructor
  · rintro ⟨totals, sums, -, -⟩
    have posted := sums.debitsPosted
    have pending := sums.debitsPending
    rw [values] at posted pending
    have fits := totals.debitsPosted.toNat_lt
    have fits' := totals.debitsPending.toNat_lt
    simp only [Balance.new, Amount.zero_toNat, Nat.zero_add] at posted pending
    exact ⟨posted ▸ fits, pending ▸ fits'⟩
  · rintro ⟨posted, pending⟩
    refine ⟨⟨⟨⟨_, posted⟩⟩, ⟨⟨_, posted⟩⟩, ⟨⟨_, pending⟩⟩, ⟨⟨_, pending⟩⟩⟩, ⟨?_, ?_, ?_, ?_⟩,
      rfl, rfl⟩
    · rw [values]
      exact (Nat.zero_add _).symm
    · rw [values, ← backed.posted]
      exact (Nat.zero_add _).symm
    · rw [values]
      exact (Nat.zero_add _).symm
    · rw [values, ← backed.pending]
      exact (Nat.zero_add _).symm

end Structure

end Ledger

end TrustLedger.LedgerCore
