import TrustLedger.LedgerCore.Overdraft
import TrustLedger.LedgerCore.Effects
import TrustLedger.Simulator.Provenance

/-! The money supply of the simulated cluster. All money comes from the vault, whose account no
operation of the workload touches; debits equal credits over the whole ledger, so what the tracked
accounts hold together is what the vault paid out, on every node and at all times.
-/

namespace TrustLedger.Simulator

open Foundation LedgerCore

section Turnover

open Ledger

/-- Everything ever debited or reserved and not released. -/
def turnover (l : Ledger) : Nat :=
  balanceSum Balance.debitsPosted l + balanceSum Balance.debitsPending l

/-- What an event adds to the turnover at most. -/
def LedgerEvent.adds : LedgerEvent → Nat
  | .transferPosted t | .transferPendingCreated t => t.amount.toNat
  | _ => 0

variable {l l' : Ledger} {event : LedgerEvent}

/-- Moving money on both legs adds what is posted and reserved, less what is released. -/
theorem turnover_withLegs {t : Transfer} {debit credit : Account} {f g : Balance → Balance}
    {posted reserved released added : Nat} (moves : Moves debit credit f g posted reserved released)
    (distinct : t.debitAccountId ≠ t.creditAccountId)
    (debitFound : l.accounts[t.debitAccountId]? = some debit)
    (creditFound : l.accounts[t.creditAccountId]? = some credit)
    (covered : posted + reserved ≤ added + released)
    (accounts : l'.accounts = (l.withLegs t f g).accounts)
    : turnover l' ≤ turnover l + added := by
  have same : turnover l' = turnover (l.withLegs t f g) := by
    simp only [turnover, balanceSum, accounts]
  rw [same]
  obtain ⟨debitsPosted, debitsPending, -, -, -, creditOther⟩ := moves
  have posts := balanceSum_withLegs (f := f) (g := g) Balance.debitsPosted distinct debitFound
    creditFound
  have pends := balanceSum_withLegs (f := f) (g := g) Balance.debitsPending distinct debitFound
    creditFound
  rw [creditOther.1] at posts
  rw [creditOther.2] at pends
  unfold turnover
  omega

/-- A new transfer or hold adds its amount; a capture posts no more than it releases. -/
theorem turnover_step (backed : l.Backed) (step : l.Step event l')
    : turnover l' ≤ turnover l + LedgerEvent.adds event := by
  cases step with
  | @accountCreated id accountType flags timestamp inOrder unused =>
      have same (component : Balance → Amount) (zero : component .new = .zero)
          : FiniteMap.total (fun _ account => (component account.balance).toNat)
              (l.accounts.insert id (Account.new id accountType flags l.scale))
            = balanceSum component l := by
        rw [FiniteMap.total_insert_new _ unused, Account.new, zero]
        exact Nat.zero_add _
      have posted := same Balance.debitsPosted rfl
      have pending := same Balance.debitsPending rfl
      simp only [turnover, balanceSum, logged] at posted pending ⊢
      omega
  | @accountClosed id account timestamp inOrder found isOpen =>
      have same (component : Balance → Amount) :=
        FiniteMap.total_modify (fun _ (a : Account) => (component a.balance).toNat)
          (f := fun a => { a with flags := { a.flags with isClosed := true } }) found
      have posted := same Balance.debitsPosted
      have pending := same Balance.debitsPending
      simp only [turnover, balanceSum, logged] at posted pending ⊢
      omega
  | transferPosted inOrder posted fresh linked legs =>
      obtain ⟨debit, credit, debitFound, creditFound, -⟩ := legs.room
      exact turnover_withLegs (legs.posts debitFound creditFound) fresh.distinct debitFound
        creditFound (by simp [LedgerEvent.adds]) rfl
  | transferPendingCreated inOrder pending fresh legs =>
      obtain ⟨debit, credit, debitFound, creditFound, -⟩ := legs.room
      exact turnover_withLegs (legs.reserves debitFound creditFound) fresh.distinct debitFound
        creditFound (by simp [LedgerEvent.adds]) rfl
  | transferPendingPosted post =>
      obtain ⟨debit, credit, reserved, debitSum, creditSum⟩ := post.reserved
      exact turnover_withLegs (reserved.captures debitSum creditSum) post.distinct
        reserved.debitFound reserved.creditFound (by simpa [LedgerEvent.adds] using post.within) rfl
  | @transferPendingVoided pendingId timestamp hold debit credit debitsPending creditsPending
      inOrder found pending reserved =>
      exact turnover_withLegs reserved.releases (backed.stored pendingId hold found).distinct
        reserved.debitFound reserved.creditFound (Nat.zero_le _) rfl

end Turnover

namespace WorkloadOp

/-- The operation names only the given accounts. -/
def Within (accounts : List AccountId) : WorkloadOp → Prop
  | .directTransfer _ fromId toId _ | .createPending _ fromId toId _ =>
      ⟨fromId⟩ ∈ accounts ∧ ⟨toId⟩ ∈ accounts
  | .postPending _ _ _ | .voidPending _ _ => True

/-- The amount an operation transfers or holds. -/
def amount : WorkloadOp → Nat
  | .directTransfer _ _ _ amount | .createPending _ _ _ amount => amount.val
  | .postPending _ _ _ | .voidPending _ _ => 0

theorem adds_event (op : WorkloadOp) (timestamp : U64) (l : Ledger)
    : LedgerEvent.adds ((op.toBatchOp timestamp).event l) = op.amount := by
  cases op <;> rfl

end WorkloadOp

/-- A transfer between accounts other than the vault. -/
def AvoidsVault (t : Transfer) : Prop :=
  t.debitAccountId ≠ vaultAcc ∧ t.creditAccountId ≠ vaultAcc

/-- Money circulates: there are the vault and the tracked accounts, all within their limits; the
vault has paid out the supply and taken nothing back, and no hold touches it.
-/
structure Circulates (accounts : List AccountId) (supply : Nat) (l : Ledger) : Prop where
  backed : l.Backed
  limited : l.Limited
  tracked : ∀ id, (∃ account, l.accounts[id]? = some account) ↔ id = vaultAcc ∨ id ∈ accounts
  customers
    : ∀ id ∈ accounts, ∀ account, l.accounts[id]? = some account → account.flags = .customer
  vault
    : ∃ account, l.accounts[vaultAcc]? = some account ∧ account.flags = .bankAsset
      ∧ account.balance.debitsPosted.toNat = supply
      ∧ account.balance.creditsPosted.toNat = 0
  holds : ∀ (id : TransferId) t, l.transfers[id]? = some t → t.state = .pending → AvoidsVault t

/-- The event neither opens nor closes an account. -/
def LedgerEvent.MovesMoney : LedgerEvent → Prop
  | .accountCreated .. | .accountClosed .. => False
  | _ => True

section Circulation

variable {accounts : List AccountId} {supply : Nat} {l l' : Ledger} {event : LedgerEvent}

theorem LedgerEvent.closes_eq_none (moves : LedgerEvent.MovesMoney event)
    : event.closes = none := by
  cases event with
  | accountClosed => exact moves.elim
  | _ => rfl

theorem account_before (backed : l.Backed) (step : l.Step event l')
    (moves : LedgerEvent.MovesMoney event) {id : AccountId} {account : Account}
    (found : l'.accounts[id]? = some account)
    : ∃ before, l.accounts[id]? = some before ∧ l.Shifted event id before account := by
  rcases step.account_origin backed found with before | ⟨absent, -⟩
  · exact before
  · have same : l'.accounts[id]?.isSome = l.accounts[id]?.isSome := by
      cases step with
      | accountCreated => exact moves.elim
      | accountClosed => exact moves.elim
      | _ =>
          simp only [Ledger.logged_accounts, Ledger.withTransfer_accounts,
            Ledger.withMoved_accounts, Ledger.withLegs_isSome]
    rw [found, absent] at same
    cases same

/-- Money keeps circulating when more of it is paid out of the vault, as long as nothing is paid
into the vault or held on it.
-/
theorem Circulates.moved (circulates : Circulates accounts supply l) (step : l.Step event l')
    (moves : LedgerEvent.MovesMoney event) {paid : Nat}
    (pays : l.posts Transfer.debitAccountId vaultAcc event = paid)
    (takes : l.posts Transfer.creditAccountId vaultAcc event = 0)
    (reserves : ∀ t, event = .transferPendingCreated t → AvoidsVault t)
    : Circulates accounts (supply + paid) l' where
  backed := circulates.backed.step step
  limited := circulates.limited.step circulates.backed step
  tracked id := by
    rw [← circulates.tracked id]
    constructor
    · intro ⟨account, found⟩
      obtain ⟨before, there, -⟩ := account_before circulates.backed step moves found
      exact ⟨before, there⟩
    · intro ⟨account, found⟩
      obtain ⟨after, there, -⟩ := step.account_kept circulates.backed found
      exact ⟨after, there⟩
  customers id listed account found := by
    obtain ⟨before, there, shifted⟩ := account_before circulates.backed step moves found
    rw [shifted.flags, LedgerEvent.closes_eq_none moves, if_neg nofun]
    exact circulates.customers id listed before there
  vault := by
    obtain ⟨before, there, flags, debits, credits⟩ := circulates.vault
    obtain ⟨after, found, shifted⟩ := step.account_kept circulates.backed there
    refine ⟨after, found, ?_, ?_, ?_⟩
    · rw [shifted.flags, LedgerEvent.closes_eq_none moves, if_neg nofun, flags]
    · rw [shifted.debitsPosted, debits, pays]
    · rw [shifted.creditsPosted, credits, takes]
  holds id t found pending := by
    rcases step.transfer_origin found with ⟨recorded, -⟩ | ⟨before, there, rfl⟩
    · exact reserves t (step.recorded_pending recorded pending)
    · have same := (step.restate_pending pending).1
      rw [same] at pending ⊢
      exact circulates.holds id before there pending

end Circulation

section Workload

variable {accounts : List AccountId} {supply : Nat} {l l' : Ledger} {op : WorkloadOp}
  {timestamp : U64}

/-- An operation on tracked accounts posts nothing on the vault. -/
theorem Circulates.posts_vault (circulates : Circulates accounts supply l)
    (step : l.Step ((op.toBatchOp timestamp).event l) l') (within : op.Within accounts)
    (outside : vaultAcc ∉ accounts) {side : Transfer → AccountId}
    (either : ∀ t, AvoidsVault t → side t ≠ vaultAcc)
    : l.posts side vaultAcc ((op.toBatchOp timestamp).event l) = 0 := by
  have named {id : U128} (tracked : ⟨id⟩ ∈ accounts) : (⟨id⟩ : AccountId) ≠ vaultAcc :=
    fun same => outside (same ▸ tracked)
  cases op with
  | directTransfer transferId fromId toId amount =>
      exact if_neg (either _ ⟨named within.1, named within.2⟩)
  | createPending transferId fromId toId amount => rfl
  | postPending pendingId postId amount =>
      simp only [WorkloadOp.toBatchOp, BatchOp.event, Ledger.posts]
      cases step with
      | @transferPendingPosted _ _ _ _ plan post =>
          simp only [post.found, if_neg (either _ (circulates.holds _ _ post.found post.pending))]
  | voidPending pendingId voidId => rfl

/-- Operations on tracked accounts keep the money circulating and add their amount to the turnover
at most, whether the ledger accepts them or not.
-/
theorem Circulates.execute (circulates : Circulates accounts supply l)
    (within : op.Within accounts) (outside : vaultAcc ∉ accounts) (timestamp : U64)
    : Circulates accounts supply (op.execute timestamp l)
      ∧ turnover (op.execute timestamp l) ≤ turnover l + op.amount := by
  rcases execute_cases op timestamp l with same | step
  · rw [same]
    exact ⟨circulates, Nat.le_add_right _ _⟩
  · have moves : LedgerEvent.MovesMoney ((op.toBatchOp timestamp).event l) := by
      cases op <;> exact trivial
    refine ⟨?_, ?_⟩
    · refine circulates.moved step moves
        (circulates.posts_vault step within outside fun _ avoids => avoids.1)
        (circulates.posts_vault step within outside fun _ avoids => avoids.2) fun t created => ?_
      cases op with
      | createPending transferId fromId toId amount =>
          cases created
          exact ⟨fun same => outside (same ▸ within.1), fun same => outside (same ▸ within.2)⟩
      | directTransfer | postPending | voidPending => cases created
    · rw [← WorkloadOp.adds_event op timestamp l]
      exact turnover_step circulates.backed step

theorem Circulates.replay (circulates : Circulates accounts supply l) {log : List Stamped}
    (within : ∀ entry ∈ log, entry.1.Within accounts) (outside : vaultAcc ∉ accounts)
    : Circulates accounts supply (replay l log)
      ∧ turnover (Simulator.replay l log)
        ≤ turnover l + (log.map fun entry => entry.1.amount).sum := by
  induction log generalizing l with
  | nil => exact ⟨circulates, Nat.le_refl _⟩
  | cons entry rest ih =>
      obtain ⟨first, added⟩ :=
        circulates.execute (within entry List.mem_cons_self) outside entry.2
      obtain ⟨whole, total⟩ := ih first fun later listed => within later (.tail _ listed)
      refine ⟨whole, total.trans ?_⟩
      rw [List.map_cons, List.sum_cons]
      omega

end Workload

end TrustLedger.Simulator
