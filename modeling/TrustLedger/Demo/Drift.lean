import TrustLedger.Demo.Lockstep

/-! Captured payments against merchant credits. The two totals move together along captures; they
part when a deposit is paid into a merchant's account or a captured payment is recorded over.
-/

namespace TrustLedger.Demo

open Foundation LedgerCore FiniteMap

/-- What a payment adds to the captured total. -/
def Payment.capturedAmount (p : Payment) : Nat :=
  if p.state = .captured then p.amount.val else 0

/-- Sum of the amounts of the captured payments. -/
def capturedTotal (payments : Payments) : Nat :=
  total (fun _ p => p.capturedAmount) payments

/-- The accounts of the audited merchants. -/
def merchantAccounts : List AccountId :=
  auditedMerchants.filterMap AccountDirectory.merchant

/-- What has been posted to an account's credit. -/
def creditsAt (l : Ledger) (id : AccountId) : Nat :=
  (l.accounts[id]?.map fun account => account.balance.creditsPosted.toNat).getD 0

/-- Sum of the merchants' posted credits. -/
def creditedTotal (l : Ledger) : Nat :=
  (merchantAccounts.map (creditsAt l)).sum

/-- A ledger whose only accounts from the merchants' offset on are the merchants'. -/
structure Charted (l : Ledger) : Prop where
  backed : l.Backed
  merchants : ∀ id ∈ merchantAccounts, l.accounts[id]?.isSome
  others : ∀ id, l.accounts[id]?.isSome → 2_000_000 ≤ id.raw.val → id ∈ merchantAccounts

section Ledger

variable {l l' : Ledger} {event : LedgerEvent}

theorem isSome_accounts_of_step (step : l.Step event l')
    (opens : ∀ id accountType flags scale timestamp,
      event ≠ .accountCreated id accountType flags scale timestamp) (id : AccountId)
    : l'.accounts[id]?.isSome = l.accounts[id]?.isSome := by
  cases step with
  | accountCreated inOrder unused => exact absurd rfl (opens _ _ _ _ _)
  | accountClosed inOrder found isOpen =>
      simp [Ledger.logged, Std.ExtTreeMap.contains_modify]
  | _ =>
      simp only [Ledger.logged_accounts, Ledger.withTransfer_accounts,
        Ledger.withMoved_accounts, Ledger.withLegs_isSome]

theorem Charted.step (charted : Charted l) (step : l.Step event l')
    (opens : ∀ id accountType flags scale timestamp,
      event ≠ .accountCreated id accountType flags scale timestamp)
    : Charted l' where
  backed := charted.backed.step step
  merchants id listed := by
    rw [isSome_accounts_of_step step opens]
    exact charted.merchants id listed
  others id := by
    rw [isSome_accounts_of_step step opens]
    exact charted.others id

theorem Charted.creditedTotal_step (charted : Charted l) (step : l.Step event l')
    : creditedTotal l'
      = creditedTotal l
        + (merchantAccounts.map fun id => l.posts Transfer.creditAccountId id event).sum := by
  rw [creditedTotal, creditedTotal, ← List.sum_map_add]
  congr 1
  refine List.map_congr_left fun id listed => ?_
  obtain ⟨before, found⟩ := Option.isSome_iff_exists.mp (charted.merchants id listed)
  obtain ⟨after, now, shifted⟩ := step.account_kept charted.backed found
  simp [creditsAt, found, now, shifted.creditsPosted]

end Ledger

/-- A movement that keeps the two totals together: it pays no merchant directly and records over no
captured payment.
-/
def Books.Fair (books : Books) : Movement → Prop
  | .deposit t => t.creditAccountId ∉ merchantAccounts
  | .authorize key _ _ => ∀ p, books.payments[key]? = some p → p.state ≠ .captured
  | _ => True

section Movements

variable {l l' : Ledger} {payments : Payments} {books books' : Books}
  {movement : Movement} {p : Payment} {pendingId : U128} {hold : Transfer}

theorem Payment.capturedAmount_of_ne (other : p.state ≠ .captured) : p.capturedAmount = 0 :=
  if_neg other

theorem Payment.InStep.payee_mem (inStep : p.InStep l pendingId hold) (charted : Charted l)
    : hold.creditAccountId ∈ merchantAccounts := by
  have offset := AccountDirectory.accountAt_eq_some.mp inStep.payee
  refine charted.others _ (charted.backed.stored _ hold inStep.found).creditExists ?_
  rw [offset]
  exact Nat.le_add_right ..

theorem Payment.InStep.credits_capture (inStep : p.InStep l pendingId hold) (charted : Charted l)
    {postId : U128} {timestamp : U64}
    : (merchantAccounts.map fun id =>
        l.posts Transfer.creditAccountId id
          (.transferPendingPosted ⟨pendingId⟩ ⟨postId⟩ ⟨p.amount⟩ timestamp)).sum
      = p.amount.val := by
  have listed : merchantAccounts = [⟨2_000_001⟩, ⟨2_000_002⟩, ⟨2_000_003⟩] := by decide
  have payee := inStep.payee_mem charted
  rw [listed] at payee ⊢
  simp only [List.mem_cons, List.not_mem_nil, or_false] at payee
  rcases payee with first | second | third
  · simp [Ledger.posts, inStep.found, first, Amount.toNat]
  · simp [Ledger.posts, inStep.found, second, Amount.toNat]
  · simp [Ledger.posts, inStep.found, third, Amount.toNat]

theorem Payment.capturedAmount_markSettled (p : Payment) (settledIds : List U128) (batchSeq : U64)
    : (p.markSettled settledIds batchSeq).capturedAmount = p.capturedAmount := by
  unfold Payment.markSettled
  split <;> rfl

theorem capturedTotal_insert {key : U128} (p : Payment)
    (old : ∀ q, payments[key]? = some q → q.state ≠ .captured)
    : capturedTotal (payments.insert key p) = capturedTotal payments + p.capturedAmount :=
  total_insert_weightless _ p fun q found => q.capturedAmount_of_ne (old q found)

theorem Charted.creditedTotal_kept {event : LedgerEvent} (charted : Charted l)
    (step : l.Step event l')
    (silent : ∀ id ∈ merchantAccounts, l.posts Transfer.creditAccountId id event = 0)
    : creditedTotal l' = creditedTotal l := by
  rw [charted.creditedTotal_step step, List.map_congr_left silent]
  simp

/-- Fair movements change both totals by the same amount. -/
theorem Books.Lockstep.totals_move (lockstep : books.Lockstep) (charted : Charted books.ledger)
    (moves : books.Moves movement books') (fair : books.Fair movement)
    : creditedTotal books'.ledger + capturedTotal books.payments
      = creditedTotal books.ledger + capturedTotal books'.payments := by
  cases moves with
  | @deposit l l' payments t step unlinked =>
      have silent : ∀ id ∈ merchantAccounts,
          l.posts Transfer.creditAccountId id (.transferPosted t) = 0 := by
        rintro id listed
        have other : t.creditAccountId ≠ id := fun same => fair (same ▸ listed)
        exact if_neg other
      rw [charted.creditedTotal_kept step silent]
  | reserve step => rw [charted.creditedTotal_kept step fun _ _ => rfl]
  | @authorize l l' payments key p hold step reserves =>
      rw [charted.creditedTotal_kept step fun _ _ => rfl, capturedTotal_insert p fair,
        p.capturedAmount_of_ne (by simp [reserves.authorized]), Nat.add_zero]
  | @capture l l' payments key p pendingId postId timestamp stored named step =>
      obtain ⟨hold, inStep, authorized, uncaptured⟩ := lockstep.settling stored named step rfl
      rw [Payment.transitionToCaptured_eq_ok.mpr ⟨authorized, rfl⟩]
      have gained : capturedTotal (recordMove payments key (.ok
          { p with
            state := .captured
            postedTransferId := some postId
            updatedAt := timestamp })) = capturedTotal payments + p.amount.val :=
        capturedTotal_insert _ uncaptured
      rw [charted.creditedTotal_step step, inStep.credits_capture charted, gained]
      dsimp only
      omega
  | @void l l' payments key p pendingId amount timestamp stored named step =>
      obtain ⟨hold, inStep, authorized, uncaptured⟩ := lockstep.settling stored named step rfl
      have kept : capturedTotal (recordMove payments key (.ok
          { p with state := .voided, updatedAt := timestamp })) = capturedTotal payments :=
        capturedTotal_insert _ uncaptured
      rw [Payment.transitionToVoided_eq_ok.mpr ⟨authorized, rfl⟩,
        charted.creditedTotal_kept step fun _ _ => rfl, kept]
  | @mark l payments settledIds batchSeq =>
      have same : capturedTotal (payments.map fun _ p => p.markSettled settledIds batchSeq)
          = capturedTotal payments :=
        total_map _ fun _ p _ => p.capturedAmount_markSettled settledIds batchSeq
      rw [same]

end Movements

section Setup

open AccountDirectory

theorem keeps_backed_call (op : BatchOp)
    : Keeps Ledger.Backed (setupCall (Ledger.applyBatchOp op)) := by
  refine Keeps.adaptExcept (fun l backed => ?_) _
  rcases applyBatchOp_cases op l with ⟨error, ran⟩ | ⟨l', ran, step⟩
  · rw [ran]
    exact backed
  · rw [ran]
    exact backed.step step

theorem keeps_backed_setup (scale : Scale) (merchants customers : List U128) (deposit : U128)
    (timestamp : U64)
    : Keeps Ledger.Backed (setupAccounts scale merchants customers deposit timestamp) := by
  refine (keeps_backed_call (.createAccount ..)).bind fun _ => ?_
  refine (keeps_backed_call (.createAccount ..)).bind fun _ => ?_
  refine (Keeps.forM fun merchantId => ?_).bind fun _ => Keeps.forM fun customer => ?_
  · exact (keeps_check _).bind fun account => keeps_backed_call (.createAccount ..)
  · refine (keeps_check _).bind fun account => ?_
    refine (keeps_backed_call (.createAccount ..)).bind fun _ => ?_
    split
    · exact ((keeps_check _).adaptExcept _).bind fun t => keeps_backed_call (.transfer t)
    · exact fun l backed => backed

theorem charted_setup : Charted (stateAfter setupLedger) where
  backed := keeps_backed_setup _ _ _ _ _ _ (Ledger.backed_new _)
  merchants := by decide +kernel
  others id opened large := by
    have keys : ∀ id ∈ (stateAfter setupLedger).accounts.keys,
        2_000_000 ≤ id.raw.val → id ∈ merchantAccounts := by decide +kernel
    refine keys id ?_ large
    rw [Std.ExtTreeMap.mem_keys, Std.ExtTreeMap.mem_iff_isSome_getElem?]
    exact opened

theorem creditedTotal_setup : creditedTotal (stateAfter setupLedger) = 0 := by decide +kernel

end Setup

section Audit

open ReconciliationEngine

variable {sofar result : U128 × Nat} {s : AppState}

theorem addCaptured_eq_ok {p : Payment}
    : addCaptured sofar p = .ok result
      ↔ result.1.val = sofar.1.val + p.capturedAmount
        ∧ result.2 = sofar.2 + if p.state = .captured then 1 else 0 := by
  obtain ⟨total, count⟩ := result
  by_cases captured : p.state = .captured
  · simp only [addCaptured, Payment.capturedAmount, captured, if_true, bind_eq_ok, okOr_eq_ok,
      checkedAdd_eq_some, pure_eq_ok, Prod.mk.injEq]
    constructor
    · rintro ⟨_, sum, rfl, rfl⟩
      exact ⟨sum, rfl⟩
    · rintro ⟨sum, rfl⟩
      exact ⟨total, sum, rfl, rfl⟩
  · simp only [addCaptured, Payment.capturedAmount, captured, if_false, Except.ok.injEq,
      Prod.ext_iff, Fin.ext_iff, Nat.add_zero]
    exact and_congr eq_comm eq_comm

theorem foldlM_addCaptured {payments : List Payment}
    : payments.foldlM addCaptured sofar = .ok result
      ↔ result.1.val = sofar.1.val + (payments.map Payment.capturedAmount).sum
        ∧ result.2 = sofar.2 + payments.countP fun p => p.state = .captured := by
  induction payments generalizing sofar with
  | nil =>
      simp only [List.foldlM_nil, pure_eq_ok, List.map_nil, List.sum_nil, List.countP_nil,
        Nat.add_zero, Prod.ext_iff, Fin.ext_iff]
      exact and_congr eq_comm eq_comm
  | cons p rest ih =>
      simp only [List.foldlM_cons, bind_eq_ok, ih, addCaptured_eq_ok, List.map_cons, List.sum_cons,
        List.countP_cons, decide_eq_true_eq]
      have bound := result.1.isLt
      constructor
      · rintro ⟨mid, ⟨sum, count⟩, total, counted⟩
        exact ⟨by omega, by omega⟩
      · rintro ⟨total, counted⟩
        refine ⟨(⟨sofar.1.val + p.capturedAmount, by omega⟩, _), ⟨rfl, rfl⟩, ?_, ?_⟩
        · simp only [total]
          omega
        · simp only [counted]
          omega

theorem foldlM_addCredits {l : Ledger} {merchants : List U128} {sofar result : U128}
    (opened : ∀ merchantId ∈ merchants, ∃ id, AccountDirectory.merchant merchantId = some id
      ∧ l.accounts[id]?.isSome)
    : merchants.foldlM (addCredits l) sofar = .ok result
      ↔ result.val
        = sofar.val
          + ((merchants.filterMap AccountDirectory.merchant).map (creditsAt l)).sum := by
  induction merchants generalizing sofar with
  | nil =>
      simp only [List.foldlM_nil, pure_eq_ok, List.filterMap_nil, List.map_nil, List.sum_nil,
        Nat.add_zero, Fin.ext_iff]
      exact eq_comm
  | cons merchantId rest ih =>
      obtain ⟨id, payee, there⟩ := opened merchantId List.mem_cons_self
      obtain ⟨account, found⟩ := Option.isSome_iff_exists.mp there
      have later (sofar : U128)
          : rest.foldlM (addCredits l) sofar = .ok result
            ↔ result.val
              = sofar.val
                + ((rest.filterMap AccountDirectory.merchant).map (creditsAt l)).sum :=
        ih fun other listed => opened other (List.mem_cons_of_mem _ listed)
      have credits : creditsAt l id = account.balance.creditsPosted.units.val := by
        simp [creditsAt, found, Amount.toNat]
      simp only [List.foldlM_cons, bind_eq_ok, later, addCredits, payee, found, okOr_eq_ok,
        Option.some.injEq, exists_eq_left', checkedAdd_eq_some, List.filterMap_cons_some payee,
        List.map_cons, List.sum_cons, credits]
      have bound := result.isLt
      constructor
      · rintro ⟨mid, sum, total⟩
        omega
      · intro total
        refine ⟨⟨sofar.val + account.balance.creditsPosted.units.val, by omega⟩, rfl, ?_⟩
        simp only [total]
        omega

theorem signed_eq_ok {total : U128} {n : Int}
    : signed total = .ok n ↔ total.val < 2 ^ 127 ∧ n = total.val := by
  simp only [signed, bind_eq_ok, ensure_eq_ok, exists_const, pure_eq_ok]
  exact and_congr_right fun _ => eq_comm

theorem sum_values (payments : Payments)
    : ((values payments).map Payment.capturedAmount).sum = capturedTotal payments := by
  simp [values, capturedTotal, total, Function.comp_def]

theorem audit_eq_ok (charted : Charted s.ledger) {timestamp : U64} {report : ReconciliationReport}
    : s.audit timestamp = .ok report
      ↔ ∃ app ledger : U128,
          (app.val = capturedTotal s.payments ∧ app.val < 2 ^ 127)
          ∧ (ledger.val = creditedTotal s.ledger ∧ ledger.val < 2 ^ 127)
          ∧ report = reportOn app ledger
              ((values s.payments).countP fun p => p.state = .captured)
              ((ledger.val : Int) - app.val) s.solanaRail.currentSettlementRoot timestamp := by
  have opened : ∀ merchantId ∈ auditedMerchants, ∃ id,
      AccountDirectory.merchant merchantId = some id ∧ s.ledger.accounts[id]?.isSome := by
    intro merchantId listed
    have accounts : auditedMerchants.map AccountDirectory.merchant = merchantAccounts.map some := by
      decide
    obtain ⟨id, mem, payee⟩ := List.mem_map.mp (accounts ▸ List.mem_map_of_mem listed)
    exact ⟨id, payee.symm, charted.merchants id mem⟩
  simp only [AppState.audit, audit, bind_eq_ok, foldlM_addCaptured, foldlM_addCredits opened,
    signed_eq_ok, sum_values, pure_eq_ok, Fin.val_zero, Nat.zero_add]
  constructor
  · rintro ⟨⟨app, count⟩, ⟨sum, rfl⟩, ledger, credited, _, ⟨fits, rfl⟩, _, ⟨fits', rfl⟩, rfl⟩
    exact ⟨app, ledger, ⟨sum, fits'⟩, ⟨credited, fits⟩, rfl⟩
  · rintro ⟨app, ledger, ⟨sum, fits'⟩, ⟨credited, fits⟩, rfl⟩
    exact ⟨(app, _), ⟨sum, rfl⟩, ledger, credited, _, ⟨fits, rfl⟩, _, ⟨fits', rfl⟩, rfl⟩

theorem audit_drift (charted : Charted s.ledger) (timestamp : U64)
    : (∀ report, s.audit timestamp = .ok report →
        report.drift = (creditedTotal s.ledger : Int) - capturedTotal s.payments)
      ∧ ((∃ report, s.audit timestamp = .ok report)
        ↔ creditedTotal s.ledger < 2 ^ 127 ∧ capturedTotal s.payments < 2 ^ 127) := by
  simp only [audit_eq_ok charted]
  constructor
  · rintro report ⟨app, ledger, ⟨captured, -⟩, ⟨credited, -⟩, rfl⟩
    rw [drift_reportOn, captured, credited]
  · constructor
    · rintro ⟨report, app, ledger, ⟨captured, fits'⟩, ⟨credited, fits⟩, -⟩
      exact ⟨credited ▸ fits, captured ▸ fits'⟩
    · rintro ⟨fits, fits'⟩
      have small : (2 : Nat) ^ 127 < 2 ^ 128 := by decide
      exact ⟨_, ⟨capturedTotal s.payments, fits'.trans small⟩,
        ⟨creditedTotal s.ledger, fits.trans small⟩, ⟨rfl, fits'⟩, ⟨rfl, fits⟩, rfl⟩

end Audit

/-- A request that keeps the two totals together, judged before it is handled: it pays into no
merchant's account, and no id it may record a payment under belongs to a captured one.
-/
def Request.Reconciles (sv : Services) (s : AppState) (request : Request) : Prop :=
  (∀ account ∈ request.credits, account ∉ merchantAccounts)
    ∧ ∀ key ∈ request.keys sv s, s.payments[key]?.map Payment.state ≠ some .captured

-- the keys are listed; ids are too many to try one by one
instance Request.decidableReconciles (sv : Services) (s : AppState) (request : Request)
    : Decidable (request.Reconciles sv s) :=
  @instDecidableAnd _ _ (List.decidableBAll _ _) (List.decidableBAll _ _)

/-- The captured payments add up to the merchants' credits, and the audit finds no drift. It answers
as long as the total fits in a signed number.
-/
def AppState.Reconciled (s : AppState) : Prop :=
  capturedTotal s.payments = creditedTotal s.ledger
    ∧ ∀ timestamp,
        (∀ report, s.audit timestamp = .ok report → report.drift = 0)
        ∧ ((∃ report, s.audit timestamp = .ok report) ↔ creditedTotal s.ledger < 2 ^ 127)

/-- Books in lockstep whose totals agree. -/
structure Books.Even (books : Books) : Prop where
  lockstep : books.Lockstep
  charted : Charted books.ledger
  totals : capturedTotal books.payments = creditedTotal books.ledger

variable {books : Books} {movement : Movement} {sv : Services} {s : AppState} {request : Request}

theorem Books.Even.moves {books' : Books} (even : books.Even) (moves : books.Moves movement books')
    (fair : books.Fair movement)
    : books'.Even where
  lockstep := even.lockstep.moves moves
  charted := by
    cases moves with
    | mark => exact even.charted
    | deposit step | reserve step | authorize step | capture _ _ step | void _ _ step =>
        exact even.charted.step step (by simp)
  totals := by
    have together := even.lockstep.totals_move even.charted moves fair
    have before := even.totals
    omega

theorem Request.Reconciles.fair (reconciles : request.Reconciles sv s)
    (writes : Writes request.credits (request.keys sv s) s.payments books movement)
    : books.Fair movement := by
  cases movement with
  | deposit t => exact reconciles.1 _ writes
  | authorize key p hold =>
      intro q stored captured
      apply reconciles.2 key writes.1
      rw [← writes.2, stored, Option.map_some, captured]
  | _ => trivial

theorem Books.Even.step (even : s.books.Even) (reconciles : request.Reconciles sv s)
    : (request.step sv s).books.Even :=
  (request.step_path sv s).invariant
    (fun holds moves writes => holds.moves moves (reconciles.fair writes)) even

theorem even_of_new {chain : Chain} {webhookSecret : Bytes}
    {programId authority : SolanaSettle.Pubkey}
    (started : AppState.new chain webhookSecret programId authority = .ok s)
    : s.books.Even := by
  rw [books_of_new started]
  refine ⟨⟨fun key p stored => ?_, fun key key' p p' stored => ?_⟩, charted_setup, ?_⟩
  · simp at stored
  · simp at stored
  · rw [creditedTotal_setup]
    rfl

theorem Books.Even.reconciled (even : s.books.Even) : s.Reconciled := by
  refine ⟨even.totals, fun timestamp => ?_⟩
  have totals : capturedTotal s.payments = creditedTotal s.ledger := even.totals
  obtain ⟨drift, answers⟩ := audit_drift even.charted timestamp
  refine ⟨fun report ok => ?_, ?_⟩
  · rw [drift report ok, totals, sub_self]
  · rw [answers, totals, and_self_iff]

/-- Along requests that neither pay a merchant directly nor record over a captured payment, the
captured payments add up to the merchants' credits.
-/
theorem captured_matches_credited {sv : Services} {webhookSecret : Bytes}
    {programId authority : SolanaSettle.Pubkey} {s : AppState}
    (started : AppState.new sv.chain webhookSecret programId authority = .ok s)
    {requests : List Request}
    (reconciling : Guarded (Request.step sv) (fun s request => request.Reconciles sv s) s requests)
    : Throughout (Request.step sv) AppState.Reconciled s requests := by
  have even : Throughout (Request.step sv) (fun s => s.books.Even) s requests :=
    reconciling.throughout (fun s request holds reconciles => holds.step reconciles)
      (even_of_new started)
  exact fun done early => (even done early).reconciled

/-- The sample payments, another capture and a deposit keep the totals together. -/
theorem captured_matches_credited_quickSeed
    : ∃ s, exampleStart = .ok s
        ∧ Throughout (Request.step exampleServices) AppState.Reconciled s
            [.quickSeed, .capture 5002, .deposit 101 none] := by
  have reconciling : okAnd exampleStart fun s =>
      decide (Guarded (Request.step exampleServices)
        (fun s request => request.Reconciles exampleServices s) s
        [.quickSeed, .capture 5002, .deposit 101 none]) := by
    decide +kernel
  obtain ⟨s, started, guarded⟩ := exists_ok_of_okAnd reconciling
  exact ⟨s, started, captured_matches_credited started (of_decide_eq_true guarded)⟩

/-- A deposit for customer 1,000,001 is paid into merchant 1's account: the merchants have 100
dollars that no payment was captured for, and the audit reports them as drift.
-/
theorem deposit_credits_merchant
    : ∃ s, exampleStart = .ok s
        ∧ ((Request.deposit 1_000_001 none).step exampleServices s).audit 0
            = .ok (ReconciliationEngine.reportOn 0 100_000_000 0 100_000_000 none 0)
        ∧ ¬ Throughout (Request.step exampleServices) AppState.Reconciled s
            [.deposit 1_000_001 none] := by
  have drifts : okAnd exampleStart fun s =>
      let s' := (Request.deposit 1_000_001 none).step exampleServices s
      decide (capturedTotal s'.payments ≠ creditedTotal s'.ledger
        ∧ s'.audit 0 = .ok (ReconciliationEngine.reportOn 0 100_000_000 0 100_000_000 none 0)) := by
    decide +kernel
  obtain ⟨s, started, both⟩ := exists_ok_of_okAnd drifts
  obtain ⟨differ, reported⟩ := of_decide_eq_true both
  refine ⟨s, started, reported, fun all => ?_⟩
  exact differ (all [.deposit 1_000_001 none] (List.prefix_refl _)).1

end TrustLedger.Demo
