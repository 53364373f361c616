import TrustLedger.Demo.Books

/-! Payments and their holds move in lockstep: whatever requests arrive in whatever order, a stored
payment and the hold it names agree, so the payment is always ready to follow its hold.
-/

namespace TrustLedger.Demo

open Foundation LedgerCore

/-- A payment agrees with its hold. -/
structure Payment.InStep (l : Ledger) (p : Payment) (pendingId : U128) (hold : Transfer)
    : Prop where
  named : p.pendingTransferId = some pendingId
  found : l.transfers[(⟨pendingId⟩ : TransferId)]? = some hold
  amount : hold.amount = ⟨p.amount⟩
  payer : AccountDirectory.customer p.customerId = some hold.debitAccountId
  payee : AccountDirectory.merchant p.merchantId = some hold.creditAccountId
  authorized : hold.state = .pending ↔ p.state = .authorized
  captured : hold.state = .posted ↔ p.state = .captured
  voided : hold.state = .voided ↔ p.state = .voided
  settled : p.state = .captured → ∃ postedId t,
    p.postedTransferId = some postedId
    ∧ l.transfers[(⟨postedId⟩ : TransferId)]? = some t
    ∧ t.state = .posted
    ∧ t.pendingId = some ⟨pendingId⟩
    ∧ t.amount = ⟨p.amount⟩

/-- No two payments name the same hold. -/
def HoldsApart (payments : Payments) : Prop :=
  ∀ (key key' : U128) (p p' : Payment), payments[key]? = some p → payments[key']? = some p' →
    p.pendingTransferId = p'.pendingTransferId → key = key'

/-- Every stored payment agrees with a hold of its own. -/
structure Books.Lockstep (books : Books) : Prop where
  inStep : ∀ (key : U128) (p : Payment), books.payments[key]? = some p →
    ∃ pendingId hold, p.InStep books.ledger pendingId hold
  apart : HoldsApart books.payments

section Steps

variable {l l' : Ledger} {p : Payment} {pendingId : U128} {hold : Transfer} {event : LedgerEvent}

theorem restate_of_untouched {id : TransferId} {t : Transfer}
    (untouched : ∀ state, event.settles ≠ some (id, state))
    : event.restate id t = t := by
  unfold LedgerEvent.restate
  split
  · rename_i pendingId state settles
    have other : pendingId ≠ id := by
      rintro rfl
      exact untouched state settles
    exact if_neg other
  · rfl

theorem Payment.InStep.step (inStep : p.InStep l pendingId hold) (step : l.Step event l')
    (untouched : ∀ state, event.settles ≠ some (⟨pendingId⟩, state))
    : p.InStep l' pendingId hold := by
  refine { inStep with found := ?_, settled := fun captured => ?_ }
  · rw [step.transfer_kept inStep.found, restate_of_untouched untouched]
  · obtain ⟨postedId, t, named, found, posted, more⟩ := inStep.settled captured
    have settled : t.state ≠ .pending := by simp [posted]
    exact ⟨postedId, t, named, step.settled_kept found settled, posted, more⟩

theorem Payment.Reserves.inStep (reserves : p.Reserves hold)
    (step : l.Step (.transferPendingCreated hold) l')
    : p.InStep l' hold.id.raw hold := by
  have pending : hold.state = .pending := by
    cases step with
    | transferPendingCreated inOrder pending fresh legs => exact pending
  exact {
    named := reserves.named
    found := step.recorded_stored rfl
    amount := reserves.amount
    payer := reserves.payer
    payee := reserves.payee
    authorized := by simp [pending, reserves.authorized]
    captured := by simp [pending, reserves.authorized]
    voided := by simp [pending, reserves.authorized]
    settled := by simp [reserves.authorized]
  }

theorem Payment.InStep.authorized_of_settles {state : TransferState}
    (inStep : p.InStep l pendingId hold) (step : l.Step event l')
    (settles : event.settles = some (⟨pendingId⟩, state))
    : p.state = .authorized := by
  obtain ⟨stored, found, pending, -⟩ := step.settles_pending settles
  obtain rfl : stored = hold := Option.some.inj (found.symm.trans inStep.found)
  exact inStep.authorized.mp pending

theorem Payment.InStep.post (inStep : p.InStep l pendingId hold) {postId : U128} {timestamp : U64}
    (step : l.Step (.transferPendingPosted ⟨pendingId⟩ ⟨postId⟩ ⟨p.amount⟩ timestamp) l')
    : Payment.InStep l'
        { p with
          state := .captured
          postedTransferId := some postId
          updatedAt := timestamp }
        pendingId { hold with state := .posted } where
  named := inStep.named
  found := by
    rw [step.transfer_kept inStep.found]
    simp [LedgerEvent.restate, LedgerEvent.settles]
  amount := inStep.amount
  payer := inStep.payer
  payee := inStep.payee
  authorized := by simp
  captured := by simp
  voided := by simp
  settled _ := by
    have recorded : l.recorded (.transferPendingPosted ⟨pendingId⟩ ⟨postId⟩ ⟨p.amount⟩ timestamp)
        = some (Ledger.settlementOf hold ⟨pendingId⟩ ⟨postId⟩ ⟨p.amount⟩ timestamp) := by
      simp [Ledger.recorded, inStep.found]
    exact ⟨postId, _, rfl, step.recorded_stored recorded, rfl, rfl, rfl⟩

theorem Payment.InStep.void (inStep : p.InStep l pendingId hold) {amount : Amount}
    {timestamp : U64} (step : l.Step (.transferPendingVoided ⟨pendingId⟩ amount timestamp) l')
    : Payment.InStep l' { p with state := .voided, updatedAt := timestamp } pendingId
        { hold with state := .voided } where
  named := inStep.named
  found := by
    rw [step.transfer_kept inStep.found]
    simp [LedgerEvent.restate, LedgerEvent.settles]
  amount := inStep.amount
  payer := inStep.payer
  payee := inStep.payee
  authorized := by simp
  captured := by simp
  voided := by simp
  settled captured := by cases captured

@[simp] theorem Payment.markSettled_pendingTransferId (p : Payment) (settledIds : List U128)
    (batchSeq : U64)
    : (p.markSettled settledIds batchSeq).pendingTransferId = p.pendingTransferId := by
  unfold Payment.markSettled
  split <;> rfl

theorem Payment.InStep.marked {settledIds : List U128} {batchSeq : U64}
    (inStep : p.InStep l pendingId hold)
    : (p.markSettled settledIds batchSeq).InStep l pendingId hold := by
  unfold Payment.markSettled
  split
  · exact { inStep with }
  · exact inStep

end Steps

namespace Books.Lockstep

variable {books books' : Books} {movement : Movement} {l l' : Ledger}
  {payments : Payments} {event : LedgerEvent} {key pendingId : U128}
  {p : Payment} {hold : Transfer}

theorem step (lockstep : Lockstep ⟨l, payments⟩) (step : l.Step event l')
    (unsettled : event.settles = none)
    : Lockstep ⟨l', payments⟩ where
  inStep key p stored := by
    obtain ⟨pendingId, hold, inStep⟩ := lockstep.inStep key p stored
    exact ⟨pendingId, hold, inStep.step step (by simp [unsettled])⟩
  apart := lockstep.apart

theorem insert (inStep : p.InStep l' pendingId hold)
    (others : ∀ key' p', key' ≠ key → payments[key']? = some p' →
      (∃ pendingId' hold', p'.InStep l' pendingId' hold')
      ∧ p'.pendingTransferId ≠ some pendingId) (apart : HoldsApart payments)
    : Lockstep ⟨l', payments.insert key p⟩ := by
  have cases {key' : U128} {p' : Payment} (stored : (payments.insert key p)[key']? = some p')
      : (key' = key ∧ p' = p) ∨ (key' ≠ key ∧ payments[key']? = some p') := by
    rw [Std.ExtTreeMap.getElem?_insert] at stored
    split at stored
    · rename_i same
      exact .inl ⟨(Std.LawfulEqOrd.eq_of_compare same).symm, (Option.some.inj stored).symm⟩
    · rename_i differs
      exact .inr ⟨fun same => differs (same ▸ Std.ReflOrd.compare_self), stored⟩
  constructor
  · intro key' p' stored
    rcases cases stored with ⟨rfl, rfl⟩ | ⟨other, there⟩
    · exact ⟨pendingId, hold, inStep⟩
    · exact (others key' p' other there).1
  · intro key' key'' p' p'' stored stored' same
    rcases cases stored with ⟨rfl, rfl⟩ | ⟨other, there⟩ <;>
      rcases cases stored' with ⟨rfl, rfl⟩ | ⟨other', there'⟩
    · rfl
    · exact absurd (same.symm.trans inStep.named) (others _ _ other' there').2
    · exact absurd (same.trans inStep.named) (others _ _ other there).2
    · exact apart key' key'' p' p'' there there' same

section Settling

variable {state : TransferState} (lockstep : Lockstep ⟨l, payments⟩)
  (stored : payments[key]? = some p) (named : p.pendingTransferId = some pendingId)
  (step : l.Step event l') (settles : event.settles = some (⟨pendingId⟩, state))

include lockstep stored named step settles

theorem follow {q : Payment} (inStep : q.InStep l' pendingId hold)
    : Lockstep ⟨l', payments.insert key q⟩ := by
  refine .insert inStep (fun key' p' other there => ?_) lockstep.apart
  obtain ⟨pendingId', hold', inStep'⟩ := lockstep.inStep key' p' there
  have different : pendingId' ≠ pendingId := by
    rintro rfl
    exact other (lockstep.apart key' key p' p there stored (inStep'.named.trans named.symm))
  exact ⟨⟨pendingId', hold', inStep'.step step (by simp [settles, Ne.symm different])⟩,
    by simp [inStep'.named, different]⟩

/-- A payment whose hold is settled is authorized before. -/
theorem settling
    : ∃ hold, p.InStep l pendingId hold ∧ p.state = .authorized
        ∧ ∀ q, payments[key]? = some q → q.state ≠ .captured := by
  obtain ⟨pendingId', hold, inStep⟩ := lockstep.inStep key p stored
  obtain rfl : pendingId' = pendingId := Option.some.inj (inStep.named.symm.trans named)
  have authorized := inStep.authorized_of_settles step settles
  refine ⟨hold, inStep, authorized, fun q found => ?_⟩
  obtain rfl : p = q := Option.some.inj (stored.symm.trans found)
  simp [authorized]

end Settling

theorem moves (lockstep : books.Lockstep) (moves : books.Moves movement books')
    : books'.Lockstep := by
  cases moves with
  | deposit step unlinked => exact lockstep.step step rfl
  | reserve step => exact lockstep.step step rfl
  | @authorize l l' payments key p hold step reserves =>
      refine .insert (reserves.inStep step) (fun key' p' other there => ?_) lockstep.apart
      obtain ⟨pendingId', hold', inStep⟩ := lockstep.inStep key' p' there
      refine ⟨⟨pendingId', hold', inStep.step step (by simp [LedgerEvent.settles])⟩, ?_⟩
      -- the new hold's id was not in use, the old one's was
      intro same
      have unused : l.transfers[hold.id]? = none := step.recorded_unused rfl
      obtain rfl : pendingId' = hold.id.raw := Option.some.inj (inStep.named.symm.trans same)
      exact absurd (unused.symm.trans inStep.found) (by simp)
  | @capture l l' payments key p pendingId postId timestamp stored named step =>
      obtain ⟨hold, inStep, authorized, -⟩ := lockstep.settling stored named step rfl
      rw [Payment.transitionToCaptured_eq_ok.mpr ⟨authorized, rfl⟩]
      exact lockstep.follow stored named step rfl (inStep.post step)
  | @void l l' payments key p pendingId amount timestamp stored named step =>
      obtain ⟨hold, inStep, authorized, -⟩ := lockstep.settling stored named step rfl
      rw [Payment.transitionToVoided_eq_ok.mpr ⟨authorized, rfl⟩]
      exact lockstep.follow stored named step rfl (inStep.void step)
  | @mark l payments settledIds batchSeq =>
      have before {key : U128} {p : Payment}
          (stored : (payments.map fun _ p => p.markSettled settledIds batchSeq)[key]? = some p)
          : ∃ q, payments[key]? = some q ∧ q.markSettled settledIds batchSeq = p := by
        simpa [Std.ExtTreeMap.getElem?_map] using stored
      constructor
      · intro key p stored
        obtain ⟨q, there, rfl⟩ := before stored
        obtain ⟨pendingId, hold, inStep⟩ := lockstep.inStep key q there
        exact ⟨pendingId, hold, inStep.marked⟩
      · intro key key' p p' stored stored' same
        obtain ⟨q, there, rfl⟩ := before stored
        obtain ⟨q', there', rfl⟩ := before stored'
        rw [Payment.markSettled_pendingTransferId, Payment.markSettled_pendingTransferId] at same
        exact lockstep.apart key key' q q' there there' same

end Books.Lockstep

/-- The state after a run of requests, each answered or refused. -/
def AppState.after (sv : Services) (s : AppState) (requests : List Request) : AppState :=
  requests.foldl (Request.step sv) s

variable {s : AppState} {chain : Chain} {webhookSecret : Bytes}
  {programId authority : SolanaSettle.Pubkey}

theorem Books.Lockstep.after {sv : Services} (lockstep : s.books.Lockstep) (requests : List Request)
    : (s.after sv requests).books.Lockstep := by
  induction requests generalizing s with
  | nil => exact lockstep
  | cons request rest ih =>
      exact ih ((request.step_path sv s).invariant (fun holds move _ => holds.moves move) lockstep)

/-- A state to start from: the sample accounts, a new rail, and nothing that has happened. -/
structure AppState.Fresh (chain : Chain) (programId authority : SolanaSettle.Pubkey) (s : AppState)
    : Prop where
  books : s.books = ⟨stateAfter setupLedger, ∅⟩
  rail : SolanaUsdcRail.new chain programId authority = .ok s.solanaRail
  idempotency : s.idempotency = fun _ => none
  nextTimestamp : s.nextTimestamp = 1_700_000_001
  refusals : s.refusals = []
  accepted : s.accepted = []

theorem fresh_of_new (started : AppState.new chain webhookSecret programId authority = .ok s)
    : s.Fresh chain programId authority := by
  unfold AppState.new at started
  split at started
  · cases started
  · rename_i ledger ran
    simp only [bind_eq_ok, pure_eq_ok] at started
    obtain ⟨rail, made, rfl⟩ := started
    cases new : SolanaUsdcRail.new chain programId authority with
    | error failure => simp [new, Except.mapError] at made
    | ok fresh =>
        obtain rfl : fresh = rail := by simpa [new, Except.mapError] using made
        exact ⟨by rw [ran]; rfl, new, rfl, rfl, rfl, rfl⟩

theorem books_of_new (started : AppState.new chain webhookSecret programId authority = .ok s)
    : s.books = ⟨stateAfter setupLedger, ∅⟩ :=
  (fresh_of_new started).books

/-- Once the ledger has settled the payment's hold, the payment moves on. -/
def Payment.Follows (l : Ledger) (p : Payment) : Prop :=
  ∀ pendingId, p.pendingTransferId = some pendingId →
    (∀ postId timestamp l',
      Ledger.postPending ⟨pendingId⟩ ⟨postId⟩ ⟨p.amount⟩ timestamp l = .ok () l' →
        ∃ captured, p.transitionToCaptured postId timestamp = .ok captured)
    ∧ ∀ timestamp l', Ledger.voidPending ⟨pendingId⟩ timestamp l = .ok () l' →
        ∃ voided, p.transitionToVoided timestamp = .ok voided

theorem Payment.InStep.follows {l : Ledger} {p : Payment} {pendingId : U128} {hold : Transfer}
    (inStep : p.InStep l pendingId hold)
    : p.Follows l := by
  intro pendingId' named
  obtain rfl : pendingId = pendingId' := Option.some.inj (inStep.named.symm.trans named)
  constructor
  · intro postId timestamp l' ran
    have applied : Ledger.applyBatchOp (.postPending ⟨pendingId⟩ ⟨postId⟩ ⟨p.amount⟩ timestamp) l
        = .ok () l' := ran
    have step := Ledger.applyBatchOp_ok_iff.mp applied
    exact ⟨_, transitionToCaptured_eq_ok.mpr ⟨inStep.authorized_of_settles step rfl, rfl⟩⟩
  · intro timestamp l' ran
    have applied : Ledger.applyBatchOp (.voidPending ⟨pendingId⟩ timestamp) l = .ok () l' := ran
    have step := Ledger.applyBatchOp_ok_iff.mp applied
    exact ⟨_, transitionToVoided_eq_ok.mpr ⟨inStep.authorized_of_settles step rfl, rfl⟩⟩

/-- After any requests, every stored payment agrees with its hold and moves on once the hold is
settled; and so does a payment that is not stored yet, which is always authorized.
-/
theorem payments_follow_holds {sv : Services} {webhookSecret : Bytes}
    {programId authority : SolanaSettle.Pubkey} {s : AppState}
    (started : AppState.new sv.chain webhookSecret programId authority = .ok s)
    (requests : List Request)
    : (∀ (key : U128) (p : Payment), (s.after sv requests).payments[key]? = some p →
        (∃ pendingId hold, p.InStep (s.after sv requests).ledger pendingId hold)
        ∧ p.Follows (s.after sv requests).ledger)
      ∧ ∀ id merchantId customerId amount feeAmount transferId timestamp l,
          (Payment.newAuthorized id merchantId customerId amount feeAmount transferId
            timestamp).Follows l := by
  have initial : s.books.Lockstep := by
    constructor
    · intro key p stored
      simp [books_of_new started] at stored
    · intro key key' p p' stored
      simp [books_of_new started] at stored
  constructor
  · intro key p stored
    obtain ⟨pendingId, hold, inStep⟩ := (initial.after requests).inStep key p stored
    exact ⟨⟨pendingId, hold, inStep⟩, inStep.follows⟩
  · intro id merchantId customerId amount feeAmount transferId timestamp l pendingId named
    exact ⟨fun _ _ _ _ => ⟨_, rfl⟩, fun _ _ _ => ⟨_, rfl⟩⟩

/-- Libraries that derive one address, hash everything to zero and read nothing. -/
def exampleServices : Services where
  hmacSha256 _ _ := []
  parsePayload _ := .error "unreadable"
  writeResponse _ := .ok "stored"
  readResponse _ := .error "unreadable"
  dollars _ := ""
  chain :=
    {
      runtime :=
        {
          createProgramAddress := fun _ _ => some SolanaUsdcRail.defaultPubkey
          clockId := SolanaUsdcRail.defaultPubkey
          sha256 := fun _ => Merkle.Hash32.zero
        }
      programErrorText := fun _ => ""
    }

/-- The application starting with these libraries. -/
def exampleStart : Except StartFailure AppState :=
  AppState.new exampleServices.chain [] SolanaUsdcRail.defaultPubkey SolanaUsdcRail.defaultPubkey

/-- An authorization of ten dollars for merchant 2. -/
def exampleAuthorization (customerId : U128) (idempotencyKey : String) : Request :=
  .authorize {
    merchantId := 2
    customerId
    amount := 10_000_000
    feeAmount := 20_000
    idempotencyKey
  }

/-- Sample payments, the third of them captured later. -/
def exampleRequests : List Request :=
  [.quickSeed, .capture 5002, .void 5002]

/-- The sample payments follow their holds; the first and the third are captured. -/
theorem payments_follow_holds_quickSeed
    : ∃ s, exampleStart = .ok s
        ∧ ((s.after exampleServices exampleRequests).payments[(5000 : U128)]?.map Payment.state
            = some .captured
          ∧ (s.after exampleServices exampleRequests).payments[(5002 : U128)]?.map Payment.state
            = some .captured)
        ∧ ∀ (key : U128) (p : Payment),
            (s.after exampleServices exampleRequests).payments[key]? = some p →
              ∃ pendingId hold,
                p.InStep (s.after exampleServices exampleRequests).ledger pendingId hold := by
  have captured : okAnd exampleStart fun s =>
      let payments := (s.after exampleServices exampleRequests).payments
      decide (payments[(5000 : U128)]?.map Payment.state = some .captured
        ∧ payments[(5002 : U128)]?.map Payment.state = some .captured) := by
    decide +kernel
  obtain ⟨s, started, both⟩ := exists_ok_of_okAnd captured
  refine ⟨s, started, of_decide_eq_true both, fun key p stored => ?_⟩
  exact ((payments_follow_holds started exampleRequests).1 key p stored).1

end TrustLedger.Demo
