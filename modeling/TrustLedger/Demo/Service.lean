import TrustLedger.Demo.Commits
import TrustLedger.Demo.Idempotency

/-! All requests side by side. A protocol says what one access of a request does to the books, the
clock and the rails, and what the request is in the middle of; every handler follows it.
-/

namespace TrustLedger.Demo

open Foundation LedgerCore Task

/-- What a request is in the middle of. -/
inductive Work where
  | idle
  /-- A hold has been posted under this id, and the payment is not stored yet. -/
  | posted (id : U128)
  | selected (transfers : List Transfer)
  /-- A rail has accepted the batch, and the payments are not marked yet. -/
  | submitted (transfers : List Transfer)

/-- The timestamp a request calls the ledger with, once it has one, and its work. -/
structure Stage where
  stamp : Option U64
  work : Work

/-- The part of the state that the protocol is about. -/
structure Core where
  ledger : Ledger
  payments : Payments
  solanaRail : SolanaUsdcRail
  nextTimestamp : U64
  refusals : List LedgerError
  accepted : List AcceptedBatch

def AppState.core (s : AppState) : Core :=
  ⟨s.ledger, s.payments, s.solanaRail, s.nextTimestamp, s.refusals, s.accepted⟩

/-- The core after a ledger call. -/
def Core.call (core : Core) (op : BatchOp) : Core :=
  {
    core with
    ledger := stateAfter (Ledger.applyBatchOp op core.ledger)
    refusals := core.refusals ++ (errorAfter (Ledger.applyBatchOp op core.ledger)).toList
  }

/-- The customers whose funds a request may hold. -/
def Request.payers (sv : Services) : Request → List U128
  | .authorize request => [request.customerId]
  | .webhook _ body =>
      match sv.parsePayload body with
      | .ok payload => if payload.eventType = "charge.authorized" then [payload.customerId] else []
      | .error _ => []
  | .quickSeed => seeds.map Seed.customerId
  | _ => []

/-- The timestamp a request goes on with when it has drawn one: a webhook has its own. -/
def Request.stamp (sv : Services) (drawn : U64) : Request → U64
  | .webhook _ body =>
      match sv.parsePayload body with
      | .ok payload => payload.timestamp
      | .error _ => drawn
  | _ => drawn

/-- The ledger calls of a request. -/
def Request.Asks (sv : Services) (request : Request) : BatchOp → Prop
  | .transfer t => t.debitAccountId = AccountDirectory.vaultAsset
  | .pending hold =>
      ∃ customerId ∈ request.payers sv,
        AccountDirectory.customer customerId = some hold.debitAccountId
  | .postPending .. | .voidPending .. => True
  | .createAccount .. | .closeAccount .. => False

/-- What an access of a request does, from one stage to the next. -/
inductive ServiceStep (sv : Services) (request : Request)
    : List Lock → (AppState → AppState) → AppState → Stage → Stage → Prop where
  | quiet {locks update s stage} (same : (update s).core = s.core)
    : ServiceStep sv request locks update s stage stage
  | draw {locks update s stage}
    (now : (update s).core = { s.core with nextTimestamp := s.nextTimestamp + 1 })
    : ServiceStep sv request locks update s stage
        { stage with stamp := some (request.stamp sv s.nextTimestamp) }
  | call {locks update s stage} (op : BatchOp) (timed : stage.stamp = some (stampOf op))
    (asks : request.Asks sv op) (now : (update s).core = s.core.call op)
    : ServiceStep sv request locks update s stage stage
  | post {locks update s stamp} (pendingId postId : TransferId) (amount : Amount) {timestamp : U64}
    {l' : Ledger} (timed : stamp = some timestamp)
    (ran : Ledger.applyBatchOp (.postPending pendingId postId amount timestamp) s.ledger
      = .ok () l')
    (now : (update s).core = { s.core with ledger := l' })
    : ServiceStep sv request locks update s ⟨stamp, .idle⟩ ⟨stamp, .posted postId.raw⟩
  | store {locks update s stamp} (key : U128) (p : Payment) (uncaptured : p.state ≠ .captured)
    (now : (update s).core = { s.core with payments := s.payments.insert key p })
    : ServiceStep sv request locks update s ⟨stamp, .idle⟩ ⟨stamp, .idle⟩
  | capture {locks update s stamp id} (key : U128) (p : Payment)
    (posted : p.postedTransferId = some id)
    (now : (update s).core = { s.core with payments := s.payments.insert key p })
    : ServiceStep sv request locks update s ⟨stamp, .posted id⟩ ⟨stamp, .idle⟩
  | select {locks update s stamp} (batch : ∃ rail, request = .settlementBatch rail)
    (same : (update s).core = s.core)
    : ServiceStep sv request locks update s ⟨stamp, .idle⟩ ⟨stamp, .selected s.unsettledTransfers⟩
  | ach {locks update s stamp transfers}
    (now : (update s).core
      = { s.core with accepted := s.accepted ++ [⟨MockAchRail.name, transfers⟩] })
    : ServiceStep sv request locks update s ⟨stamp, .selected transfers⟩
        ⟨stamp, .submitted transfers⟩
  | solana {locks update s stamp transfers} (railBatchSeq : U64) (submission : RailSubmission)
    (rail' : SolanaUsdcRail)
    (ran : SolanaUsdcRail.submitBatch sv.chain railBatchSeq transfers s.solanaRail
      = .ok submission rail')
    (now : (update s).core
      = {
          s.core with
          solanaRail := rail'
          accepted := s.accepted ++ [⟨SolanaUsdcRail.name, transfers⟩]
        })
    : ServiceStep sv request locks update s ⟨stamp, .selected transfers⟩
        ⟨stamp, .submitted transfers⟩
  | mark {locks update s stamp transfers} (batchSeq : U64)
    (now : (update s).core
      = {
          s.core with
          payments := s.payments.map fun _ p =>
            p.markSettled (transfers.map fun t => t.id.raw) batchSeq
        })
    : ServiceStep sv request locks update s ⟨stamp, .submitted transfers⟩ ⟨stamp, .idle⟩

/-- What an access does to the ledger: one call at most, with the timestamp of the stage. -/
inductive LedgerCall (sv : Services) (request : Request) (stamp : Option U64) (s s' : AppState)
    : Prop where
  | none (ledger : s'.ledger = s.ledger) (refusals : s'.refusals = s.refusals)
  | applied (op : BatchOp) (timed : stamp = some (stampOf op)) (asks : request.Asks sv op)
    (step : s.ledger.Step (op.event s.ledger) s'.ledger) (refusals : s'.refusals = s.refusals)
  | refused (op : BatchOp) (error : LedgerError) (timed : stamp = some (stampOf op))
    (ran : Ledger.applyBatchOp op s.ledger = .error error s.ledger)
    (ledger : s'.ledger = s.ledger) (refusals : s'.refusals = s.refusals ++ [error])

theorem ServiceStep.ledgerCall {sv : Services} {request : Request} {locks : List Lock}
    {update : AppState → AppState} {s : AppState} {stage stage' : Stage}
    (step : ServiceStep sv request locks update s stage stage')
    : LedgerCall sv request stage.stamp s (update s) := by
  have unchanged {core : Core} (now : (update s).core = core) (ledger : core.ledger = s.ledger)
      (refusals : core.refusals = s.refusals)
      : LedgerCall sv request stage.stamp s (update s) :=
    .none ((congrArg Core.ledger now).trans ledger) ((congrArg Core.refusals now).trans refusals)
  cases step with
  | quiet now | draw now | store _ _ _ now | capture _ _ _ now | select _ now | ach now
    | solana _ _ _ _ now | mark _ now => exact unchanged now rfl rfl
  | call op timed asks now =>
      have ledger : (update s).ledger = stateAfter (Ledger.applyBatchOp op s.ledger) :=
        congrArg Core.ledger now
      have refusals : (update s).refusals
          = s.refusals ++ (errorAfter (Ledger.applyBatchOp op s.ledger)).toList :=
        congrArg Core.refusals now
      rcases applyBatchOp_cases op s.ledger with ⟨error, ran⟩ | ⟨l', ran, step⟩
      · rw [ran] at ledger refusals
        exact .refused op error timed ran ledger refusals
      · rw [ran] at ledger refusals
        refine .applied op timed asks (ledger ▸ step) ?_
        rw [refusals]
        exact List.append_nil _
  | post pendingId postId amount timed ran now =>
      have ledger : (update s).ledger = _ := congrArg Core.ledger now
      have step := Ledger.applyBatchOp_ok_iff.mp ran
      exact .applied (.postPending pendingId postId amount _) timed trivial (ledger ▸ step)
        (congrArg Core.refusals now)

/-- The settlement lock is held from the selection of a batch until its payments are marked. -/
def Work.needs : Work → Lock → Prop
  | .idle, _ | .posted _, _ => False
  | .selected _, lock | .submitted _, lock => lock = .settlement

/-- Work that may be given up. A batch that a rail has accepted may not. -/
def Work.Abandoned : Work → Prop
  | .submitted _ => False
  | _ => True

def serviceProtocol (sv : Services) : Protocol Lock AppState Request Stage where
  act := ServiceStep sv
  needs stage := stage.work.needs
  abandon stage stage' :=
    stage' = stage ∨ stage.work.Abandoned ∧ stage' = ⟨stage.stamp, .idle⟩

/-- What is known when a handler returns. -/
abbrev Ending (α : Type) :=
  Except Failure α → List Lock → Stage → Prop

section Follows

variable {sv : Services} {request : Request} {α β : Type} {held : List Lock} {stage : Stage}
  {stamp : Option U64} {transferId amount pendingId postId key : U128} {timestamp : U64}
  {Q : Ending Unit} {p : Payment} {transfers : List Transfer}

/-- The locks that work needs are held. -/
def Work.Fits (work : Work) (held : List Lock) : Prop :=
  ∀ lock, work.needs lock → lock ∈ held

theorem fits_idle : Work.idle.Fits held :=
  fun _ needed => needed.elim

theorem fits_posted (id : U128) : (Work.posted id).Fits held :=
  fun _ needed => needed.elim

theorem serves_kept {locks : List Lock} {f : AppState → α × AppState} {next : α → Handler β}
    {Q : Ending β} (same : ∀ s, (f s).2.core = s.core) (fits : stage.work.Fits held)
    (goes : ∀ s, (next (f s).1).Follows (serviceProtocol sv) request held stage Q)
    : (Task.update locks f >>= next).Follows (serviceProtocol sv) request held stage Q := by
  rw [follows_bind, follows_update]
  exact fun s => ⟨stage, .quiet (same s), fits, goes s⟩

theorem serves_drawTimestamp {next : U64 → Handler β} {Q : Ending β} (fits : stage.work.Fits held)
    (goes : ∀ drawn, (next drawn).Follows (serviceProtocol sv) request held
      { stage with stamp := some (request.stamp sv drawn) } Q)
    : (drawTimestamp >>= next).Follows (serviceProtocol sv) request held stage Q := by
  rw [follows_bind, drawTimestamp, follows_update]
  exact fun s => ⟨_, .draw rfl, fits, goes s.nextTimestamp⟩

theorem serves_onLedger (op : BatchOp) {Q : Ending (Except LedgerError Unit)}
    (timed : stage.stamp = some (stampOf op)) (asks : request.Asks sv op)
    (fits : stage.work.Fits held) (answers : ∀ result, Q (.ok result) held stage)
    : (onLedger (Ledger.applyBatchOp op)).Follows (serviceProtocol sv) request held stage Q := by
  rw [onLedger, follows_update]
  exact fun s => ⟨stage, .call op timed asks rfl, fits, answers _⟩

/-- What a request does between its accesses, and the accesses that change nothing here. -/
def Quiet (sv : Services) (request : Request) (x : Handler Unit) : Prop :=
  ∀ (held : List Lock) (stage : Stage) (Q : Ending Unit),
    stage.work.Fits held → Q (.ok ()) held stage
    → x.Follows (serviceProtocol sv) request held stage Q

theorem quiet_pure : Quiet sv request (pure ()) :=
  fun _ _ _ _ goes => goes

theorem quiet_releaseKey (key : String) : Quiet sv request (releaseKey key) := by
  intro held stage Q fits goes
  rw [releaseKey, follows_update]
  exact fun s => ⟨stage, .quiet rfl, fits, goes⟩

theorem serves_reserve {onFailure : Handler Unit} {customerId : U128}
    {customer merchant : AccountId} (quiet : Quiet sv request onFailure)
    (listed : customerId ∈ request.payers sv)
    (payer : AccountDirectory.customer customerId = some customer)
    (refused : ∀ failure, Q (.error failure) held ⟨some timestamp, .idle⟩)
    (reserved : Q (.ok ()) held ⟨some timestamp, .idle⟩)
    : (reserve onFailure transferId customer merchant amount timestamp).Follows (serviceProtocol sv)
        request held ⟨some timestamp, .idle⟩ Q := by
  unfold reserve
  cases built : Transfer.newPending ⟨transferId⟩ customer merchant ⟨amount⟩ timestamp with
  | error error => exact follows_bind.mpr (quiet _ _ _ fits_idle (refused _))
  | ok hold =>
      obtain ⟨-, -, rfl⟩ := Transfer.validated_eq_ok.mp built
      refine Task.Follows.holding (follows_bind.mpr ?_)
      refine serves_onLedger (.pending _) rfl ⟨customerId, listed, payer⟩ fits_idle fun result => ?_
      cases result with
      | error error =>
          exact follows_bind.mpr
            (quiet _ _ _ fits_idle ⟨rfl, ⟨some timestamp, .idle⟩, .inl rfl, fits_idle, refused _⟩)
      | ok _ => exact ⟨rfl, ⟨some timestamp, .idle⟩, .inl rfl, fits_idle, reserved⟩

theorem serves_postHold {Q : Ending Payment}
    (refused : ∀ failure, Q (.error failure) held ⟨some timestamp, .idle⟩)
    (unmoved : ∀ error, p.transitionToCaptured postId timestamp = .error error
      → Q (.error (.reply .badRequest error.text)) held ⟨some timestamp, .posted postId⟩)
    (moved : ∀ captured, p.transitionToCaptured postId timestamp = .ok captured
      → Q (.ok captured) held ⟨some timestamp, .posted postId⟩)
    : (postHold p pendingId postId timestamp).Follows (serviceProtocol sv) request held
        ⟨some timestamp, .idle⟩ Q := by
  rw [postHold, follows_bind, onLedger, follows_update]
  intro s
  have asked : Ledger.postPending ⟨pendingId⟩ ⟨postId⟩ ⟨p.amount⟩ timestamp
      = Ledger.applyBatchOp (.postPending ⟨pendingId⟩ ⟨postId⟩ ⟨p.amount⟩ timestamp) := rfl
  rcases applyBatchOp_cases (.postPending ⟨pendingId⟩ ⟨postId⟩ ⟨p.amount⟩ timestamp) s.ledger
    with ⟨error, ran⟩ | ⟨l', ran, step⟩
  · refine ⟨_, .call (.postPending ⟨pendingId⟩ ⟨postId⟩ ⟨p.amount⟩ timestamp) rfl trivial rfl,
      fits_idle, ?_⟩
    rw [asked, ran]
    exact refused _
  · refine ⟨_, .post ⟨pendingId⟩ ⟨postId⟩ ⟨p.amount⟩ rfl ran ?_, fits_posted postId, ?_⟩
    · simp [AppState.core, asked, ran, stateAfter, errorAfter]
    · rw [asked, ran]
      refine follows_bind.mpr ?_
      cases transition : p.transitionToCaptured postId timestamp with
      | error error => exact unmoved error transition
      | ok captured => exact moved captured transition

theorem serves_voidHold {Q : Ending Payment}
    (refused : ∀ failure, Q (.error failure) held ⟨some timestamp, .idle⟩)
    (moved : ∀ voided, p.transitionToVoided timestamp = .ok voided
      → Q (.ok voided) held ⟨some timestamp, .idle⟩)
    : (voidHold p pendingId timestamp).Follows (serviceProtocol sv) request held
        ⟨some timestamp, .idle⟩ Q := by
  rw [voidHold, follows_bind]
  refine serves_onLedger (.voidPending ⟨pendingId⟩ timestamp) rfl trivial fits_idle fun result => ?_
  cases result with
  | error error => exact refused _
  | ok _ =>
      refine follows_bind.mpr ?_
      cases transition : p.transitionToVoided timestamp with
      | error error => exact refused _
      | ok voided => exact moved voided transition

theorem serves_payIn {account : AccountId}
    (answers : ∀ result, Q result held ⟨some timestamp, .idle⟩)
    : (payIn transferId account amount timestamp).Follows (serviceProtocol sv) request held
        ⟨some timestamp, .idle⟩ Q := by
  rw [payIn, follows_bind]
  cases built : Transfer.newImmediate ⟨transferId⟩ AccountDirectory.vaultAsset account ⟨amount⟩
    timestamp with
  | error error => exact answers _
  | ok deposit =>
      obtain ⟨-, -, rfl⟩ := Transfer.validated_eq_ok.mp built
      refine follows_bind.mpr ?_
      refine serves_onLedger (.transfer _) rfl rfl fits_idle fun result => ?_
      cases result <;> exact answers _

theorem serves_store (uncaptured : p.state ≠ .captured) (goes : Q (.ok ()) held ⟨stamp, .idle⟩)
    : (insertPayment key p).Follows (serviceProtocol sv) request held ⟨stamp, .idle⟩ Q := by
  rw [insertPayment, follows_update]
  exact fun s => ⟨_, .store key p uncaptured rfl, fits_idle, goes⟩

theorem serves_capture {captured : Payment}
    (moved : p.transitionToCaptured postId timestamp = .ok captured)
    (goes : Q (.ok ()) held ⟨stamp, .idle⟩)
    : (insertPayment key captured).Follows (serviceProtocol sv) request held
        ⟨stamp, .posted postId⟩ Q := by
  obtain ⟨-, rfl⟩ := Payment.transitionToCaptured_eq_ok.mp moved
  rw [insertPayment, follows_update]
  exact fun s => ⟨_, .capture key _ rfl rfl, fits_idle, goes⟩

/-- A request ends with the locks it had before, idle. -/
def Returns {α : Type} (held : List Lock) : Ending α :=
  fun _ held' stage' => held' = held ∧ stage'.work = .idle

theorem handleAuthorize_served (req : AuthorizeRequest)
    : (handleAuthorize sv req).Follows (serviceProtocol sv) (.authorize req) held ⟨stamp, .idle⟩
        (Returns held) := by
  unfold handleAuthorize
  refine serves_kept (fun s => rfl) fits_idle fun s => ?_
  refine follows_bind.mpr (follows_orRefuse.mpr ?_)
  cases (s.idempotency.tryAcquire req.idempotencyKey).1 with
  | error error => exact ⟨rfl, rfl⟩
  | ok acquired =>
      cases acquired with
      | some cachedJson => exact follows_orRefuse.mpr ⟨rfl, rfl⟩
      | none =>
          refine serves_kept (fun _ => rfl) fits_idle fun s₁ => ?_
          refine serves_kept (fun _ => rfl) fits_idle fun s₂ => ?_
          refine serves_drawTimestamp fits_idle fun now => ?_
          refine follows_bind.mpr (follows_orPanic ⟨rfl, rfl⟩ fun customer payer => ?_)
          refine follows_bind.mpr (follows_orPanic ⟨rfl, rfl⟩ fun merchant payee => ?_)
          refine follows_bind.mpr (serves_reserve (quiet_releaseKey _)
            (List.mem_singleton_self _) payer (fun _ => ⟨rfl, rfl⟩) ?_)
          refine follows_bind.mpr (serves_store (by simp [Payment.newAuthorized]) ?_)
          refine follows_bind.mpr (follows_orRefuse.mpr ?_)
          cases sv.writeResponse _ with
          | error text => exact ⟨rfl, rfl⟩
          | ok json =>
              dsimp only [Except.mapError]
              rw [follows_update]
              exact fun s₃ => ⟨_, .quiet rfl, fits_idle, rfl, rfl⟩

theorem serves_findHeld {paymentId : U128} {Q : Ending (Payment × U128)}
    (refused : ∀ failure, Q (.error failure) held ⟨stamp, .idle⟩)
    (found : ∀ p pendingId, Q (.ok (p, pendingId)) held ⟨stamp, .idle⟩)
    : (findHeld paymentId).Follows (serviceProtocol sv) request held ⟨stamp, .idle⟩ Q := by
  unfold findHeld
  refine serves_kept (fun _ => rfl) fits_idle fun s => ?_
  cases s.payments[paymentId]? with
  | none => exact refused _
  | some p =>
      cases named : p.pendingTransferId with
      | none =>
          simp only [named]
          exact refused _
      | some pendingId =>
          simp only [named]
          exact found p pendingId

theorem serves_holding {lock : Lock} {x : Handler α} {Q : Ending α}
    (follows : x.Follows (serviceProtocol sv) request (lock :: held) stage
      fun r held' stage' => held' = lock :: held ∧ stage'.work.Abandoned
        ∧ Q r held ⟨stage'.stamp, .idle⟩)
    : (Task.holding lock x).Follows (serviceProtocol sv) request held stage Q := by
  refine Task.Follows.holding (follows.mono fun r held' stage' ends => ?_)
  obtain ⟨same, abandoned, answers⟩ := ends
  exact ⟨same, _, .inr ⟨abandoned, rfl⟩, fits_idle, answers⟩

theorem handleCapture_served (paymentId : U128)
    : (handleCapture paymentId).Follows (serviceProtocol sv) (.capture paymentId) held
        ⟨stamp, .idle⟩ (Returns held) := by
  refine serves_holding (follows_bind.mpr ?_)
  refine serves_findHeld (fun _ => ⟨rfl, trivial, rfl, rfl⟩) fun p pendingId => ?_
  refine serves_kept (fun _ => rfl) fits_idle fun s => ?_
  refine serves_drawTimestamp fits_idle fun now => follows_bind.mpr ?_
  refine serves_postHold (fun _ => ⟨rfl, trivial, rfl, rfl⟩) (fun _ _ => ⟨rfl, trivial, rfl, rfl⟩)
    fun captured moved => ?_
  exact follows_bind.mpr (serves_capture moved ⟨rfl, trivial, rfl, rfl⟩)

theorem handleVoid_served (paymentId : U128)
    : (handleVoid paymentId).Follows (serviceProtocol sv) (.void paymentId) held ⟨stamp, .idle⟩
        (Returns held) := by
  refine serves_holding (follows_bind.mpr ?_)
  refine serves_findHeld (fun _ => ⟨rfl, trivial, rfl, rfl⟩) fun p pendingId => ?_
  refine serves_drawTimestamp fits_idle fun now => follows_bind.mpr ?_
  refine serves_voidHold (fun _ => ⟨rfl, trivial, rfl, rfl⟩) fun voided moved => ?_
  obtain ⟨-, rfl⟩ := Payment.transitionToVoided_eq_ok.mp moved
  exact follows_bind.mpr (serves_store (by simp) ⟨rfl, trivial, rfl, rfl⟩)

theorem handleCustomerDeposit_served (customerId : U128) (amount : Option U128)
    : (handleCustomerDeposit sv customerId amount).Follows (serviceProtocol sv)
        (.deposit customerId amount) held ⟨stamp, .idle⟩ (Returns held) := by
  unfold handleCustomerDeposit
  refine serves_kept (fun _ => rfl) fits_idle fun s => ?_
  refine serves_drawTimestamp fits_idle fun now => ?_
  refine follows_bind.mpr (follows_orPanic ⟨rfl, rfl⟩ fun account payee => ?_)
  refine serves_holding (follows_bind.mpr (serves_payIn fun result => ?_))
  cases result with
  | error failure => exact ⟨rfl, trivial, rfl, rfl⟩
  | ok _ =>
      refine serves_kept (fun _ => rfl) fits_idle fun s₁ => ?_
      cases s₁.ledger.accounts[account]? with
      | none => exact ⟨rfl, trivial, rfl, rfl⟩
      | some stored => exact ⟨rfl, trivial, rfl, rfl⟩

theorem chargeAuthorized_served {payload : WebhookPayload}
    (listed : payload.customerId ∈ request.payers sv)
    : (chargeAuthorized payload).Follows (serviceProtocol sv) request held
        ⟨some payload.timestamp, .idle⟩ (Returns held) := by
  unfold chargeAuthorized
  refine serves_kept (fun _ => rfl) fits_idle fun s => ?_
  refine follows_bind.mpr (follows_orPanic ⟨rfl, rfl⟩ fun customer payer => ?_)
  refine follows_bind.mpr (follows_orPanic ⟨rfl, rfl⟩ fun merchant payee => ?_)
  refine follows_bind.mpr (serves_reserve quiet_pure listed payer (fun _ => ⟨rfl, rfl⟩) ?_)
  exact serves_store (by simp [Payment.newAuthorized]) ⟨rfl, rfl⟩

theorem chargeCaptured_served (payload : WebhookPayload)
    : (chargeCaptured payload).Follows (serviceProtocol sv) request held
        ⟨some payload.timestamp, .idle⟩ (Returns held) := by
  refine serves_holding (serves_kept (fun _ => rfl) fits_idle fun s => ?_)
  cases s.payments[payload.paymentId]? with
  | none => exact ⟨rfl, trivial, rfl, rfl⟩
  | some p =>
      cases named : p.pendingTransferId with
      | none =>
          simp only [named]
          exact ⟨rfl, trivial, rfl, rfl⟩
      | some pendingId =>
          simp only [named]
          refine serves_kept (fun _ => rfl) fits_idle fun s₁ => follows_bind.mpr ?_
          refine serves_postHold (fun _ => ⟨rfl, trivial, rfl, rfl⟩)
            (fun _ _ => ⟨rfl, trivial, rfl, rfl⟩) fun captured moved => ?_
          exact serves_capture moved ⟨rfl, trivial, rfl, rfl⟩

theorem handleWebhook_served (signature : Option String) (body : String)
    : (handleWebhook sv signature body).Follows (serviceProtocol sv) (.webhook signature body) held
        ⟨stamp, .idle⟩ (Returns held) := by
  unfold handleWebhook
  refine serves_kept (fun _ => rfl) fits_idle fun s => ?_
  cases accepted : authenticate sv s.webhookSecret signature body with
  | error failure =>
      dsimp only
      exact ⟨rfl, rfl⟩
  | ok payload =>
      have parsed := parsePayload_of_authenticate accepted
      dsimp only
      refine serves_drawTimestamp fits_idle fun now => ?_
      have stamped : (Request.webhook signature body).stamp sv now = payload.timestamp := by
        simp only [Request.stamp, parsed]
      rw [stamped]
      refine follows_bind.mpr (follows_orRefuse.mpr ?_)
      cases WebhookVerifier.verifyFreshness payload.timestamp now 300 with
      | error error => exact ⟨rfl, rfl⟩
      | ok _ =>
          refine serves_kept (fun _ => rfl) fits_idle fun s₁ => ?_
          refine follows_bind.mpr (follows_orRefuse.mpr ?_)
          cases (s₁.webhookDedupe.checkAndRecord payload.eventId).1 with
          | error error => exact ⟨rfl, rfl⟩
          | ok _ =>
              dsimp only [Except.mapError]
              split
              · rename_i authorized
                have listed : payload.customerId ∈ (Request.webhook signature body).payers sv := by
                  simp [Request.payers, parsed, authorized]
                refine follows_bind.mpr ((chargeAuthorized_served listed).mono ?_)
                rintro r held' stage' ends
                cases r <;> exact ends
              · split
                · refine follows_bind.mpr ((chargeCaptured_served payload).mono ?_)
                  rintro r held' stage' ends
                  cases r <;> exact ends
                · exact ⟨rfl, rfl⟩

theorem serves_forM {list : List α} {x : α → Handler Unit}
    (each : ∀ a ∈ list, ∀ stamp, (x a).Follows (serviceProtocol sv) request held ⟨stamp, .idle⟩
      (Returns held))
    : (list.forM x).Follows (serviceProtocol sv) request held ⟨stamp, .idle⟩ (Returns held) := by
  induction list generalizing stamp with
  | nil => exact ⟨rfl, rfl⟩
  | cons a rest ih =>
      change (x a >>= fun _ => rest.forM x).Follows _ _ _ _ _
      refine follows_bind.mpr ((each a List.mem_cons_self stamp).mono ?_)
      rintro r held' ⟨stamp', work⟩ ⟨rfl, rfl⟩
      cases r with
      | error failure => exact ⟨rfl, rfl⟩
      | ok _ => exact ih fun b listed => each b (List.mem_cons_of_mem _ listed)

theorem seedDeposit_served (customerId : U128)
    : (seedDeposit customerId).Follows (serviceProtocol sv) .quickSeed held ⟨stamp, .idle⟩
        (Returns held) := by
  unfold seedDeposit
  refine serves_drawTimestamp fits_idle fun now => ?_
  refine serves_kept (fun _ => rfl) fits_idle fun s => ?_
  refine follows_bind.mpr (follows_orPanic ⟨rfl, rfl⟩ fun account payee => ?_)
  exact serves_payIn fun result => ⟨rfl, rfl⟩

theorem seedPayment_served {seed : Seed} (listed : seed ∈ seeds)
    : (seedPayment seed).Follows (serviceProtocol sv) .quickSeed held ⟨stamp, .idle⟩
        (Returns held) := by
  unfold seedPayment
  refine serves_drawTimestamp fits_idle fun holdTs => ?_
  refine serves_kept (fun _ => rfl) fits_idle fun s => ?_
  refine serves_kept (fun _ => rfl) fits_idle fun s₁ => ?_
  refine follows_bind.mpr (follows_orPanic ⟨rfl, rfl⟩ fun customer payer => ?_)
  refine follows_bind.mpr (follows_orPanic ⟨rfl, rfl⟩ fun merchant payee => ?_)
  refine follows_bind.mpr (serves_reserve quiet_pure (List.mem_map_of_mem listed) payer
    (fun _ => ⟨rfl, rfl⟩) (follows_bind.mpr ?_))
  cases seed.target with
  | captured =>
      refine serves_drawTimestamp fits_idle fun postTs => ?_
      refine serves_kept (fun _ => rfl) fits_idle fun s₂ => ?_
      refine serves_postHold (fun _ => ⟨rfl, rfl⟩) (fun _ refused => by cases refused)
        fun captured moved => ?_
      exact serves_capture moved ⟨rfl, rfl⟩
  | voided =>
      refine serves_drawTimestamp fits_idle fun voidTs => ?_
      refine serves_voidHold (fun _ => ⟨rfl, rfl⟩) fun voided moved => ?_
      obtain ⟨-, rfl⟩ := Payment.transitionToVoided_eq_ok.mp moved
      exact serves_store (by simp) ⟨rfl, rfl⟩
  | authorized => exact serves_store (by simp [Payment.newAuthorized]) ⟨rfl, rfl⟩
  | refunded => exact serves_store (by simp [Payment.newAuthorized]) ⟨rfl, rfl⟩

theorem handleQuickSeed_served
    : handleQuickSeed.Follows (serviceProtocol sv) .quickSeed held ⟨stamp, .idle⟩
        (Returns held) := by
  unfold handleQuickSeed
  refine follows_bind.mpr (serves_holding ?_)
  refine (serves_forM fun customerId _ _ => seedDeposit_served customerId).mono ?_
  rintro r held' ⟨stamp', work⟩ ⟨rfl, rfl⟩
  refine ⟨rfl, trivial, ?_⟩
  cases r with
  | error failure => exact ⟨rfl, rfl⟩
  | ok _ =>
      refine follows_bind.mpr ?_
      refine (serves_forM fun seed listed _ => seedPayment_served listed).mono ?_
      rintro r held' stage' ends
      cases r <;> exact ends

theorem handleReconciliation_served
    : (handleReconciliation sv).Follows (serviceProtocol sv) request held ⟨stamp, .idle⟩
        (Returns held) := by
  unfold handleReconciliation
  refine serves_kept (fun _ => rfl) fits_idle fun s => ?_
  refine serves_drawTimestamp fits_idle fun now => ?_
  cases s.audit now with
  | error failure => exact ⟨rfl, rfl⟩
  | ok report =>
      refine serves_kept (fun _ => rfl) fits_idle fun s₁ => ?_
      exact follows_orPanic ⟨rfl, rfl⟩ fun _ _ => ⟨rfl, rfl⟩

section Submitting

variable {Q : Ending RailSubmission} (locked : .settlement ∈ held)
  (refused : ∀ failure, Q (.error failure) held ⟨stamp, .selected transfers⟩)
  (submitted : ∀ submission, Q (.ok submission) held ⟨stamp, .submitted transfers⟩)

include locked refused submitted

theorem submitToAch_served
    : (submitToAch transfers).Follows (serviceProtocol sv) request held
        ⟨stamp, .selected transfers⟩ Q := by
  have fits : (Work.selected transfers).Fits held := fun _ needed => needed ▸ locked
  unfold submitToAch
  refine serves_kept (fun _ => rfl) fits fun s => ?_
  cases checkedAdd s.batchSeq 1 with
  | none => exact refused _
  | some railBatchSeq =>
      dsimp only
      cases MockAchRail.submitBatch railBatchSeq transfers with
      | error failure => exact refused _
      | ok submission =>
          refine follows_bind.mpr (follows_update.mpr fun s₁ => ?_)
          exact ⟨_, .ach rfl, fun _ needed => needed ▸ locked, submitted submission⟩

theorem submitToSolana_served
    : (submitToSolana sv transfers).Follows (serviceProtocol sv) request held
        ⟨stamp, .selected transfers⟩ Q := by
  have fits : (Work.selected transfers).Fits held := fun _ needed => needed ▸ locked
  unfold submitToSolana
  refine serves_kept (fun _ => rfl) fits fun s => ?_
  cases nextChainBatch s.solanaRail with
  | none => exact refused _
  | some railBatchSeq =>
      refine follows_bind.mpr (follows_update.mpr fun s₁ => ?_)
      cases ran : SolanaUsdcRail.submitBatch sv.chain railBatchSeq transfers s₁.solanaRail with
      | error failure rail' =>
          obtain rfl := SolanaUsdcRail.submitBatch_error ran
          refine ⟨_, .quiet ?_, fits, refused _⟩
          simp [AppState.core, ran, stateAfter, errorAfter]
      | ok submission rail' =>
          refine ⟨_, .solana railBatchSeq submission rail' ran ?_, fun _ needed => needed ▸ locked,
            submitted submission⟩
          simp [AppState.core, ran, stateAfter, errorAfter]

theorem submitTo_served {railChoice : String}
    : (submitTo sv railChoice transfers).Follows (serviceProtocol sv) request held
        ⟨stamp, .selected transfers⟩ Q := by
  unfold submitTo
  split
  · exact submitToAch_served locked refused submitted
  · exact submitToSolana_served locked refused submitted

end Submitting

theorem handleSettlementBatch_served (rail : Option String)
    : (handleSettlementBatch sv rail).Follows (serviceProtocol sv) (.settlementBatch rail) held
        ⟨stamp, .idle⟩ (Returns held) := by
  refine serves_holding (follows_bind.mpr (follows_update.mpr fun s => ?_))
  refine ⟨_, .select ⟨rail, rfl⟩ rfl, fun _ needed => needed ▸ List.mem_cons_self, ?_⟩
  dsimp only
  split
  · exact ⟨rfl, trivial, rfl, rfl⟩
  · -- a refused batch is given up, an accepted one marked
    refine follows_bind.mpr (submitTo_served List.mem_cons_self
      (fun _ => ⟨rfl, trivial, rfl, rfl⟩) fun submission => ?_)
    refine follows_bind.mpr (follows_update.mpr fun s₁ => ?_)
    refine ⟨_, .mark submission.batchSeq rfl, fits_idle, ?_⟩
    exact serves_kept (fun _ => rfl) fits_idle fun s₂ => ⟨rfl, trivial, rfl, rfl⟩

/-- Every request is served as the protocol says. -/
theorem Request.served (sv : Services) (request : Request)
    : (request.handle sv).Follows (serviceProtocol sv) request [] ⟨none, .idle⟩
        fun _ _ _ => True := by
  have replied {α : Type} {x : Handler α} {reply : α → Reply}
      (served : x.Follows (serviceProtocol sv) request [] ⟨none, .idle⟩ (Returns []))
      : Task.Follows (serviceProtocol sv) request (do return reply (← x)) [] ⟨none, .idle⟩
          fun _ _ _ => True := by
    refine follows_bind.mpr (served.mono fun r held' stage' ends => ?_)
    cases r <;> trivial
  cases request with
  | authorize request => exact replied (handleAuthorize_served request)
  | capture paymentId => exact replied (handleCapture_served paymentId)
  | void paymentId => exact replied (handleVoid_served paymentId)
  | deposit customerId amount => exact replied (handleCustomerDeposit_served customerId amount)
  | webhook signature body => exact replied (handleWebhook_served signature body)
  | quickSeed => exact replied handleQuickSeed_served
  | settlementBatch rail => exact replied (handleSettlementBatch_served rail)
  | reconciliation => exact replied handleReconciliation_served
  | simulateDrift =>
      refine replied (serves_kept (fun _ => rfl) fits_idle fun s => ?_)
      exact handleReconciliation_served
  | healDrift =>
      refine replied (serves_kept (fun _ => rfl) fits_idle fun s => ?_)
      exact handleReconciliation_served

end Follows

/-- Requests being served. -/
abbrev ServicePool := Pool Lock AppState Failure Reply Request

abbrev ServiceThread := Thread Lock AppState Failure Reply Request

/-- The pool after a schedule. -/
def AppState.serve (sv : Services) (s : AppState) (events : List (Event Request)) : ServicePool :=
  (Pool.start s).run (Locking.exclusive Lock) (Request.handle sv) events

theorem Request.enters (sv : Services) (request : Request)
    : Pool.At (serviceProtocol sv) (fun _ _ _ => True)
        (⟨request, request.handle sv, []⟩ : ServiceThread)
        (request, ⟨none, .idle⟩) :=
  ⟨rfl, request.served sv, fun _ needed => needed.elim⟩

end TrustLedger.Demo
