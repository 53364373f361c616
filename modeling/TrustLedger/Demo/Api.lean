import TrustLedger.Demo.Guards
import TrustLedger.Demo.Rail
import TrustLedger.Demo.Reconciliation
import TrustLedger.Foundation.Tasks

/-! HTTP handlers of the demo application, over its shared state. Every lock-protected access of the
source is one access here. Counters are atomic and wrap around. A handler that panics ends there and
leaves what it has written.
-/

namespace TrustLedger.Demo

open Foundation LedgerCore SolanaSettle

/-- Locks held over more than one access. -/
inductive Lock where
  | ledger
  | payments
  | settlement
  deriving DecidableEq, Repr

/-- A batch that a rail has accepted. -/
structure AcceptedBatch where
  rail : String
  transfers : List Transfer
  deriving DecidableEq, Repr

abbrev Payments := Std.ExtTreeMap U128 Payment

/-- State shared by all handlers, and what has happened outside it: the errors of ledger calls, and
the batches the rails have accepted. No handler reads these two.
-/
structure AppState where
  ledger : Ledger
  payments : Payments
  idempotency : IdempotencyStore
  webhookDedupe : WebhookDeduplicator
  solanaRail : SolanaUsdcRail
  webhookSecret : Bytes
  nextPaymentId : U64
  nextTransferId : U64
  nextTimestamp : U64
  batchSeq : U64
  simulatedDrift : Int
  refusals : List LedgerError
  accepted : List AcceptedBatch

structure AuthorizeRequest where
  merchantId : U128
  customerId : U128
  amount : U128
  feeAmount : U128
  idempotencyKey : String
  deriving DecidableEq, Repr

structure PaymentResponse where
  paymentId : U128
  state : PaymentState
  amount : U128
  pendingTransferId : Option U128
  postedTransferId : Option U128
  deriving DecidableEq, Repr

structure BatchResponse where
  rail : String
  batchSeq : U64
  transferCount : Nat
  totalAmount : U128
  reference : String
  merkleRoot : Option String
  deriving DecidableEq, Repr

structure QuickSeedResponse where
  seededCount : Nat
  message : String
  deriving DecidableEq, Repr

structure DepositResponse where
  customerId : U128
  depositedAmount : U128
  newBalance : U128
  message : String
  deriving DecidableEq, Repr

/-- What the handlers take from the libraries around them. -/
structure Services where
  hmacSha256 : Bytes → Bytes → Bytes
  parsePayload : String → Except String WebhookPayload
  writeResponse : PaymentResponse → Except String String
  readResponse : String → Except String PaymentResponse
  /-- An amount of micro-dollars in dollars, rounded to cents. -/
  dollars : Int → String
  chain : Chain

/-- The bytes of a text. -/
def utf8 (text : String) : Bytes :=
  text.toUTF8.data.toList

inductive StatusCode where
  | badRequest
  | unauthorized
  | paymentRequired
  | notFound
  | conflict
  | internalServerError
  deriving DecidableEq, Repr

/-- How a handler fails. -/
inductive Failure where
  | reply (status : StatusCode) (text : String)
  | panicked
  deriving DecidableEq, Repr

abbrev Handler := Task Lock AppState Failure

section Accesses

/-- Answer with an error. -/
def refuse {α : Type} (status : StatusCode) (text : String) : Handler α :=
  .fail (.reply status text)

/-- Go on with a value, or answer with the error's text. -/
def orRefuse {ε α : Type} (status : StatusCode) (text : ε → String) : Except ε α → Handler α
  | .ok value => pure value
  | .error error => refuse status (text error)

def orPanic {α : Type} : Option α → Handler α
  | some value => pure value
  | none => .fail .panicked

/-- A number of 64 bits as one of 128. -/
def widen (n : U64) : U128 :=
  Fin.castLE (by decide) n

def drawPaymentId : Handler U128 :=
  .update [] fun s => (widen s.nextPaymentId, { s with nextPaymentId := s.nextPaymentId + 1 })

def drawTransferId : Handler U128 :=
  .update [] fun s => (widen s.nextTransferId, { s with nextTransferId := s.nextTransferId + 1 })

def drawTimestamp : Handler U64 :=
  .update [] fun s => (s.nextTimestamp, { s with nextTimestamp := s.nextTimestamp + 1 })

/-- A call of the ledger. -/
def onLedger {α : Type} (x : LedgerM α) : Handler (Except LedgerError α) :=
  .update [.ledger] fun s =>
    (valueAfter (x s.ledger), {
      s with
      ledger := stateAfter (x s.ledger)
      refusals := s.refusals ++ (errorAfter (x s.ledger)).toList
    })

def findPayment (paymentId : U128) : Handler (Option Payment) :=
  .update [.payments] fun s => (s.payments[paymentId]?, s)

/-- Store a payment record, replacing the one under its key. -/
def insertPayment (paymentId : U128) (p : Payment) : Handler Unit :=
  .update [.payments] fun s => ((), { s with payments := s.payments.insert paymentId p })

def releaseKey (key : String) : Handler Unit :=
  .update [] fun s => ((), { s with idempotency := s.idempotency.releaseOnFailure key })

end Accesses

section Parts

/-- Reserve a payment's amount under a new hold; on failure first run `onFailure`. -/
def reserve (onFailure : Handler Unit) (transferId : U128) (customer merchant : AccountId)
    (amount : U128) (timestamp : U64)
    : Handler Unit :=
  match Transfer.newPending ⟨transferId⟩ customer merchant ⟨amount⟩ timestamp with
  | .error error => do
      onFailure
      refuse .badRequest error.text
  | .ok hold =>
      .holding .ledger do
        match ← onLedger (Ledger.createPending hold) with
        | .error error => do
            onFailure
            refuse .paymentRequired error.text
        | .ok _ => return ()

/-- Post a payment's hold in full and move the payment on. -/
def postHold (p : Payment) (pendingId postTransferId : U128) (timestamp : U64)
    : Handler Payment := do
  let posted ←
    onLedger (Ledger.postPending ⟨pendingId⟩ ⟨postTransferId⟩ ⟨p.amount⟩ timestamp)
  orRefuse .internalServerError LedgerError.text posted
  orRefuse .badRequest PaymentError.text (p.transitionToCaptured postTransferId timestamp)

/-- Void a payment's hold and move the payment on. -/
def voidHold (p : Payment) (pendingId : U128) (timestamp : U64) : Handler Payment := do
  let voided ← onLedger (Ledger.voidPending ⟨pendingId⟩ timestamp)
  orRefuse .internalServerError LedgerError.text voided
  orRefuse .badRequest PaymentError.text (p.transitionToVoided timestamp)

/-- Pay from the vault into an account. -/
def payIn (transferId : U128) (account : AccountId) (amount : U128) (timestamp : U64)
    : Handler Unit := do
  let deposit ←
    orRefuse .badRequest LedgerError.text
      (Transfer.newImmediate ⟨transferId⟩ AccountDirectory.vaultAsset account ⟨amount⟩ timestamp)
  let created ← onLedger (Ledger.createTransfer deposit)
  orRefuse .internalServerError LedgerError.text created

def Payment.response (paymentId : U128) (p : Payment) : PaymentResponse :=
  {
    paymentId
    state := p.state
    amount := p.amount
    pendingTransferId := p.pendingTransferId
    postedTransferId := p.postedTransferId
  }

end Parts

section Handlers

variable (sv : Services)

def handleAuthorize (req : AuthorizeRequest) : Handler PaymentResponse := do
  let acquired ←
    .update [] fun s =>
      let (outcome, idempotency) := s.idempotency.tryAcquire req.idempotencyKey
      (outcome, { s with idempotency })
  match ← orRefuse .conflict IdempotencyError.text acquired with
  | some cachedJson => orRefuse .internalServerError id (sv.readResponse cachedJson)
  | none =>
      let paymentId ← drawPaymentId
      let transferId ← drawTransferId
      let now ← drawTimestamp
      let customer ← orPanic (AccountDirectory.customer req.customerId)
      let merchant ← orPanic (AccountDirectory.merchant req.merchantId)
      reserve (releaseKey req.idempotencyKey) transferId customer merchant req.amount now
      let payment :=
        Payment.newAuthorized paymentId req.merchantId req.customerId req.amount req.feeAmount
          transferId now
      insertPayment paymentId payment
      let response := payment.response paymentId
      let responseJson ← orRefuse .internalServerError id (sv.writeResponse response)
      .update [] fun s =>
        (response, { s with idempotency := s.idempotency.complete req.idempotencyKey responseJson })

/-- A payment and its hold. -/
def findHeld (paymentId : U128) : Handler (Payment × U128) := do
  match ← findPayment paymentId with
  | none => refuse .notFound s!"payment {paymentId.val} not found"
  | some payment =>
      match payment.pendingTransferId with
      | none => refuse .badRequest "payment does not have pending transfer"
      | some pendingId => return (payment, pendingId)

def handleCapture (paymentId : U128) : Handler PaymentResponse :=
  .holding .payments do
    let (payment, pendingId) ← findHeld paymentId
    let postTransferId ← drawTransferId
    let now ← drawTimestamp
    let captured ← postHold payment pendingId postTransferId now
    insertPayment paymentId captured
    return captured.response paymentId

def handleVoid (paymentId : U128) : Handler PaymentResponse :=
  .holding .payments do
    let (payment, pendingId) ← findHeld paymentId
    let now ← drawTimestamp
    let voided ← voidHold payment pendingId now
    insertPayment paymentId voided
    return voided.response paymentId

def handleCustomerDeposit (customerId : U128) (amount : Option U128) : Handler DepositResponse := do
  let depositAmount := amount.getD 100_000_000
  let transferId ← drawTransferId
  let now ← drawTimestamp
  let account ← orPanic (AccountDirectory.customer customerId)
  .holding .ledger do
    payIn transferId account depositAmount now
    let found ← .update [.ledger] fun s => (s.ledger.accounts[account]?, s)
    match found with
    | none => refuse .notFound s!"Customer #{customerId.val} account not found"
    | some stored =>
        let newBalance := stored.balance.creditsPosted.units
        return {
          customerId
          depositedAmount := depositAmount
          newBalance
          message :=
            s!"Successfully added ${sv.dollars depositAmount.val} to Customer #{customerId.val}. "
              ++ s!"New balance: ${sv.dollars newBalance.val}"
        }

/-- Check a webhook's signature, and read it. -/
def authenticate (secret : Bytes) (signature : Option String) (body : String)
    : Except Failure WebhookPayload := do
  let signature ← okOr signature (.reply .unauthorized "missing signature header")
  (WebhookVerifier.verifySignature sv.hmacSha256 secret (utf8 body) (utf8 signature)).mapError
    fun _ => .reply .unauthorized "invalid HMAC signature"
  (sv.parsePayload body).mapError (.reply .badRequest)

/-- A charge authorized by the card processor: hold the funds, and record the payment under the
processor's own id.
-/
def chargeAuthorized (payload : WebhookPayload) : Handler Unit := do
  let transferId ← drawTransferId
  let customer ← orPanic (AccountDirectory.customer payload.customerId)
  let merchant ← orPanic (AccountDirectory.merchant payload.merchantId)
  reserve (pure ()) transferId customer merchant payload.amount payload.timestamp
  insertPayment payload.paymentId
    (.newAuthorized payload.paymentId payload.merchantId payload.customerId payload.amount
      payload.feeAmount transferId payload.timestamp)

/-- A charge captured by the card processor. An unknown payment is passed over. -/
def chargeCaptured (payload : WebhookPayload) : Handler Unit :=
  .holding .payments do
    match ← findPayment payload.paymentId with
    | none => return ()
    | some payment =>
        match payment.pendingTransferId with
        | none => return ()
        | some pendingId =>
            let postTransferId ← drawTransferId
            let captured ← postHold payment pendingId postTransferId payload.timestamp
            insertPayment payload.paymentId captured

def handleWebhook (signature : Option String) (body : String) : Handler String := do
  let secret ← .update [] fun s => (s.webhookSecret, s)
  match authenticate sv secret signature body with
  | .error failure => .fail failure
  | .ok payload =>
      let now ← drawTimestamp
      orRefuse .badRequest WebhookError.text
        (WebhookVerifier.verifyFreshness payload.timestamp now 300)
      let recorded ←
        .update [] fun s =>
          let (outcome, webhookDedupe) := s.webhookDedupe.checkAndRecord payload.eventId
          (outcome, { s with webhookDedupe })
      orRefuse .conflict WebhookError.text recorded
      if payload.eventType = "charge.authorized" then chargeAuthorized payload
      else if payload.eventType = "charge.captured" then chargeCaptured payload
      else refuse .badRequest "unknown event type"
      return "Webhook processed successfully"

/-- A captured payment that no batch has settled yet. -/
def Payment.isUnsettled (p : Payment) : Bool :=
  p.state = .captured ∧ p.settlementBatchSeq = none

/-- The ledger transfers of the unsettled payments, in the order of their ids. -/
def AppState.unsettledTransfers (s : AppState) : List Transfer :=
  let unsettled := (FiniteMap.values s.payments).filter Payment.isUnsettled
  let postedIds := unsettled.filterMap Payment.postedTransferId
  (FiniteMap.values s.ledger.transfers).filter fun t => t.id.raw ∈ postedIds

/-- Mark the unsettled payments whose posted transfer is in a batch. -/
def Payment.markSettled (settledIds : List U128) (batchSeq : U64) (p : Payment) : Payment :=
  if p.isUnsettled && p.postedTransferId.any (· ∈ settledIds) then
    { p with settlementBatchSeq := some batchSeq }
  else p

def RailFailure.toFailure : RailFailure → Failure
  | .returned error => .reply .internalServerError error.text
  | .panicked => .panicked

/-- Submit to the clearing house under the application's own batch number. -/
def submitToAch (transfers : List Transfer) : Handler RailSubmission := do
  let batchSeq ← .update [] fun s => (s.batchSeq, s)
  match checkedAdd batchSeq 1 with
  | none => refuse .internalServerError "settlement batch sequence exhausted"
  | some railBatchSeq =>
      match MockAchRail.submitBatch railBatchSeq transfers with
      | .error failure => .fail failure.toFailure
      | .ok submission => do
          .update [] fun s =>
            ((), { s with accepted := s.accepted ++ [⟨MockAchRail.name, transfers⟩] })
          return submission

/-- The number of the next batch on chain. -/
def nextChainBatch (rail : SolanaUsdcRail) : Option U64 :=
  match rail.currentSettlementRoot with
  | none => some 1
  | some root => checkedAdd root.batchSeq 1

/-- Submit to the registry under the number it expects. -/
def submitToSolana (transfers : List Transfer) : Handler RailSubmission := do
  match ← .update [] fun s => (nextChainBatch s.solanaRail, s) with
  | none => refuse .internalServerError "Solana settlement batch sequence exhausted"
  | some railBatchSeq =>
      let submitted ←
        .update [] fun s =>
          let result := SolanaUsdcRail.submitBatch sv.chain railBatchSeq transfers s.solanaRail
          (valueAfter result, {
            s with
            solanaRail := stateAfter result
            accepted :=
              s.accepted
                ++ if (errorAfter result).isNone then [⟨SolanaUsdcRail.name, transfers⟩] else []
          })
      match submitted with
      | .error failure => .fail failure.toFailure
      | .ok submission => return submission

/-- Submit to the rail of a request; any name but the clearing house's is the chain. -/
def submitTo (railChoice : String) (transfers : List Transfer) : Handler RailSubmission :=
  if railChoice = MockAchRail.name then submitToAch transfers
  else submitToSolana sv transfers

def handleSettlementBatch (rail : Option String) : Handler BatchResponse :=
  .holding .settlement do
    let transfers ← .update [.payments, .ledger] fun s => (s.unsettledTransfers, s)
    if transfers = [] then refuse .badRequest "no transfers to settle"
    let submission ← submitTo sv (rail.getD SolanaUsdcRail.name) transfers
    let settledIds := transfers.map fun t => t.id.raw
    .update [.payments] fun s =>
      ((), {
        s with
        payments := s.payments.map fun _ p => p.markSettled settledIds submission.batchSeq
      })
    .update [] fun s => ((), { s with batchSeq := s.batchSeq + 1 })
    return {
      rail := submission.railName
      batchSeq := submission.batchSeq
      transferCount := submission.transferCount
      totalAmount := submission.totalAmount
      reference := submission.reference
      merkleRoot := submission.merkleRoot
    }

/-- A sample payment, and the state to bring it to. -/
structure Seed where
  customerId : U128
  merchantId : U128
  amount : U128
  feeAmount : U128
  target : PaymentState

def seeds : List Seed :=
  [
    ⟨101, 1, 150_000_000, 1_500_000, .captured⟩,
    ⟨102, 2, 85_500_000, 855_000, .captured⟩,
    ⟨103, 1, 42_000_000, 500_000, .authorized⟩,
    ⟨101, 3, 20_000_000, 200_000, .voided⟩
  ]

/-- Customers funded before the sample payments are made. -/
def seedCustomers : List U128 := [101, 102, 103]

def seedDeposit (customerId : U128) : Handler Unit := do
  let depositNow ← drawTimestamp
  let depositId ← drawTransferId
  let account ← orPanic (AccountDirectory.customer customerId)
  payIn depositId account 500_000_000 depositNow

/-- Bring a new payment to the state a seed asks for. -/
def advanceSeed (payment : Payment) (holdId : U128) : PaymentState → Handler Payment
  | .captured => do
      let postTs ← drawTimestamp
      let postId ← drawTransferId
      postHold payment holdId postId postTs
  | .voided => do
      let voidTs ← drawTimestamp
      voidHold payment holdId voidTs
  | _ => return payment

def seedPayment (seed : Seed) : Handler Unit := do
  let holdTs ← drawTimestamp
  let paymentId ← drawPaymentId
  let holdId ← drawTransferId
  let customer ← orPanic (AccountDirectory.customer seed.customerId)
  let merchant ← orPanic (AccountDirectory.merchant seed.merchantId)
  reserve (pure ()) holdId customer merchant seed.amount holdTs
  let payment ←
    advanceSeed
      (.newAuthorized paymentId seed.merchantId seed.customerId seed.amount seed.feeAmount holdId
        holdTs)
      holdId seed.target
  insertPayment paymentId payment

def handleQuickSeed : Handler QuickSeedResponse := do
  .holding .ledger (seedCustomers.forM seedDeposit)
  seeds.forM seedPayment
  return {
    seededCount := seeds.length
    message := s!"Successfully seeded {seeds.length} sample payments."
  }

def AuditFailure.toFailure : AuditFailure → Failure
  | .returned error => .reply .internalServerError error.text
  | .panicked => .panicked

/-- Merchants whose credits are audited. -/
def auditedMerchants : List U128 := [1, 2, 3]

/-- Shift a report by a simulated discrepancy. The sum must fit in a signed 128-bit number. -/
def withSimulatedDrift (offset : Int) (report : ReconciliationReport)
    : Option ReconciliationReport :=
  if offset = 0 then some report
  else
    let drift := report.drift + offset
    if drift < 2 ^ 127 ∧ -2 ^ 127 ≤ drift then
      some {
        report with
        drift
        status := .driftDetected
        incident := some {
          incidentId := s!"INC-SIMULATED-DRIFT-{report.timestamp.val}"
          driftAmount := drift
          details :=
            s!"Simulated bank discrepancy: {offset} units (${sv.dollars offset} USD) unallocated "
              ++ "balance outside double-entry journal."
          recommendedAction := "Audit bank clearing records and click 'Heal Drift' to re-balance."
        }
      }
    else none

/-- The audit of a state. -/
def AppState.audit (s : AppState) (timestamp : U64) : Except AuditFailure ReconciliationReport :=
  ReconciliationEngine.audit (FiniteMap.values s.payments) s.ledger auditedMerchants
    s.solanaRail.currentSettlementRoot timestamp

def handleReconciliation : Handler ReconciliationReport := do
  let snapshot ← .update [.payments, .ledger] fun s => (s, s)
  let timestamp ← drawTimestamp
  match snapshot.audit timestamp with
  | .error failure => .fail failure.toFailure
  | .ok report =>
      let offset ← .update [] fun s => (s.simulatedDrift, s)
      orPanic (withSimulatedDrift sv offset report)

def setDrift (offset : Int) : Handler Unit :=
  .update [] fun s => ((), { s with simulatedDrift := offset })

def handleSimulateDrift : Handler ReconciliationReport := do
  setDrift 50_000_000
  handleReconciliation sv

def handleHealDrift : Handler ReconciliationReport := do
  setDrift 0
  handleReconciliation sv

end Handlers

/-- A request to the application. -/
inductive Request where
  | authorize (request : AuthorizeRequest)
  | capture (paymentId : U128)
  | void (paymentId : U128)
  | deposit (customerId : U128) (amount : Option U128)
  | webhook (signature : Option String) (body : String)
  | quickSeed
  | settlementBatch (rail : Option String)
  | reconciliation
  | simulateDrift
  | healDrift
  deriving DecidableEq, Repr

inductive Reply where
  | payment (response : PaymentResponse)
  | deposit (response : DepositResponse)
  | webhook (text : String)
  | quickSeed (response : QuickSeedResponse)
  | settlementBatch (response : BatchResponse)
  | report (report : ReconciliationReport)
  deriving DecidableEq, Repr

/-- Route a request to its handler. -/
def Request.handle (sv : Services) : Request → Handler Reply
  | .authorize request => return .payment (← handleAuthorize sv request)
  | .capture paymentId => return .payment (← handleCapture paymentId)
  | .void paymentId => return .payment (← handleVoid paymentId)
  | .deposit customerId amount => return .deposit (← handleCustomerDeposit sv customerId amount)
  | .webhook signature body => return .webhook (← handleWebhook sv signature body)
  | .quickSeed => return .quickSeed (← handleQuickSeed)
  | .settlementBatch rail => return .settlementBatch (← handleSettlementBatch sv rail)
  | .reconciliation => return .report (← handleReconciliation sv)
  | .simulateDrift => return .report (← handleSimulateDrift sv)
  | .healDrift => return .report (← handleHealDrift sv)

/-- The state after a request, answered or refused. -/
def Request.step (sv : Services) (s : AppState) (request : Request) : AppState :=
  stateAfter ((request.handle sv).run s)

/-- How the application fails to start. -/
inductive StartFailure where
  | setup (failure : AccountDirectory.SetupFailure)
  | rail (failure : RailFailure)
  deriving DecidableEq, Repr

/-- The sample accounts, each customer funded with 1,000 dollars. -/
def setupLedger : EStateM.Result AccountDirectory.SetupFailure Ledger Unit :=
  AccountDirectory.setupAccounts .usdc [1, 2, 3] [101, 102, 103] 1_000_000_000 1_700_000_000
    (.new .usdc)

/-- The application's state when it starts. -/
def AppState.new (chain : Chain) (webhookSecret : Bytes) (programId authority : Pubkey)
    : Except StartFailure AppState :=
  match setupLedger with
  | .error failure _ => .error (.setup failure)
  | .ok _ ledger => do
      let solanaRail ← (SolanaUsdcRail.new chain programId authority).mapError .rail
      return {
        ledger
        payments := ∅
        idempotency := fun _ => none
        webhookDedupe := ∅
        solanaRail
        webhookSecret
        nextPaymentId := 5000
        nextTransferId := 20_000
        nextTimestamp := 1_700_000_001
        batchSeq := 0
        simulatedDrift := 0
        refusals := []
        accepted := []
      }

end TrustLedger.Demo
