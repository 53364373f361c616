import TrustLedger.Demo.Api
import TrustLedger.Foundation.Guarded
import TrustLedger.LedgerCore.Effects

/-! The books of the application are its ledger and its payment records. This module says once how
the handlers move them: each handler takes a few movements, or none.
-/

namespace TrustLedger.Demo

open Foundation LedgerCore Task

/-- The ledger and the payment records. -/
structure Books where
  ledger : Ledger
  payments : Payments

def AppState.books (s : AppState) : Books :=
  ⟨s.ledger, s.payments⟩

/-- A payment just authorized, and the hold it was authorized with. -/
structure Payment.Reserves (p : Payment) (hold : Transfer) : Prop where
  authorized : p.state = .authorized
  named : p.pendingTransferId = some hold.id.raw
  amount : hold.amount = ⟨p.amount⟩
  payer : AccountDirectory.customer p.customerId = some hold.debitAccountId
  payee : AccountDirectory.merchant p.merchantId = some hold.creditAccountId
  unmarked : p.settlementBatchSeq = none

/-- Store a payment that has moved on. -/
def recordMove (payments : Payments) (key : U128)
    : Except PaymentError Payment → Payments
  | .ok p => payments.insert key p
  | .error _ => payments

/-- What a handler does to the books in one go. -/
inductive Movement where
  | deposit (t : Transfer)
  | reserve (hold : Transfer)
  | authorize (key : U128) (p : Payment) (hold : Transfer)
  | capture (key : U128)
  | void (key : U128)
  | mark (settledIds : List U128) (batchSeq : U64)

/-- A movement, with the ledger step behind it. A hold is posted or voided before the payment moves
on, so the books also say what is left when the payment refuses to.
-/
inductive Books.Moves : Books → Movement → Books → Prop where
  | deposit {l l' payments t} (step : l.Step (.transferPosted t) l') (unlinked : t.pendingId = none)
    : Moves ⟨l, payments⟩ (.deposit t) ⟨l', payments⟩
  | reserve {l l' payments hold} (step : l.Step (.transferPendingCreated hold) l')
    : Moves ⟨l, payments⟩ (.reserve hold) ⟨l', payments⟩
  | authorize {l l' payments key p hold} (step : l.Step (.transferPendingCreated hold) l')
    (reserves : p.Reserves hold)
    : Moves ⟨l, payments⟩ (.authorize key p hold) ⟨l', payments.insert key p⟩
  | capture {l l' payments key p pendingId postId timestamp}
    (found : payments[key]? = some p) (named : p.pendingTransferId = some pendingId)
    (step : l.Step (.transferPendingPosted ⟨pendingId⟩ ⟨postId⟩ ⟨p.amount⟩ timestamp) l')
    : Moves ⟨l, payments⟩ (.capture key)
        ⟨l', recordMove payments key (p.transitionToCaptured postId timestamp)⟩
  | void {l l' payments key p pendingId amount timestamp}
    (found : payments[key]? = some p) (named : p.pendingTransferId = some pendingId)
    (step : l.Step (.transferPendingVoided ⟨pendingId⟩ amount timestamp) l')
    : Moves ⟨l, payments⟩ (.void key)
        ⟨l', recordMove payments key (p.transitionToVoided timestamp)⟩
  | mark {l payments settledIds batchSeq}
    : Moves ⟨l, payments⟩ (.mark settledIds batchSeq)
        ⟨l, payments.map fun _ p => p.markSettled settledIds batchSeq⟩

/-- Deposits go to the given accounts, and payments are recorded under the given keys, each found as
it was at the start.
-/
def Writes (credits : List AccountId) (keys : List U128) (start : Payments) (books : Books)
    : Movement → Prop
  | .deposit t => t.creditAccountId ∈ credits
  | .authorize key _ _ => key ∈ keys ∧ books.payments[key]? = start[key]?
  | _ => True

theorem Writes.mono {credits credits' : List AccountId} {keys keys' : List U128}
    {start start' : Payments} {books : Books} {movement : Movement}
    (writes : Writes credits keys start books movement) (accounts : credits ⊆ credits')
    (within : keys ⊆ keys') (same : ∀ key ∈ keys, start[key]? = start'[key]?)
    : Writes credits' keys' start' books movement := by
  cases movement with
  | deposit t => exact accounts writes
  | authorize key p hold => exact ⟨within writes.1, writes.2.trans (same key writes.1)⟩
  | _ => trivial

/-- The movements from one pair of books to another. -/
abbrev Books.Path (credits : List AccountId) (keys : List U128) (s : AppState) (s' : AppState)
    : Prop :=
  Foundation.Path Books.Moves (Writes credits keys s.payments) s.books s'.books

section Parts

variable {s : AppState} {Q : Except Failure Unit → AppState → Prop} {α : Type}
  {transferId amount pendingId : U128} {timestamp : U64} {p : Payment}

@[simp] theorem yields_orRefuse {ε : Type} {status : StatusCode} {text : ε → String}
    {x : Except ε α} {Q : Except Failure α → AppState → Prop}
    : (orRefuse status text x).Yields s Q
      ↔ Q (x.mapError fun error => .reply status (text error)) s := by
  cases x <;> rfl

theorem yields_orPanic {x : Option α} {Q : Except Failure α → AppState → Prop}
    (panics : Q (.error .panicked) s) (found : ∀ value, x = some value → Q (.ok value) s)
    : (orPanic x).Yields s Q := by
  cases x with
  | none => exact panics
  | some value => exact found value rfl

theorem applyBatchOp_cases (op : BatchOp) (l : Ledger)
    : (∃ error, Ledger.applyBatchOp op l = .error error l)
      ∨ ∃ l', Ledger.applyBatchOp op l = .ok () l' ∧ l.Step (op.event l) l' := by
  cases ran : Ledger.applyBatchOp op l with
  | ok _ l' => exact .inr ⟨l', rfl, Ledger.applyBatchOp_ok_iff.mp ran⟩
  | error error l' =>
      obtain rfl := Ledger.applyBatchOp_atomic op l error l' ran
      exact .inl ⟨error, rfl⟩

/-- The result of a ledger call, for a handler that goes on with it. -/
theorem yields_onLedger (op : BatchOp)
    {Q : Except Failure (Except LedgerError Unit) → AppState → Prop}
    (refused : ∀ error refusals, Q (.ok (.error error)) { s with refusals })
    (applied : ∀ l', s.ledger.Step (op.event s.ledger) l'
      → Q (.ok (.ok ())) { s with ledger := l' })
    : (onLedger (Ledger.applyBatchOp op)).Yields s Q := by
  rw [onLedger, yields_update]
  rcases applyBatchOp_cases op s.ledger with ⟨error, ran⟩ | ⟨l', ran, step⟩
  · simp only [ran, valueAfter, stateAfter]
    exact refused error _
  · simpa only [ran, valueAfter, stateAfter, errorAfter, Option.toList_none, List.append_nil]
      using applied l' step

theorem yields_reserve {onFailure : Handler Unit} {customer merchant : AccountId}
    (refused : ∀ refusals, onFailure.Yields { s with refusals } fun _ s' =>
      ∀ failure, Q (.error failure) s') (reserved : ∀ l',
      s.ledger.Step
        (.transferPendingCreated
          ⟨⟨transferId⟩, customer, merchant, ⟨amount⟩, .pending, none, timestamp⟩) l'
      → Q (.ok ()) { s with ledger := l' })
    : (reserve onFailure transferId customer merchant amount timestamp).Yields s Q := by
  have failing (status : StatusCode) (text : String) (refusals : List LedgerError)
      : (onFailure >>= fun _ => refuse status text).Yields { s with refusals } Q := by
    rw [yields_bind]
    refine (refused refusals).mono fun r s' answers => ?_
    cases r <;> exact answers _
  unfold reserve
  cases built : Transfer.newPending ⟨transferId⟩ customer merchant ⟨amount⟩ timestamp with
  | error error => exact failing .badRequest error.text s.refusals
  | ok hold =>
      obtain ⟨-, -, rfl⟩ := Transfer.validated_eq_ok.mp built
      rw [yields_holding, yields_bind]
      exact yields_onLedger (.pending _)
        (fun error refusals => failing .paymentRequired error.text refusals) reserved

theorem yields_postHold {postId : U128} {Q : Except Failure Payment → AppState → Prop}
    (refused : ∀ refusals failure, Q (.error failure) { s with refusals }) (posted : ∀ l',
      s.ledger.Step (.transferPendingPosted ⟨pendingId⟩ ⟨postId⟩ ⟨p.amount⟩ timestamp) l'
      → Q ((p.transitionToCaptured postId timestamp).mapError fun error =>
            .reply .badRequest error.text) { s with ledger := l' })
    : (postHold p pendingId postId timestamp).Yields s Q := by
  rw [postHold, yields_bind]
  exact yields_onLedger (.postPending ⟨pendingId⟩ ⟨postId⟩ ⟨p.amount⟩ timestamp)
    (fun error refusals => refused refusals _) fun l' step => yields_orRefuse.mpr (posted l' step)

theorem yields_voidHold {Q : Except Failure Payment → AppState → Prop}
    (refused : ∀ refusals failure, Q (.error failure) { s with refusals }) (voided : ∀ amount l',
      s.ledger.Step (.transferPendingVoided ⟨pendingId⟩ amount timestamp) l'
      → Q ((p.transitionToVoided timestamp).mapError fun error =>
            .reply .badRequest error.text) { s with ledger := l' })
    : (voidHold p pendingId timestamp).Yields s Q := by
  rw [voidHold, yields_bind]
  exact yields_onLedger (.voidPending ⟨pendingId⟩ timestamp)
    (fun error refusals => refused refusals _)
    fun l' step => yields_orRefuse.mpr (voided _ l' step)

theorem yields_payIn {account : AccountId}
    (refused : ∀ refusals failure, Q (.error failure) { s with refusals })
    (posted : ∀ t l', s.ledger.Step (.transferPosted t) l' → t.pendingId = none
      → t.creditAccountId = account → Q (.ok ()) { s with ledger := l' })
    : (payIn transferId account amount timestamp).Yields s Q := by
  rw [payIn, yields_bind]
  cases built : Transfer.newImmediate ⟨transferId⟩ AccountDirectory.vaultAsset account ⟨amount⟩
    timestamp with
  | error error => exact refused s.refusals _
  | ok deposit =>
      obtain ⟨-, -, rfl⟩ := Transfer.validated_eq_ok.mp built
      change Task.Yields (_ >>= _) s Q
      rw [yields_bind]
      exact yields_onLedger (.transfer _) (fun error refusals => refused refusals _)
        fun l' step => posted _ l' step rfl rfl

end Parts

section Handlers

variable {sv : Services} {s s' : AppState} {credits : List AccountId} {keys : List U128}
  {movement : Movement} {l' : Ledger} {payments : Payments}

theorem path_of_books_eq (same : s'.books = s.books) : Books.Path credits keys s s' := by
  rw [Books.Path, same]
  exact .refl

theorem newAuthorized_reserves {id merchantId customerId amount feeAmount transferId : U128}
    {customer merchant : AccountId} {created timestamp : U64}
    (payer : AccountDirectory.customer customerId = some customer)
    (payee : AccountDirectory.merchant merchantId = some merchant)
    : (Payment.newAuthorized id merchantId customerId amount feeAmount transferId created).Reserves
        ⟨⟨transferId⟩, customer, merchant, ⟨amount⟩, .pending, none, timestamp⟩ :=
  ⟨rfl, rfl, rfl, payer, payee, rfl⟩

/-- A movement that marks payments as settled. -/
def Movement.Marks : Movement → Prop
  | .mark _ _ => True
  | _ => False

/-- At most one movement, which marks nothing, and nothing on a rail. -/
structure Pays (keys : List U128) (s s' : AppState) : Prop where
  rail : s'.solanaRail = s.solanaRail
  books : s'.books = s.books
    ∨ ∃ movement, s.books.Moves movement s'.books ∧ Writes [] keys s.payments s.books movement
        ∧ ¬ movement.Marks

theorem Pays.kept (books : s'.books = s.books) (rail : s'.solanaRail = s.solanaRail)
    : Pays keys s s' :=
  ⟨rail, .inl books⟩

/-- A movement of a stored payment, with the hold moved first. -/
theorem Pays.moved (moves : s.books.Moves movement ⟨l', payments⟩)
    (allowed : Writes [] keys s.payments s.books movement) (pays : ¬ movement.Marks)
    (books : s'.books = ⟨l', payments⟩) (rail : s'.solanaRail = s.solanaRail)
    : Pays keys s s' :=
  ⟨rail, .inr ⟨movement, books ▸ moves, allowed, pays⟩⟩

theorem Pays.path (pays : Pays keys s s') : Books.Path [] keys s s' := by
  rcases pays.books with same | ⟨movement, moves, allowed, -⟩
  · exact path_of_books_eq same
  · exact .single moves allowed

theorem Books.Path.authorized {p : Payment} {hold : Transfer} {key : U128}
    (step : s.ledger.Step (.transferPendingCreated hold) l') (reserves : p.Reserves hold)
    (books : s'.books = ⟨l', s.payments.insert key p⟩)
    : Books.Path [] [key] s s' := by
  rw [Books.Path, books]
  exact .single (.authorize step reserves) ⟨List.mem_singleton_self key, rfl⟩

theorem handleAuthorize_pays (req : AuthorizeRequest)
    : (handleAuthorize sv req).Yields s fun _ s' => Pays [widen s.nextPaymentId] s s' := by
  unfold handleAuthorize
  simp only [yields_bind, yields_update, yields_orRefuse]
  cases (s.idempotency.tryAcquire req.idempotencyKey).1 with
  | error error => exact .kept rfl rfl
  | ok acquired =>
      cases acquired with
      | some cachedJson => exact yields_orRefuse.mpr (.kept rfl rfl)
      | none =>
          simp only [Except.mapError, drawPaymentId, drawTransferId, drawTimestamp,
            yields_bind, yields_update]
          refine yields_orPanic (.kept rfl rfl) fun customer payer => ?_
          refine yields_orPanic (.kept rfl rfl) fun merchant payee => ?_
          refine yields_reserve (fun _ _ => .kept rfl rfl) fun l' step => ?_
          simp only [insertPayment, yields_update, yields_orRefuse]
          have allowed := And.intro (List.mem_singleton_self (widen s.nextPaymentId))
            (rfl : s.payments[widen s.nextPaymentId]? = _)
          cases sv.writeResponse _ with
          | error text =>
              exact .moved (.authorize step (newAuthorized_reserves payer payee)) allowed not_false
                rfl rfl
          | ok responseJson =>
              exact .moved (.authorize step (newAuthorized_reserves payer payee)) allowed not_false
                rfl rfl

theorem Books.Path.moved (moves : s.books.Moves movement ⟨l', payments⟩)
    (allowed : Writes credits keys s.payments s.books movement) (books : s'.books = ⟨l', payments⟩)
    : Books.Path credits keys s s' := by
  rw [Books.Path, books]
  exact .single moves allowed

theorem yields_findHeld {paymentId : U128} {Q : Except Failure (Payment × U128) → AppState → Prop}
    (refused : ∀ failure, Q (.error failure) s)
    (found : ∀ p pendingId, s.payments[paymentId]? = some p
      → p.pendingTransferId = some pendingId → Q (.ok (p, pendingId)) s)
    : (findHeld paymentId).Yields s Q := by
  rw [findHeld, findPayment, yields_bind, yields_update]
  cases stored : s.payments[paymentId]? with
  | none => exact refused _
  | some p =>
      cases named : p.pendingTransferId with
      | none =>
          simp only [named]
          exact refused _
      | some pendingId =>
          simp only [named]
          exact found p pendingId stored named

theorem handleCapture_pays (paymentId : U128)
    : (handleCapture paymentId).Yields s fun _ s' => Pays [] s s' := by
  rw [handleCapture, yields_holding, yields_bind]
  refine yields_findHeld (fun failure => .kept rfl rfl) fun p pendingId found named => ?_
  simp only [drawTransferId, drawTimestamp, insertPayment, yields_bind, yields_update,
    yields_pure]
  refine yields_postHold (fun _ _ => .kept rfl rfl) fun l' step => ?_
  have moves : s.books.Moves (.capture paymentId) _ := .capture found named step
  cases transition : p.transitionToCaptured _ _ with
  | error error => exact .moved moves trivial not_false (by rw [transition]; rfl) rfl
  | ok captured => exact .moved moves trivial not_false (by rw [transition]; rfl) rfl

theorem handleVoid_pays (paymentId : U128)
    : (handleVoid paymentId).Yields s fun _ s' => Pays [] s s' := by
  rw [handleVoid, yields_holding, yields_bind]
  refine yields_findHeld (fun failure => .kept rfl rfl) fun p pendingId found named => ?_
  simp only [drawTimestamp, insertPayment, yields_bind, yields_update, yields_pure]
  refine yields_voidHold (fun _ _ => .kept rfl rfl) fun amount l' step => ?_
  have moves : s.books.Moves (.void paymentId) _ := .void found named step
  cases transition : p.transitionToVoided _ with
  | error error => exact .moved moves trivial not_false (by rw [transition]; rfl) rfl
  | ok voided => exact .moved moves trivial not_false (by rw [transition]; rfl) rfl

theorem handleCustomerDeposit_path (customerId : U128) (amount : Option U128)
    : (handleCustomerDeposit sv customerId amount).Yields s fun _ s' =>
        Books.Path (AccountDirectory.customer customerId).toList [] s s' := by
  unfold handleCustomerDeposit
  simp only [drawTransferId, drawTimestamp, yields_bind, yields_update]
  refine yields_orPanic (path_of_books_eq rfl) fun account payee => ?_
  dsimp only
  rw [yields_holding, yields_bind]
  refine yields_payIn (fun _ _ => path_of_books_eq rfl) fun t l' step unlinked credited => ?_
  have moves : s.books.Moves (.deposit t) _ := .deposit step unlinked
  have allowed : Writes (AccountDirectory.customer customerId).toList [] s.payments s.books
      (.deposit t) := by
    simp [Writes, payee, credited]
  dsimp only
  rw [yields_bind, yields_update]
  dsimp only
  split
  · exact .moved moves allowed rfl
  · exact .moved moves allowed rfl

theorem chargeAuthorized_path (payload : WebhookPayload)
    : (chargeAuthorized payload).Yields s fun _ s' =>
        Books.Path [] [payload.paymentId] s s' := by
  unfold chargeAuthorized
  simp only [drawTransferId, yields_bind, yields_update]
  refine yields_orPanic (path_of_books_eq rfl) fun customer payer => ?_
  refine yields_orPanic (path_of_books_eq rfl) fun merchant payee => ?_
  refine yields_reserve (fun _ _ => path_of_books_eq rfl) fun l' step => ?_
  exact .authorized step (newAuthorized_reserves payer payee) rfl

theorem chargeCaptured_path (payload : WebhookPayload)
    : (chargeCaptured payload).Yields s fun _ s' => Books.Path [] [] s s' := by
  rw [chargeCaptured, yields_holding, findPayment, yields_bind, yields_update]
  cases found : s.payments[payload.paymentId]? with
  | none => exact path_of_books_eq rfl
  | some p =>
      dsimp only
      cases named : p.pendingTransferId with
      | none => exact path_of_books_eq rfl
      | some pendingId =>
          simp only [drawTransferId, insertPayment, yields_bind, yields_update]
          refine yields_postHold (fun _ _ => path_of_books_eq rfl) fun l' step => ?_
          have moves : s.books.Moves (.capture payload.paymentId) _ := .capture found named step
          cases transition : p.transitionToCaptured _ _ with
          | error error => exact .moved moves trivial (by rw [transition]; rfl)
          | ok captured => exact .moved moves trivial (by rw [transition]; rfl)

/-- The payment a webhook writes, if it announces an authorization. -/
def webhookKeys (sv : Services) (body : String) : List U128 :=
  match sv.parsePayload body with
  | .ok payload => if payload.eventType = "charge.authorized" then [payload.paymentId] else []
  | .error _ => []

theorem parsePayload_of_authenticate {secret : Bytes} {signature : Option String} {body : String}
    {payload : WebhookPayload} (accepted : authenticate sv secret signature body = .ok payload)
    : sv.parsePayload body = .ok payload := by
  simp only [authenticate, bind_eq_ok] at accepted
  obtain ⟨_, -, _, -, parsed⟩ := accepted
  cases read : sv.parsePayload body with
  | error text => simp [read, Except.mapError] at parsed
  | ok found => simpa [read, Except.mapError] using parsed

theorem handleWebhook_path (signature : Option String) (body : String)
    : (handleWebhook sv signature body).Yields s fun _ s' =>
        Books.Path [] (webhookKeys sv body) s s' := by
  unfold handleWebhook
  rw [yields_bind, yields_update]
  dsimp only
  cases accepted : authenticate sv s.webhookSecret signature body with
  | error failure => exact path_of_books_eq rfl
  | ok payload =>
      have parsed := parsePayload_of_authenticate accepted
      simp only [drawTimestamp, yields_bind, yields_update, yields_orRefuse]
      cases WebhookVerifier.verifyFreshness payload.timestamp s.nextTimestamp 300 with
      | error error => exact path_of_books_eq rfl
      | ok _ =>
          dsimp only [Except.mapError]
          cases (s.webhookDedupe.checkAndRecord payload.eventId).1 with
          | error error => exact path_of_books_eq rfl
          | ok _ =>
              dsimp only [Except.mapError]
              split
              · rename_i authorized
                have keys : webhookKeys sv body = [payload.paymentId] := by
                  simp [webhookKeys, parsed, authorized]
                rw [keys, yields_bind]
                refine (chargeAuthorized_path payload).mono fun r s' path => ?_
                cases r <;> exact path
              · split
                · rw [yields_bind]
                  refine (chargeCaptured_path payload).mono fun r s' path => ?_
                  have more : Books.Path [] (webhookKeys sv body) s s' :=
                    path.mono fun _ _ writes => writes.mono (List.nil_subset _)
                      (List.nil_subset _) (fun _ _ => rfl)
                  cases r <;> exact more
                · exact path_of_books_eq rfl

theorem submitToAch_books (transfers : List Transfer)
    : (submitToAch transfers).Yields s fun _ s' => s'.books = s.books := by
  rw [submitToAch, yields_bind, yields_update]
  dsimp only
  split
  · rfl
  · split <;> rfl

theorem submitToSolana_books (transfers : List Transfer)
    : (submitToSolana sv transfers).Yields s fun _ s' => s'.books = s.books := by
  rw [submitToSolana, yields_bind, yields_update]
  dsimp only
  split
  · rfl
  · rw [yields_bind, yields_update]
    dsimp only
    split <;> rfl

theorem submitTo_books (railChoice : String) (transfers : List Transfer)
    : (submitTo sv railChoice transfers).Yields s fun _ s' => s'.books = s.books := by
  rw [submitTo]
  split
  · exact submitToAch_books transfers
  · exact submitToSolana_books transfers

theorem handleSettlementBatch_path (rail : Option String)
    : (handleSettlementBatch sv rail).Yields s fun _ s' => Books.Path [] [] s s' := by
  rw [handleSettlementBatch, yields_holding, yields_bind, yields_update]
  dsimp only
  split
  · exact path_of_books_eq rfl
  · -- only a submitted batch is marked
    rw [yields_bind]
    refine (submitTo_books _ _).mono fun r s' same => ?_
    cases r with
    | error failure => exact path_of_books_eq same
    | ok submission =>
        simp only [yields_bind, yields_update, yields_pure]
        rw [Books.Path, ← same]
        exact .single .mark trivial

end Handlers

section QuickSeed

variable {s s' : AppState} {next : U64} {count : Nat} {key : U128} {hold : Transfer} {l' : Ledger}
  {p : Payment} {payments : Payments}

/-- Ids the payment counter hands out next. -/
def nextKeys : U64 → Nat → List U128
  | _, 0 => []
  | next, count + 1 => widen next :: nextKeys (next + 1) count

theorem mem_nextKeys (listed : key ∈ nextKeys next count)
    : ∃ i < count, key.val = (next.val + i) % 2 ^ 64 := by
  induction count generalizing next with
  | zero => cases listed
  | succ count ih =>
      rcases List.mem_cons.mp listed with rfl | later
      · exact ⟨0, count.succ_pos, (Nat.mod_eq_of_lt next.isLt).symm⟩
      · obtain ⟨i, within, value⟩ := ih later
        refine ⟨i + 1, Nat.succ_lt_succ within, ?_⟩
        rw [value, Fin.val_add]
        norm_num
        omega

/-- The counter does not come back to an id before it has gone all the way round. -/
theorem widen_notMem_nextKeys (few : count < 2 ^ 64) : widen next ∉ nextKeys (next + 1) count := by
  intro listed
  obtain ⟨i, within, value⟩ := mem_nextKeys listed
  have bound := next.isLt
  simp only [widen, Fin.val_castLE, Fin.val_add] at value
  norm_num at value few bound
  omega

/-- The accounts a list of customers is paid into. -/
def customerAccounts (customers : List U128) : List AccountId :=
  customers.flatMap fun customerId => (AccountDirectory.customer customerId).toList

/-- Deposits only. -/
structure Paid (credits : List AccountId) (s s' : AppState) : Prop where
  path : Books.Path credits [] s s'
  payments : s'.payments = s.payments
  nextPaymentId : s'.nextPaymentId = s.nextPaymentId

theorem Paid.trans {first later : List AccountId} {mid : AppState} (paid : Paid first s mid)
    (more : Paid later mid s')
    : Paid (first ++ later) s s' where
  path :=
    (paid.path.mono fun _ _ writes =>
      writes.mono (List.subset_append_left ..) (List.Subset.refl _) (fun _ _ => rfl)).trans
    (more.path.mono fun _ _ writes =>
      writes.mono (List.subset_append_right ..) (List.Subset.refl _)
        (fun _ _ => by rw [paid.payments]))
  payments := more.payments.trans paid.payments
  nextPaymentId := more.nextPaymentId.trans paid.nextPaymentId

theorem seedDeposit_paid (customerId : U128)
    : (seedDeposit customerId).Yields s fun _ s' =>
        Paid (AccountDirectory.customer customerId).toList s s' := by
  rw [seedDeposit]
  simp only [drawTransferId, drawTimestamp, yields_bind, yields_update]
  refine yields_orPanic ⟨path_of_books_eq rfl, rfl, rfl⟩ fun account payee => ?_
  refine yields_payIn (fun _ _ => ⟨path_of_books_eq rfl, rfl, rfl⟩)
    fun t l' step unlinked credited => ⟨?_, rfl, rfl⟩
  have moves : s.books.Moves (.deposit t) _ := .deposit step unlinked
  exact .moved moves (by simp [Writes, payee, credited]) rfl

theorem seedDeposits_paid (customers : List U128)
    : (customers.forM seedDeposit).Yields s fun _ s' => Paid (customerAccounts customers) s s' := by
  induction customers generalizing s with
  | nil => exact ⟨.refl, rfl, rfl⟩
  | cons customerId rest ih =>
      change (seedDeposit customerId >>= fun _ => rest.forM seedDeposit).Yields s _
      rw [yields_bind]
      refine (seedDeposit_paid customerId).mono fun r mid paid => ?_
      cases r with
      | ok _ => exact ih.mono fun r s' more => paid.trans more
      | error failure =>
          have unpaid : Paid (customerAccounts rest) mid mid := ⟨.refl, rfl, rfl⟩
          exact paid.trans unpaid

theorem Books.Path.reserved {keys : List U128}
    (step : s.ledger.Step (.transferPendingCreated hold) l') (books : s'.books = ⟨l', s.payments⟩)
    : Books.Path [] keys s s' := by
  rw [Books.Path, books]
  exact .single (.reserve step) trivial

/-- A hold, the payment recorded for it, and what happens to both next. -/
theorem Books.Path.advanced {l'' : Ledger} {movement : Movement}
    (step : s.ledger.Step (.transferPendingCreated hold) l') (reserves : p.Reserves hold)
    (moves : Books.Moves ⟨l', s.payments.insert key p⟩ movement ⟨l'', payments⟩)
    (allowed : ∀ books, Writes [] [key] s.payments books movement)
    (books : s'.books = ⟨l'', payments⟩)
    : Books.Path [] [key] s s' := by
  rw [Books.Path, books]
  exact .tail (.single (.authorize step reserves) ⟨List.mem_singleton_self key, rfl⟩) moves
    (allowed _)

theorem insert_recordMove {q : Payment}
    : recordMove (payments.insert key p) key (.ok q) = payments.insert key q := by
  apply Std.ExtTreeMap.ext_getElem?
  intro other
  simp only [recordMove, Std.ExtTreeMap.getElem?_insert]
  split <;> rfl

/-- At most one new payment, under the next id. -/
structure Seeded (s s' : AppState) : Prop where
  path : Books.Path [] [widen s.nextPaymentId] s s'
  nextPaymentId : s'.nextPaymentId = s.nextPaymentId + 1
  others : ∀ key, key ≠ widen s.nextPaymentId → s'.payments[key]? = s.payments[key]?

theorem getElem?_insert_other {other : U128} (different : other ≠ key)
    : (payments.insert key p)[other]? = payments[other]? := by
  simp [Std.ExtTreeMap.getElem?_insert, Ne.symm different]

theorem seedPayment_seeded (seed : Seed) : (seedPayment seed).Yields s fun _ s' => Seeded s s' := by
  rw [seedPayment]
  simp only [drawPaymentId, drawTransferId, drawTimestamp, insertPayment, yields_bind,
    yields_update]
  have unwritten {s' : AppState} (same : s'.books = s.books)
      (next : s'.nextPaymentId = s.nextPaymentId + 1)
      : Seeded s s' :=
    ⟨path_of_books_eq same, next, fun key _ => congrArg (fun books => books.payments[key]?) same⟩
  refine yields_orPanic (unwritten rfl rfl) fun customer payer => ?_
  refine yields_orPanic (unwritten rfl rfl) fun merchant payee => ?_
  refine yields_reserve (fun _ _ => unwritten rfl rfl) fun l' step => ?_
  have reserves := @newAuthorized_reserves (widen s.nextPaymentId) seed.merchantId seed.customerId
    seed.amount seed.feeAmount (widen s.nextTransferId) customer merchant s.nextTimestamp
    s.nextTimestamp payer payee
  cases seed.target with
  | captured =>
      simp only [advanceSeed, drawTransferId, drawTimestamp, yields_bind, yields_update]
      refine yields_postHold (fun _ _ => ⟨.reserved step rfl, rfl, fun _ _ => rfl⟩)
        fun l'' posted => ?_
      refine ⟨.advanced step reserves (.capture Std.ExtTreeMap.getElem?_insert_self rfl posted)
        (fun _ => trivial) ?_, rfl, fun _ different => getElem?_insert_other different⟩
      exact congrArg (Books.mk l'') insert_recordMove.symm
  | voided =>
      simp only [advanceSeed, drawTimestamp, yields_bind, yields_update]
      refine yields_voidHold (fun _ _ => ⟨.reserved step rfl, rfl, fun _ _ => rfl⟩)
        fun amount l'' voided => ?_
      refine ⟨.advanced step reserves (.void Std.ExtTreeMap.getElem?_insert_self rfl voided)
        (fun _ => trivial) ?_, rfl, fun _ different => getElem?_insert_other different⟩
      exact congrArg (Books.mk l'') insert_recordMove.symm
  | authorized =>
      exact ⟨.authorized step reserves rfl, rfl,
        fun _ different => getElem?_insert_other different⟩
  | refunded =>
      exact ⟨.authorized step reserves rfl, rfl,
        fun _ different => getElem?_insert_other different⟩

theorem seedPayments_path (list : List Seed) (few : list.length < 2 ^ 64)
    : (list.forM seedPayment).Yields s fun _ s' =>
        Books.Path [] (nextKeys s.nextPaymentId list.length) s s' := by
  induction list generalizing s with
  | nil => exact .refl
  | cons seed rest ih =>
      change (seedPayment seed >>= fun _ => rest.forM seedPayment).Yields s _
      have fewer : rest.length < 2 ^ 64 := Nat.lt_of_succ_lt few
      rw [yields_bind]
      refine (seedPayment_seeded seed).mono fun r mid seeded => ?_
      have first : Books.Path [] (nextKeys s.nextPaymentId (rest.length + 1)) s mid :=
        seeded.path.mono fun _ _ writes =>
          writes.mono (List.Subset.refl _) (by simp [nextKeys]) (fun _ _ => rfl)
      cases r with
      | error failure => exact first
      | ok _ =>
          refine (ih fewer).mono fun r s' more => first.trans ?_
          rw [seeded.nextPaymentId] at more
          refine more.mono fun _ _ writes =>
            writes.mono (List.Subset.refl _) (List.subset_cons_self ..) fun key listed => ?_
          have different : key ≠ widen s.nextPaymentId := by
            rintro rfl
            exact widen_notMem_nextKeys fewer listed
          exact seeded.others key different

theorem handleQuickSeed_path
    : handleQuickSeed.Yields s fun _ s' =>
        Books.Path (customerAccounts seedCustomers) (nextKeys s.nextPaymentId seeds.length)
          s s' := by
  rw [handleQuickSeed, yields_bind, yields_holding]
  refine (seedDeposits_paid seedCustomers).mono fun r mid paid => ?_
  have first : Books.Path (customerAccounts seedCustomers)
      (nextKeys s.nextPaymentId seeds.length) s mid :=
    paid.path.mono fun _ _ writes =>
      writes.mono (List.Subset.refl _) (List.nil_subset _) (fun _ _ => rfl)
  cases r with
  | error failure => exact first
  | ok _ =>
      dsimp only
      rw [yields_bind]
      refine (seedPayments_path seeds (by decide)).mono fun r s' path => ?_
      rw [Books.Path, paid.nextPaymentId, paid.payments] at path
      have whole := first.trans (path.mono fun _ _ writes =>
        writes.mono (List.nil_subset _) (List.Subset.refl _) (fun _ _ => rfl))
      cases r <;> exact whole

end QuickSeed

variable {s : AppState}

theorem handleReconciliation_books {sv : Services}
    : (handleReconciliation sv).Yields s fun _ s' => s'.books = s.books := by
  rw [handleReconciliation]
  simp only [drawTimestamp, yields_bind, yields_update]
  split
  · rfl
  · rw [yields_bind, yields_update]
    exact yields_orPanic rfl fun _ _ => rfl

/-- The accounts a request may pay into. -/
def Request.credits : Request → List AccountId
  | .deposit customerId _ => (AccountDirectory.customer customerId).toList
  | .quickSeed => customerAccounts seedCustomers
  | _ => []

/-- The ids under which a request may record new payments. -/
def Request.keys (sv : Services) (s : AppState) : Request → List U128
  | .authorize _ => [widen s.nextPaymentId]
  | .webhook _ body => webhookKeys sv body
  | .quickSeed => nextKeys s.nextPaymentId seeds.length
  | _ => []

theorem yields_reply {α : Type} {x : Handler α} {reply : α → Reply} {Q : AppState → Prop}
    (yields : x.Yields s fun _ => Q)
    : Task.Yields (do return reply (← x)) s fun _ => Q := by
  rw [yields_bind]
  refine yields.mono fun r s' holds => ?_
  cases r <;> exact holds

/-- Every request moves the books by movements only, paying into its own accounts and recording
payments under its own ids.
-/
theorem Request.step_path (sv : Services) (s : AppState) (request : Request)
    : Books.Path request.credits (request.keys sv s) s (request.step sv s) := by
  suffices (request.handle sv).Yields s fun _ s' =>
      Books.Path request.credits (request.keys sv s) s s' from this
  cases request with
  | authorize request =>
      exact yields_reply ((handleAuthorize_pays request).mono fun _ _ pays => pays.path)
  | capture paymentId =>
      exact yields_reply ((handleCapture_pays paymentId).mono fun _ _ pays => pays.path)
  | void paymentId =>
      exact yields_reply ((handleVoid_pays paymentId).mono fun _ _ pays => pays.path)
  | deposit customerId amount => exact yields_reply (handleCustomerDeposit_path customerId amount)
  | webhook signature body => exact yields_reply (handleWebhook_path signature body)
  | quickSeed => exact yields_reply handleQuickSeed_path
  | settlementBatch rail => exact yields_reply (handleSettlementBatch_path rail)
  | reconciliation =>
      exact yields_reply (handleReconciliation_books.mono fun _ _ same => path_of_books_eq same)
  | simulateDrift =>
      refine yields_reply ?_
      rw [handleSimulateDrift, yields_bind, setDrift, yields_update]
      exact handleReconciliation_books.mono fun _ _ same => path_of_books_eq same
  | healDrift =>
      refine yields_reply ?_
      rw [handleHealDrift, yields_bind, setDrift, yields_update]
      exact handleReconciliation_books.mono fun _ _ same => path_of_books_eq same

end TrustLedger.Demo
