import TrustLedger.Demo.Lockstep

/-! Deliveries of webhooks, one after the other, with redeliveries in any order. An event is
recorded before it is handled, so a run records only events that took effect exactly when every
event could be handled at its first delivery. No event takes effect twice.
-/

namespace TrustLedger.Demo

open Foundation LedgerCore Task

/-- What the event of a webhook is to do to the books: hold the funds and record the payment, or
post the hold and move the payment on. There is none if any part of it is refused.
-/
def WebhookPayload.charge (payload : WebhookPayload) (transferId : U128) (books : Books)
    : Option Books :=
  if payload.eventType = "charge.authorized" then do
    let customer ← AccountDirectory.customer payload.customerId
    let merchant ← AccountDirectory.merchant payload.merchantId
    let hold ←
      (Transfer.newPending ⟨transferId⟩ customer merchant ⟨payload.amount⟩
        payload.timestamp).toOption
    let ledger ← outcome (Ledger.createPending hold books.ledger)
    return ⟨ledger, books.payments.insert payload.paymentId
      (.newAuthorized payload.paymentId payload.merchantId payload.customerId payload.amount
        payload.feeAmount transferId payload.timestamp)⟩
  else if payload.eventType = "charge.captured" then do
    let payment ← books.payments[payload.paymentId]?
    let pendingId ← payment.pendingTransferId
    let ledger ←
      outcome (Ledger.postPending ⟨pendingId⟩ ⟨transferId⟩ ⟨payment.amount⟩ payload.timestamp
        books.ledger)
    let captured ← (payment.transitionToCaptured transferId payload.timestamp).toOption
    return ⟨ledger, books.payments.insert payload.paymentId captured⟩
  else none

/-- A webhook as it arrives. -/
structure Delivery where
  signature : Option String
  body : String
  deriving DecidableEq, Repr

namespace Delivery

variable (sv : Services)

def step (s : AppState) (delivery : Delivery) : AppState :=
  Request.step sv s (.webhook delivery.signature delivery.body)

/-- The delivery is signed and fresh, with this payload. -/
structure Carries (s : AppState) (delivery : Delivery) (payload : WebhookPayload) : Prop where
  signed : authenticate sv s.webhookSecret delivery.signature delivery.body = .ok payload
  fresh : WebhookVerifier.verifyFreshness payload.timestamp s.nextTimestamp 300 = .ok ()

/-- The event of a signed and fresh delivery takes effect. -/
def TakesEffect (s : AppState) (delivery : Delivery) (eventId : String) : Prop :=
  ∃ payload, delivery.Carries sv s payload
    ∧ payload.eventId = eventId
    ∧ payload.charge (widen s.nextTransferId) s.books = some (delivery.step sv s).books

/-- An event that has not been recorded yet can be handled where it is delivered. -/
def Applicable (s : AppState) (delivery : Delivery) : Prop :=
  ∀ payload, delivery.Carries sv s payload → payload.eventId ∉ s.webhookDedupe →
    (payload.charge (widen s.nextTransferId) s.books).isSome

instance decidableApplicable (s : AppState) (delivery : Delivery)
    : Decidable (delivery.Applicable sv s) :=
  match signed : authenticate sv s.webhookSecret delivery.signature delivery.body with
  | .error failure => .isTrue fun payload carries => by cases signed.symm.trans carries.signed
  | .ok payload =>
      decidable_of_iff
        (WebhookVerifier.verifyFreshness payload.timestamp s.nextTimestamp 300 = .ok () →
          payload.eventId ∉ s.webhookDedupe →
          (payload.charge (widen s.nextTransferId) s.books).isSome)
        ⟨fun can other carries new => by
            obtain rfl := Except.ok.inj (carries.signed.symm.trans signed)
            exact can carries.fresh new,
          fun applicable fresh new => applicable payload ⟨signed, fresh⟩ new⟩

/-- What a delivery does. Only an event that was not recorded is handled. -/
inductive Outcome (s : AppState) (delivery : Delivery) (s' : AppState) : Prop where
  | ignored (books : s'.books = s.books) (seen : s'.webhookDedupe = s.webhookDedupe)
    (known : ∀ payload, delivery.Carries sv s payload → payload.eventId ∈ s.webhookDedupe)
  | handled (payload : WebhookPayload) (carries : delivery.Carries sv s payload)
    (new : payload.eventId ∉ s.webhookDedupe)
    (seen : s'.webhookDedupe = insert payload.eventId s.webhookDedupe)
    (charged : ∀ books, payload.charge (widen s.nextTransferId) s.books = some books →
      s'.books = books)

end Delivery

section Handling

variable {sv : Services} {s : AppState} {payload : WebhookPayload} {books : Books}

theorem chargeAuthorized_seen (payload : WebhookPayload)
    : (chargeAuthorized payload).Yields s fun _ s' => s'.webhookDedupe = s.webhookDedupe := by
  unfold chargeAuthorized
  simp only [drawTransferId, yields_bind, yields_update]
  refine yields_orPanic rfl fun customer payer => ?_
  refine yields_orPanic rfl fun merchant payee => ?_
  exact yields_reserve (fun _ _ => rfl) fun l' step => rfl

theorem chargeCaptured_seen (payload : WebhookPayload)
    : (chargeCaptured payload).Yields s fun _ s' => s'.webhookDedupe = s.webhookDedupe := by
  rw [chargeCaptured, yields_holding, findPayment, yields_bind, yields_update]
  cases s.payments[payload.paymentId]? with
  | none => rfl
  | some p =>
      dsimp only
      cases p.pendingTransferId with
      | none => rfl
      | some pendingId =>
          simp only [drawTransferId, insertPayment, yields_bind, yields_update]
          refine yields_postHold (fun _ _ => rfl) fun l' step => ?_
          cases p.transitionToCaptured _ _ <;> rfl

theorem toOption_eq_some {ε α : Type} {x : Except ε α} {value : α}
    : x.toOption = some value ↔ x = .ok value := by
  cases x <;> simp [Except.toOption]

theorem chargeAuthorized_charges (type : payload.eventType = "charge.authorized")
    (charged : payload.charge (widen s.nextTransferId) s.books = some books)
    : (chargeAuthorized payload).Yields s fun _ s' => s'.books = books := by
  simp only [WebhookPayload.charge, type, if_true, Option.bind_eq_bind, Option.bind_eq_some_iff,
    toOption_eq_some, outcome_eq_some, Option.pure_def, Option.some.injEq] at charged
  obtain ⟨customer, payer, merchant, payee, hold, built, ledger, created, rfl⟩ := charged
  unfold chargeAuthorized
  simp only [drawTransferId, yields_bind, yields_update, payer, payee, orPanic, reserve,
    built, yields_pure, yields_holding, onLedger, insertPayment]
  rw [show Ledger.createPending hold s.ledger = _ from created]
  rfl

theorem chargeCaptured_charges (type : payload.eventType = "charge.captured")
    (charged : payload.charge (widen s.nextTransferId) s.books = some books)
    : (chargeCaptured payload).Yields s fun _ s' => s'.books = books := by
  have other : payload.eventType ≠ "charge.authorized" := by simp [type]
  rw [WebhookPayload.charge, if_neg other, if_pos type] at charged
  simp only [Option.bind_eq_bind, Option.bind_eq_some_iff, toOption_eq_some, outcome_eq_some,
    Option.pure_def, Option.some.injEq] at charged
  obtain ⟨payment, found, pendingId, named, ledger, posted, captured, moved, rfl⟩ := charged
  have stored : s.payments[payload.paymentId]? = some payment := found
  have ran : valueAfter (Ledger.postPending ⟨pendingId⟩ ⟨widen s.nextTransferId⟩ ⟨payment.amount⟩
      payload.timestamp s.ledger) = .ok () := congrArg valueAfter posted
  rw [chargeCaptured, yields_holding, findPayment, yields_bind, yields_update]
  simp only [stored, named, drawTransferId, postHold, onLedger, yields_bind,
    yields_update, yields_orRefuse, insertPayment, ran, moved, Except.mapError]
  exact congrArg (fun l => Books.mk l _) (congrArg stateAfter posted)

/-- The event is charged if it can be, and no event is recorded. -/
def Charges (payload : WebhookPayload) (s s' : AppState) : Prop :=
  s'.webhookDedupe = s.webhookDedupe
  ∧ ∀ books, payload.charge (widen s.nextTransferId) s.books = some books → s'.books = books

theorem charges_yields {text : String}
    : Task.Yields
        (if payload.eventType = "charge.authorized" then do
            chargeAuthorized payload
            return text
          else if payload.eventType = "charge.captured" then do
            chargeCaptured payload
            return text
          else do
            refuse .badRequest "unknown event type"
            return text)
        s fun _ s' => Charges payload s s' := by
  have answered {x : Handler Unit} (charges : x.Yields s fun _ s' => Charges payload s s')
      : Task.Yields (do x; return text) s fun _ s' => Charges payload s s' := by
    rw [yields_bind]
    refine charges.mono fun r s' done => ?_
    cases r <;> exact done
  split
  · rename_i type
    exact answered
      ⟨chargeAuthorized_seen payload, fun books charged => chargeAuthorized_charges type charged⟩
  · rename_i notAuthorized
    split
    · rename_i type
      exact answered
        ⟨chargeCaptured_seen payload, fun books charged => chargeCaptured_charges type charged⟩
    · rename_i unknown
      refine answered ⟨rfl, fun books charged => ?_⟩
      simp [WebhookPayload.charge, notAuthorized, unknown] at charged

/-- An event whose id is new is recorded, whatever its handling does then. -/
theorem Delivery.outcome (sv : Services) (s : AppState) (delivery : Delivery)
    : delivery.Outcome sv s (delivery.step sv s) := by
  suffices Task.Yields (Request.handle sv (.webhook delivery.signature delivery.body)) s fun _ s' =>
      delivery.Outcome sv s s' from this
  rw [Request.handle, handleWebhook]
  simp only [yields_bind, yields_update, yields_pure]
  cases signed : authenticate sv s.webhookSecret delivery.signature delivery.body with
  | error failure =>
      refine .ignored rfl rfl fun payload carries => ?_
      cases signed.symm.trans carries.signed
  | ok payload =>
      have only : ∀ other, delivery.Carries sv s other → other = payload := fun other carries =>
        Except.ok.inj (carries.signed.symm.trans signed)
      simp only [drawTimestamp, yields_bind, yields_update, yields_orRefuse]
      cases fresh : WebhookVerifier.verifyFreshness payload.timestamp s.nextTimestamp 300 with
      | error error =>
          refine .ignored rfl rfl fun other carries => ?_
          obtain rfl := only other carries
          cases fresh.symm.trans carries.fresh
      | ok _ =>
          by_cases known : payload.eventId ∈ s.webhookDedupe
          · simp only [Except.mapError, WebhookDeduplicator.checkAndRecord, if_pos known]
            exact .ignored rfl rfl fun other carries => only other carries ▸ known
          · simp only [Except.mapError, WebhookDeduplicator.checkAndRecord, if_neg known]
            refine charges_yields.mono fun r s' done => ?_
            have handled : delivery.Outcome sv s s' :=
              .handled payload ⟨signed, fresh⟩ known done.1 done.2
            cases r <;> exact handled

end Handling

section Runs

variable (sv : Services)

/-- The state after deliveries. -/
def AppState.delivered (s : AppState) (deliveries : List Delivery) : AppState :=
  deliveries.foldl (Delivery.step sv) s

/-- The deliveries of a run, each with the state it finds. -/
def visits : AppState → List Delivery → List (AppState × Delivery)
  | _, [] => []
  | s, delivery :: rest => (s, delivery) :: visits (delivery.step sv s) rest

/-- A run records only events that took effect: an event without effect takes effect when it is
redelivered where it can be handled, and no event takes effect twice.
-/
structure RecordsApplied (s : AppState) (deliveries : List Delivery) : Prop where
  recorded
    : ∀ eventId ∈ (s.delivered sv deliveries).webhookDedupe,
        ∃ visit ∈ visits sv s deliveries, visit.2.TakesEffect sv visit.1 eventId
  retried
    : ∀ earlier delivery later payload, deliveries = earlier ++ delivery :: later →
        delivery.Carries sv (s.delivered sv earlier) payload →
        (payload.charge (widen (s.delivered sv earlier).nextTransferId)
          (s.delivered sv earlier).books).isSome →
        (∀ visit ∈ visits sv s earlier, ¬ visit.2.TakesEffect sv visit.1 payload.eventId) →
        delivery.TakesEffect sv (s.delivered sv earlier) payload.eventId
  once
    : (visits sv s deliveries).Pairwise fun first second =>
        ∀ eventId, first.2.TakesEffect sv first.1 eventId →
          ¬ second.2.TakesEffect sv second.1 eventId

variable {sv} {s : AppState} {deliveries : List Delivery} {delivery : Delivery} {eventId : String}
  {payload : WebhookPayload} {earlier : List Delivery}

theorem charge_ne {transferId : U128} {books books' : Books}
    (charged : payload.charge transferId books = some books')
    : books' ≠ books := by
  have moved {op : BatchOp} {ledger : Ledger}
      (ran : Ledger.applyBatchOp op books.ledger = .ok () ledger)
      : ledger ≠ books.ledger := by
    intro same
    have grown := congrArg List.length (Ledger.applyBatchOp_ok_iff.mp ran).journal
    simp [same] at grown
  unfold WebhookPayload.charge at charged
  split at charged
  · simp only [Option.bind_eq_bind, Option.bind_eq_some_iff, outcome_eq_some, Option.pure_def,
      Option.some.injEq] at charged
    obtain ⟨customer, -, merchant, -, hold, -, ledger, created, rfl⟩ := charged
    have ran : Ledger.applyBatchOp (.pending hold) books.ledger = .ok () ledger := created
    exact fun same => moved ran (congrArg Books.ledger same)
  split at charged
  · simp only [Option.bind_eq_bind, Option.bind_eq_some_iff, outcome_eq_some, Option.pure_def,
      Option.some.injEq] at charged
    obtain ⟨payment, -, pendingId, -, ledger, posted, captured, -, rfl⟩ := charged
    have ran : Ledger.applyBatchOp
        (.postPending ⟨pendingId⟩ ⟨transferId⟩ ⟨payment.amount⟩ payload.timestamp) books.ledger
        = .ok () ledger := posted
    exact fun same => moved ran (congrArg Books.ledger same)
  · cases charged

/-- A delivery with a new event records it, and charges it if it can be. -/
theorem Delivery.Carries.handled (carries : delivery.Carries sv s payload)
    (new : payload.eventId ∉ s.webhookDedupe)
    : payload.eventId ∈ (delivery.step sv s).webhookDedupe
      ∧ ∀ books, payload.charge (widen s.nextTransferId) s.books = some books
        → (delivery.step sv s).books = books := by
  cases delivery.outcome sv s with
  | ignored books same known => exact absurd (known payload carries) new
  | handled other carries' new' same effect =>
      obtain rfl : payload = other := Except.ok.inj (carries.signed.symm.trans carries'.signed)
      exact ⟨same ▸ Finset.mem_insert_self .., effect⟩

/-- An event takes effect only in the delivery that records it, and does if it can be handled. -/
theorem Delivery.takesEffect_iff
    : delivery.TakesEffect sv s eventId
      ↔ ∃ payload, delivery.Carries sv s payload
          ∧ payload.eventId = eventId
          ∧ eventId ∉ s.webhookDedupe
          ∧ (payload.charge (widen s.nextTransferId) s.books).isSome := by
  constructor
  · intro ⟨payload, carries, named, charged⟩
    refine ⟨payload, carries, named, ?_, by rw [charged]; rfl⟩
    cases delivery.outcome sv s with
    | ignored books same known => exact absurd books (charge_ne charged)
    | handled other carries' new same effect =>
        obtain rfl : payload = other := Except.ok.inj (carries.signed.symm.trans carries'.signed)
        exact named ▸ new
  · rintro ⟨payload, carries, rfl, new, can⟩
    obtain ⟨books, charged⟩ := Option.isSome_iff_exists.mp can
    refine ⟨payload, carries, rfl, ?_⟩
    rw [charged, (carries.handled new).2 books charged]

theorem Delivery.TakesEffect.seen (effect : delivery.TakesEffect sv s eventId)
    : eventId ∈ (delivery.step sv s).webhookDedupe := by
  obtain ⟨payload, carries, rfl, new, -⟩ := Delivery.takesEffect_iff.mp effect
  exact (carries.handled new).1

theorem Delivery.applicable_iff
    : delivery.Applicable sv s
      ↔ ∀ eventId ∈ (delivery.step sv s).webhookDedupe,
          eventId ∈ s.webhookDedupe ∨ delivery.TakesEffect sv s eventId := by
  constructor
  · intro applicable eventId seen
    cases delivery.outcome sv s with
    | ignored books same known => exact .inl (same ▸ seen)
    | handled payload carries new same effect =>
        rw [same, Finset.mem_insert] at seen
        rcases seen with rfl | before
        · exact .inr (Delivery.takesEffect_iff.mpr
            ⟨payload, carries, rfl, new, applicable payload carries new⟩)
        · exact .inl before
  · intro recorded payload carries new
    rcases recorded _ (carries.handled new).1 with before | took
    · exact absurd before new
    · obtain ⟨found, carried, -, -, can⟩ := Delivery.takesEffect_iff.mp took
      rwa [Except.ok.inj (carries.signed.symm.trans carried.signed)]

theorem Delivery.seen_mono (seen : eventId ∈ s.webhookDedupe)
    : eventId ∈ (delivery.step sv s).webhookDedupe := by
  cases delivery.outcome sv s with
  | ignored books same known => rwa [same]
  | handled payload carries new same charged =>
      rw [same]
      exact Finset.mem_insert_of_mem seen

theorem delivered_seen_mono (seen : eventId ∈ s.webhookDedupe)
    : eventId ∈ (s.delivered sv deliveries).webhookDedupe := by
  induction deliveries generalizing s with
  | nil => exact seen
  | cons delivery rest ih => exact ih (Delivery.seen_mono seen)

theorem visits_seen_mono (seen : eventId ∈ s.webhookDedupe) {visit : AppState × Delivery}
    (visited : visit ∈ visits sv s deliveries)
    : eventId ∈ visit.1.webhookDedupe := by
  induction deliveries generalizing s with
  | nil => cases visited
  | cons delivery rest ih =>
      rcases List.mem_cons.mp visited with rfl | later
      · exact seen
      · exact ih (Delivery.seen_mono seen) later

/-- Whatever is delivered, no event takes effect twice. -/
theorem takesEffect_once
    : (visits sv s deliveries).Pairwise fun first second =>
        ∀ eventId, first.2.TakesEffect sv first.1 eventId →
          ¬ second.2.TakesEffect sv second.1 eventId := by
  induction deliveries generalizing s with
  | nil => exact .nil
  | cons delivery rest ih =>
      refine .cons (fun visit visited eventId effect again => ?_) ih
      obtain ⟨payload, -, -, new, -⟩ := Delivery.takesEffect_iff.mp again
      exact new (visits_seen_mono effect.seen visited)

/-- The events recorded by a run took effect in it exactly when every event could be handled at the
delivery that recorded it.
-/
theorem recorded_iff_applicable
    : (∀ eventId ∈ (s.delivered sv deliveries).webhookDedupe, eventId ∈ s.webhookDedupe
        ∨ ∃ visit ∈ visits sv s deliveries, visit.2.TakesEffect sv visit.1 eventId)
      ↔ ∀ visit ∈ visits sv s deliveries, visit.2.Applicable sv visit.1 := by
  induction deliveries generalizing s with
  | nil => simp [AppState.delivered, visits]
  | cons delivery rest ih =>
      rw [visits, List.forall_mem_cons, ← ih, Delivery.applicable_iff]
      constructor
      · intro recorded
        refine ⟨fun eventId seen => ?_, fun eventId seen => ?_⟩
        · have kept : eventId ∈ ((delivery.step sv s).delivered sv rest).webhookDedupe :=
            delivered_seen_mono seen
          rcases recorded eventId kept with before | ⟨visit, visited, took⟩
          · exact .inl before
          rcases List.mem_cons.mp visited with rfl | later
          · exact .inr took
          · -- recorded by this delivery, so it cannot take effect later
            obtain ⟨-, -, -, new, -⟩ := Delivery.takesEffect_iff.mp took
            exact absurd (visits_seen_mono seen later) new
        · rcases recorded eventId seen with before | ⟨visit, visited, took⟩
          · exact .inl (Delivery.seen_mono before)
          rcases List.mem_cons.mp visited with rfl | later
          · exact .inl took.seen
          · exact .inr ⟨visit, later, took⟩
      · intro ⟨now, later⟩ eventId seen
        rcases later eventId seen with recorded | ⟨visit, visited, took⟩
        · rcases now eventId recorded with before | took
          · exact .inl before
          · exact .inr ⟨_, List.mem_cons_self, took⟩
        · exact .inr ⟨visit, List.mem_cons_of_mem _ visited, took⟩

/-- The first event has to be applicable. -/
theorem RecordsApplied.first {rest : List Delivery}
    (records : RecordsApplied sv s (delivery :: rest))
    : delivery.Applicable sv s := by
  have applicable := recorded_iff_applicable.mp fun eventId seen =>
    .inr (records.recorded eventId seen)
  exact applicable (s, delivery) List.mem_cons_self

theorem visits_append {later : List Delivery}
    : visits sv s (earlier ++ delivery :: later)
      = visits sv s earlier ++ (s.delivered sv earlier, delivery)
          :: visits sv (delivery.step sv (s.delivered sv earlier)) later := by
  induction earlier generalizing s with
  | nil => rfl
  | cons first rest ih => exact congrArg (_ :: ·) ih

/-- An event without effect so far takes effect where it can be handled, if all that was recorded
before took effect.
-/
theorem takesEffect_of_retried (unseen : s.webhookDedupe = ∅)
    (applicable : ∀ visit ∈ visits sv s earlier, visit.2.Applicable sv visit.1)
    (carries : delivery.Carries sv (s.delivered sv earlier) payload)
    (can : (payload.charge (widen (s.delivered sv earlier).nextTransferId)
      (s.delivered sv earlier).books).isSome)
    (none : ∀ visit ∈ visits sv s earlier, ¬ visit.2.TakesEffect sv visit.1 payload.eventId)
    : delivery.TakesEffect sv (s.delivered sv earlier) payload.eventId := by
  refine Delivery.takesEffect_iff.mpr ⟨payload, carries, rfl, fun seen => ?_, can⟩
  rcases recorded_iff_applicable.mpr applicable _ seen with before | ⟨visit, visited, took⟩
  · simp [unseen] at before
  · exact none visit visited took

end Runs

/-- Before any delivery no event is recorded. From there, a run records only events that took
effect, lets the others be retried and applies none twice, exactly when every new event can be
handled where it is first delivered.
-/
theorem webhooks_recorded_iff (sv : Services) (s : AppState) (unseen : s.webhookDedupe = ∅)
    (deliveries : List Delivery)
    : RecordsApplied sv s deliveries
      ↔ ∀ visit ∈ visits sv s deliveries, visit.2.Applicable sv visit.1 := by
  constructor
  · intro records
    exact recorded_iff_applicable.mp fun eventId seen => .inr (records.recorded eventId seen)
  · intro applicable
    refine ⟨fun eventId seen => ?_, fun earlier delivery later payload split carries can none => ?_,
      takesEffect_once⟩
    · rcases recorded_iff_applicable.mpr applicable eventId seen with before | took
      · simp [unseen] at before
      · exact took
    · subst split
      rw [visits_append] at applicable
      exact takesEffect_of_retried unseen
        (fun visit visited => applicable visit (List.mem_append_left _ visited)) carries can none

/-- A charge of customer 101, announced by the card processor. -/
def announced (eventId eventType : String) : WebhookPayload :=
  {
    eventId, eventType
    paymentId := 7
    merchantId := 1
    customerId := 101
    amount := 500
    feeAmount := 5
    timestamp := 1_700_000_100
  }

/-- Libraries that read two webhooks. -/
def webhookServices : Services :=
  {
    exampleServices with
    parsePayload := fun body =>
      if body = "authorization" then .ok (announced "evt-1" "charge.authorized")
      else if body = "capture" then .ok (announced "evt-2" "charge.captured")
      else .error "unreadable"
  }

def authorization : Delivery := ⟨some "", "authorization"⟩

def captureNotice : Delivery := ⟨some "", "capture"⟩

/-- The answer to a delivery. -/
def Delivery.answer (sv : Services) (s : AppState) (delivery : Delivery) : Except Failure String :=
  valueAfter ((handleWebhook sv delivery.signature delivery.body).run s)

/-- A capture that arrives before its authorization is answered with success and recorded. When it
is redelivered it could be handled, but is refused as a duplicate, and the payment stays authorized.
-/
theorem early_capture_lost
    : ∃ s, exampleStart = .ok s
        ∧ s.webhookDedupe = ∅
        ∧ captureNotice.answer webhookServices s = .ok "Webhook processed successfully"
        ∧ captureNotice.answer webhookServices
            (s.delivered webhookServices [captureNotice, authorization])
          = .error (.reply .conflict "duplicate webhook event_id: evt-2")
        ∧ ((s.delivered webhookServices
            [captureNotice, authorization, captureNotice]).payments[(7 : U128)]?.map Payment.state)
          = some .authorized
        ∧ ¬ RecordsApplied webhookServices s [captureNotice, authorization, captureNotice] := by
  have facts : okAnd exampleStart fun s =>
      decide (s.webhookDedupe = ∅
        ∧ captureNotice.answer webhookServices s = .ok "Webhook processed successfully"
        ∧ captureNotice.answer webhookServices
            (s.delivered webhookServices [captureNotice, authorization])
          = .error (.reply .conflict "duplicate webhook event_id: evt-2")
        ∧ ((s.delivered webhookServices
            [captureNotice, authorization, captureNotice]).payments[(7 : U128)]?.map Payment.state)
          = some .authorized
        ∧ ¬ captureNotice.Applicable webhookServices s) := by
    decide +kernel
  obtain ⟨s, started, holds⟩ := exists_ok_of_okAnd facts
  obtain ⟨unseen, answered, refused, unmoved, early⟩ := of_decide_eq_true holds
  exact ⟨s, started, unseen, answered, refused, unmoved, fun records => early records.first⟩

/-- Witness: both events in order, and then both again. -/
theorem webhooks_recorded_iff_ordered
    : ∃ s, exampleStart = .ok s
        ∧ RecordsApplied webhookServices s
            [authorization, captureNotice, authorization, captureNotice] := by
  have facts : okAnd exampleStart fun s =>
      decide (s.webhookDedupe = ∅
        ∧ ∀ visit ∈ visits webhookServices s
            [authorization, captureNotice, authorization, captureNotice],
          visit.2.Applicable webhookServices visit.1) := by
    decide +kernel
  obtain ⟨s, started, holds⟩ := exists_ok_of_okAnd facts
  obtain ⟨unseen, applicable⟩ := of_decide_eq_true holds
  exact ⟨s, started, (webhooks_recorded_iff webhookServices s unseen _).mpr applicable⟩

end TrustLedger.Demo
