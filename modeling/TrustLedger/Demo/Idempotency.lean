import TrustLedger.Demo.Lockstep
import TrustLedger.Foundation.Interleaving

/-! Authorization is idempotent under concurrency. Only the request that has acquired a key creates
anything under it, and it keeps the key unless it gives up before that.
-/

namespace TrustLedger.Demo

open Foundation LedgerCore Task

/-- How far an authorization has come with its key. -/
inductive Phase where
  | arrived
  /-- Another request has the key. -/
  | turnedAway
  | replaying (json : String)
  | working
  /-- The hold has been created. -/
  | charged (response : PaymentResponse)
  /-- The payment has been stored. -/
  | recorded (response : PaymentResponse)
  | completed (response : PaymentResponse)
  | released

/-- What authorizations share. -/
def AppState.shared (s : AppState)
    : Std.ExtTreeMap TransferId Transfer × Payments × IdempotencyStore :=
  (s.ledger.transfers, s.payments, s.idempotency)

/-- A hold is created between two states. -/
def AddsHold (id : TransferId) (s s' : AppState) : Prop :=
  s.ledger.transfers[id]? = none ∧ s'.ledger.transfers[id]?.isSome

/-- A payment is stored between two states. -/
def PutsPayment (paymentId : U128) (s s' : AppState) : Prop :=
  s'.payments[paymentId]? ≠ s.payments[paymentId]?

theorem putsPayment_insert {s : AppState} {id paymentId : U128} {payment : Payment}
    (puts : PutsPayment id s { s with payments := s.payments.insert paymentId payment })
    : id = paymentId := by
  by_contra other
  exact puts (getElem?_insert_other other)

/-- What an access of an authorization does, from one phase to the next. -/
inductive KeyStep (sv : Services) (key : String)
    : (AppState → AppState) → AppState → Phase → Phase → Prop where
  | quiet {update s phase} (same : (update s).shared = s.shared)
    : KeyStep sv key update s phase phase
  | refused {update s} (busy : s.idempotency key = some .inProgress)
    (same : (update s).shared = s.shared)
    : KeyStep sv key update s .arrived .turnedAway
  | found {update s json} (stored : s.idempotency key = some (.completed json))
    (same : (update s).shared = s.shared)
    : KeyStep sv key update s .arrived (.replaying json)
  | acquired {update s} (free : s.idempotency key = none)
    (now : (update s).shared
      = (s.ledger.transfers, s.payments, Function.update s.idempotency key (some .inProgress)))
    : KeyStep sv key update s .arrived .working
  | charged {update s response} (same : (update s).payments = s.payments)
    (kept : (update s).idempotency = s.idempotency)
    (hold : TransferId) (adds : ∀ id, AddsHold id s (update s) ↔ id = hold)
    : KeyStep sv key update s .working (.charged response)
  | recorded {update s response} (same : (update s).ledger.transfers = s.ledger.transfers)
    (kept : (update s).idempotency = s.idempotency)
    (paymentId : U128) (puts : ∀ id, PutsPayment id s (update s) → id = paymentId)
    : KeyStep sv key update s (.charged response) (.recorded response)
  | completed {update s response json} (written : sv.writeResponse response = .ok json)
    (now : (update s).shared
      = (s.ledger.transfers, s.payments, s.idempotency.complete key json))
    : KeyStep sv key update s (.recorded response) (.completed response)
  | released {update s}
    (now : (update s).shared
      = (s.ledger.transfers, s.payments, s.idempotency.releaseOnFailure key))
    : KeyStep sv key update s .working .released

/-- The phases of authorizations. They need no lock. -/
def keyProtocol (sv : Services) : Protocol Lock AppState AuthorizeRequest Phase where
  act req _ := KeyStep sv req.idempotencyKey
  needs _ _ := False
  abandon phase phase' := phase' = phase

/-- The phase in which an authorization answers. -/
def AnswersAt (sv : Services) (_req : AuthorizeRequest)
    : Except Failure PaymentResponse → Phase → Prop
  | .ok response, phase =>
      phase = .completed response
      ∨ ∃ json, phase = .replaying json ∧ sv.readResponse json = .ok response
  | .error (.reply _ _), phase => phase ≠ .working ∧ ∀ response, phase ≠ .completed response
  | .error .panicked, _ => True

section Follows

variable {sv : Services} {req : AuthorizeRequest} {ρ L : Type}
  {protocol : Protocol Lock AppState ρ L} {request : ρ} {α : Type} {held : List Lock} {stage : L}
  {Q : Except Failure α → List Lock → L → Prop} {phase : Phase}

theorem follows_orRefuse {ε : Type} {status : StatusCode} {text : ε → String} {x : Except ε α}
    : (orRefuse status text x).Follows protocol request held stage Q
      ↔ Q (x.mapError fun error => .reply status (text error)) held stage := by
  cases x <;> rfl

theorem follows_orPanic {x : Option α} (panics : Q (.error .panicked) held stage)
    (found : ∀ value, x = some value → Q (.ok value) held stage)
    : (orPanic x).Follows protocol request held stage Q := by
  cases x with
  | none => exact panics
  | some value => exact found value rfl

theorem unlocked : ∀ lock, (keyProtocol sv).needs phase lock → lock ∈ held :=
  fun _ needed => needed.elim

/-- An access that leaves alone what authorizations share. -/
theorem follows_quiet {β : Type} {locks : List Lock} {f : AppState → α × AppState}
    {next : α → Handler β} {Q : Except Failure β → List Lock → Phase → Prop}
    (same : ∀ s, (f s).2.shared = s.shared)
    (goes : ∀ s, (next (f s).1).Follows (keyProtocol sv) req held phase Q)
    : (Task.update locks f >>= next).Follows (keyProtocol sv) req held phase Q := by
  rw [follows_bind, follows_update]
  exact fun s => ⟨phase, KeyStep.quiet (same s), unlocked, goes s⟩

theorem follows_releaseKey {Q : Except Failure Unit → List Lock → Phase → Prop}
    (goes : Q (.ok ()) held .released)
    : (releaseKey req.idempotencyKey).Follows (keyProtocol sv) req held .working Q := by
  rw [releaseKey, follows_update]
  exact fun s => ⟨.released, KeyStep.released rfl, unlocked, goes⟩

theorem follows_reserve {transferId amount : U128} {customer merchant : AccountId} {timestamp : U64}
    {Q : Except Failure Unit → List Lock → Phase → Prop} (response : PaymentResponse)
    (refused : ∀ status text, Q (.error (.reply status text)) held .released)
    (reserved : Q (.ok ()) held (.charged response))
    : (reserve (releaseKey req.idempotencyKey) transferId customer merchant amount
        timestamp).Follows (keyProtocol sv) req held .working Q := by
  unfold reserve
  cases built : Transfer.newPending ⟨transferId⟩ customer merchant ⟨amount⟩ timestamp with
  | error error => exact follows_bind.mpr (follows_releaseKey (refused _ _))
  | ok hold =>
      refine Task.Follows.holding (follows_bind.mpr ?_)
      rw [onLedger, follows_update]
      intro s
      rcases applyBatchOp_cases (.pending hold) s.ledger with ⟨error, ran⟩ | ⟨l', ran, step⟩
      · change Ledger.createPending hold s.ledger = _ at ran
        refine ⟨.working, KeyStep.quiet ?_, unlocked, ?_⟩
        · simp only [ran, stateAfter, AppState.shared]
        · simp only [ran, valueAfter]
          refine follows_bind.mpr (follows_releaseKey ⟨rfl, _, rfl, unlocked, refused _ _⟩)
      · change Ledger.createPending hold s.ledger = _ at ran
        refine ⟨.charged response, KeyStep.charged rfl rfl hold.id fun id => ?_, unlocked, ?_⟩
        · simp only [ran, stateAfter, AddsHold]
          constructor
          · rintro ⟨unused, stored⟩
            obtain ⟨t, found⟩ := Option.isSome_iff_exists.mp stored
            rcases step.transfer_origin found with ⟨records, same⟩ | ⟨before, there, -⟩
            · cases records
              exact same.symm
            · rw [unused] at there
              cases there
          · rintro rfl
            exact ⟨step.recorded_unused rfl, by rw [step.recorded_stored rfl]; rfl⟩
        · simp only [ran, valueAfter]
          exact ⟨rfl, _, rfl, unlocked, reserved⟩

theorem handleAuthorize_follows (req : AuthorizeRequest)
    : (handleAuthorize sv req).Follows (keyProtocol sv) req [] .arrived
        fun r _ => AnswersAt sv req r := by
  unfold handleAuthorize
  rw [follows_bind, follows_update]
  intro s
  cases status : s.idempotency req.idempotencyKey with
  | none =>
      refine ⟨.working, KeyStep.acquired status ?_, unlocked, ?_⟩
      · simp only [IdempotencyStore.tryAcquire, status, AppState.shared]
      simp only [IdempotencyStore.tryAcquire, status]
      rw [follows_bind, follows_orRefuse]
      dsimp only [Except.mapError]
      -- three counters, then the hold and what is recorded for it
      refine follows_quiet (fun _ => rfl) fun s₁ => ?_
      refine follows_quiet (fun _ => rfl) fun s₂ => ?_
      refine follows_quiet (fun _ => rfl) fun s₃ => ?_
      refine follows_bind.mpr (follows_orPanic trivial fun customer payer => ?_)
      refine follows_bind.mpr (follows_orPanic trivial fun merchant payee => ?_)
      let paymentId := widen s₁.nextPaymentId
      let payment := Payment.newAuthorized paymentId req.merchantId req.customerId req.amount
        req.feeAmount (widen s₂.nextTransferId) s₃.nextTimestamp
      refine follows_bind.mpr
        (follows_reserve (payment.response paymentId) (fun _ _ => ⟨by simp, by simp⟩) ?_)
      rw [follows_bind, insertPayment, follows_update]
      refine fun s₄ =>
        ⟨_, KeyStep.recorded rfl rfl paymentId fun _ => putsPayment_insert, unlocked, ?_⟩
      rw [follows_bind, follows_orRefuse]
      cases written : sv.writeResponse _ with
      | error text => exact ⟨by simp, by simp⟩
      | ok json =>
          dsimp only [Except.mapError]
          rw [follows_update]
          exact fun s₅ => ⟨_, KeyStep.completed written rfl, unlocked, .inl rfl⟩
  | some known =>
      cases known with
      | inProgress =>
          refine ⟨.turnedAway, KeyStep.refused status ?_, unlocked, ?_⟩
          · simp only [IdempotencyStore.tryAcquire, status, AppState.shared]
          · simp only [IdempotencyStore.tryAcquire, status, follows_bind, follows_orRefuse,
              Except.mapError, AnswersAt]
            simp
      | completed json =>
          refine ⟨.replaying json, KeyStep.found status ?_, unlocked, ?_⟩
          · simp only [IdempotencyStore.tryAcquire, status, AppState.shared]
          · simp only [IdempotencyStore.tryAcquire, status, follows_bind, follows_orRefuse,
              Except.mapError]
            cases read : sv.readResponse json with
            | error text => exact ⟨by simp, by simp⟩
            | ok response => exact .inr ⟨json, rfl, read⟩

end Follows

section Keys

/-- The request has acquired its key and not given it back. -/
def Phase.owns : Phase → Bool
  | .working | .charged _ | .recorded _ | .completed _ => true
  | .arrived | .turnedAway | .replaying _ | .released => false

/-- The request has created its hold. -/
def Phase.hasCharged : Phase → Bool
  | .charged _ | .recorded _ | .completed _ => true
  | _ => false

/-- The request has stored its payment. -/
def Phase.hasRecorded : Phase → Bool
  | .recorded _ | .completed _ => true
  | _ => false

/-- What a phase implies about the entry of the request's key. -/
def Phase.Sees (sv : Services) (entry : Option IdempotencyStatus) : Phase → Prop
  | .arrived | .turnedAway | .released => True
  | .replaying json => entry = some (.completed json)
  | .working | .charged _ | .recorded _ => entry = some .inProgress
  | .completed response =>
      ∃ json, sv.writeResponse response = .ok json ∧ entry = some (.completed json)

abbrev AuthorizeAccess := Access Lock AppState AuthorizeRequest

/-- The access acquires a key. -/
def acquiresKey (key : String) (access : AuthorizeAccess) : Bool :=
  (access.before.idempotency key).isNone && (access.after.idempotency key).isSome

/-- The request that acquired a key last. -/
def lastHolder (log : List AuthorizeAccess) (key : String) : Option Nat :=
  (log.filter (acquiresKey key)).getLast?.map Access.thread

theorem lastHolder_snoc (log : List AuthorizeAccess) (access : AuthorizeAccess) (key : String)
    : lastHolder (log ++ [access]) key
      = if acquiresKey key access then some access.thread else lastHolder log key := by
  rw [lastHolder, List.filter_append]
  cases acquires : acquiresKey key access <;> simp [acquires, lastHolder]

/-- Every key is with the request that acquired it last, and everybody's phase agrees with it. -/
structure Keyed (sv : Services) (s : AppState) (log : List AuthorizeAccess)
    (rows : List (AuthorizeRequest × Phase))
    : Prop where
  sees
    : ∀ {i : Nat} {req : AuthorizeRequest} {phase : Phase}, rows[i]? = some (req, phase)
      → phase.Sees sv (s.idempotency req.idempotencyKey)
  single
    : ∀ {i j : Nat} {req req' : AuthorizeRequest} {phase phase' : Phase},
      rows[i]? = some (req, phase) → rows[j]? = some (req', phase')
      → req.idempotencyKey = req'.idempotencyKey → phase.owns → phase'.owns → i = j
  owned
    : ∀ {key : String} {status : IdempotencyStatus}, s.idempotency key = some status
      → ∃ i req phase, rows[i]? = some (req, phase) ∧ req.idempotencyKey = key
        ∧ phase.owns ∧ lastHolder log key = some i

variable {sv : Services} {key : String} {update : AppState → AppState} {s : AppState}
  {phase phase' : Phase} {log : List AuthorizeAccess} {rows : List (AuthorizeRequest × Phase)}
  {store : IdempotencyStore} {s' : AppState}

theorem releaseOnFailure_of_ne {other : String} (different : other ≠ key)
    : store.releaseOnFailure key other = store other := by
  rcases entry : store key with _ | _ | json
    <;> simp [IdempotencyStore.releaseOnFailure, entry, different]

theorem releaseOnFailure_busy (busy : store key = some .inProgress)
    : store.releaseOnFailure key key = none := by
  simp [IdempotencyStore.releaseOnFailure, busy]

theorem Phase.Sees.not_owns (sees : phase.Sees sv none) : phase.owns = false := by
  cases phase with
  | completed response =>
      obtain ⟨json, -, stored⟩ := sees
      cases stored
  | working => cases sees
  | charged response => cases sees
  | recorded response => cases sees
  | _ => rfl

/-- Who neither owns a key nor replays under it does not depend on its entry. -/
theorem Phase.Sees.change {entry entry' : Option IdempotencyStatus} (sees : phase.Sees sv entry)
    (idle : phase.owns = false) (pending : ∀ json, entry ≠ some (.completed json))
    : phase.Sees sv entry' := by
  cases phase with
  | replaying json => exact absurd sees (pending json)
  | working => cases idle
  | charged response => cases idle
  | recorded response => cases idle
  | completed response => cases idle
  | _ => trivial

namespace KeyStep

theorem idempotency_of_shared {s' : AppState} {transfers : Std.ExtTreeMap TransferId Transfer}
    {payments : Payments} {store : IdempotencyStore}
    (now : s'.shared = (transfers, payments, store))
    : s'.idempotency = store :=
  congrArg (·.2.2) now

/-- The entry of the request's key after a step. Nobody else's entry changes. -/
inductive Entry (sv : Services) (phase phase' : Phase)
    : Option IdempotencyStatus → Option IdempotencyStatus → Prop where
  | kept {entry} (before : phase.owns → phase'.owns) (after : phase'.owns → phase.owns)
    : Entry sv phase phase' entry entry
  | acquired (now : phase' = .working) : Entry sv phase phase' none (some .inProgress)
  | completed {response json} (before : phase = .recorded response)
    (now : phase' = .completed response) (written : sv.writeResponse response = .ok json)
    : Entry sv phase phase' (some .inProgress) (some (.completed json))
  | released (before : phase = .working) (now : phase' = .released)
    : Entry sv phase phase' (some .inProgress) none

namespace Entry

variable {entry entry' : Option IdempotencyStatus}

variable (change : Entry sv phase phase' entry entry')

include change

theorem owned (owns : phase'.owns) : phase.owns ∨ entry = none := by
  cases change with
  | kept before after => exact .inl (after owns)
  | acquired now => exact .inr rfl
  | completed before now written => exact .inl (by rw [before]; rfl)
  | released before now => exact .inl (by rw [before]; rfl)

theorem owns_of_new (free : entry = none) (taken : entry' ≠ none) : phase'.owns := by
  cases change with
  | kept before after => exact absurd free taken
  | acquired now => rw [now]; rfl
  | completed before now written => cases free
  | released before now => cases free

theorem owns_of_kept (owns : phase.owns) (taken : entry' ≠ none) : phase'.owns := by
  cases change with
  | kept before after => exact before owns
  | acquired now => rw [now]; rfl
  | completed before now written => rw [now]; rfl
  | released before now => exact absurd rfl taken

end Entry

theorem idempotency_elsewhere (step : KeyStep sv key update s phase phase') {other : String}
    (different : other ≠ key)
    : (update s).idempotency other = s.idempotency other := by
  cases step with
  | charged same kept hold adds => rw [kept]
  | recorded same kept paymentId puts => rw [kept]
  | acquired free now =>
      rw [idempotency_of_shared now, Function.update_of_ne different]
  | completed written now =>
      rw [idempotency_of_shared now, IdempotencyStore.complete, Function.update_of_ne different]
  | released now => rw [idempotency_of_shared now, releaseOnFailure_of_ne different]
  | quiet same => rw [idempotency_of_shared same]
  | refused busy same => rw [idempotency_of_shared same]
  | found stored same => rw [idempotency_of_shared same]

theorem entry (step : KeyStep sv key update s phase phase')
    (sees : phase.Sees sv (s.idempotency key))
    : Entry sv phase phase' (s.idempotency key) ((update s).idempotency key)
      ∧ phase'.Sees sv ((update s).idempotency key) := by
  cases step with
  | quiet same =>
      rw [idempotency_of_shared same]
      exact ⟨.kept id id, sees⟩
  | refused busy same =>
      rw [idempotency_of_shared same]
      exact ⟨.kept nofun nofun, trivial⟩
  | found stored same =>
      rw [idempotency_of_shared same]
      exact ⟨.kept nofun nofun, stored⟩
  | acquired free now =>
      rw [idempotency_of_shared now, Function.update_self, free]
      exact ⟨.acquired rfl, rfl⟩
  | charged same kept hold adds =>
      rw [kept]
      exact ⟨.kept id id, sees⟩
  | recorded same kept paymentId puts =>
      rw [kept]
      exact ⟨.kept id id, sees⟩
  | completed written now =>
      rw [idempotency_of_shared now, IdempotencyStore.complete, Function.update_self]
      have busy : s.idempotency key = some .inProgress := sees
      rw [busy]
      exact ⟨.completed rfl rfl written, _, written, rfl⟩
  | released now =>
      have busy : s.idempotency key = some .inProgress := sees
      rw [idempotency_of_shared now, releaseOnFailure_busy busy, busy]
      exact ⟨.released rfl rfl, trivial⟩

end KeyStep

theorem Keyed.arrive (keyed : Keyed sv s log rows) (req : AuthorizeRequest)
    : Keyed sv s log (rows ++ [(req, .arrived)]) where
  sees {i req phase} found := by
    rcases Pool.getElem?_snoc_cases found with ⟨-, old⟩ | ⟨-, new⟩
    · exact keyed.sees old
    · cases new
      trivial
  single {i j req req' phase phase'} found found' same owns owns' := by
    rcases Pool.getElem?_snoc_cases found with ⟨-, old⟩ | ⟨-, new⟩
    · rcases Pool.getElem?_snoc_cases found' with ⟨-, old'⟩ | ⟨-, new'⟩
      · exact keyed.single old old' same owns owns'
      · cases new'
        cases owns'
    · cases new
      cases owns
  owned stored := by
    obtain ⟨i, req, phase, found, facts⟩ := keyed.owned stored
    have within := (List.getElem?_eq_some_iff.mp found).1
    exact ⟨i, req, phase, by rwa [List.getElem?_append_left within], facts⟩

/-- A step of a request keeps every key with its last holder. -/
theorem Keyed.step (keyed : Keyed sv s log rows) {i : Nat} {req : AuthorizeRequest}
    (locks : List Lock) (there : rows[i]? = some (req, phase))
    (step : KeyStep sv req.idempotencyKey update s phase phase')
    : Keyed sv (update s) (log ++ [⟨i, req, locks, update, s⟩]) (rows.set i (req, phase')) := by
  have within := (List.getElem?_eq_some_iff.mp there).1
  obtain ⟨entry, sees⟩ := step.entry (keyed.sees there)
  constructor
  · intro j other phase₁ found
    rcases Pool.getElem?_set_cases found with ⟨rfl, here⟩ | ⟨differs, old⟩
    · cases here
      exact sees
    · by_cases same : other.idempotencyKey = req.idempotencyKey
      · have before := keyed.sees old
        rw [same] at before ⊢
        have idle (owns : phase.owns) : phase₁.owns = false := by
          by_contra owns'
          exact differs (keyed.single old there same (by simpa using owns') owns)
        clear sees
        generalize s.idempotency req.idempotencyKey = entry₁ at entry before
        generalize (update s).idempotency req.idempotencyKey = entry₂ at entry ⊢
        cases entry with
        | kept => exact before
        | acquired => exact before.change before.not_owns nofun
        | completed earlier => exact before.change (idle (by rw [earlier]; rfl)) nofun
        | released earlier => exact before.change (idle (by rw [earlier]; rfl)) nofun
      · rw [step.idempotency_elsewhere same]
        exact keyed.sees old
  · -- a request that owns its key now owned it before, or found it free
    have only {j : Nat} {other : AuthorizeRequest} {phase₁ : Phase} (differs : j ≠ i)
        (old : rows[j]? = some (other, phase₁))
        (same : other.idempotencyKey = req.idempotencyKey) (owns : phase₁.owns)
        (now : phase'.owns)
        : False := by
      rcases entry.owned now with before | free
      · exact differs (keyed.single old there same owns before)
      · have seen := keyed.sees old
        rw [same, free] at seen
        simp [seen.not_owns] at owns
    intro j k other other' phase₁ phase₂ found found' same owns owns'
    rcases Pool.getElem?_set_cases found with ⟨rfl, here⟩ | ⟨differs, old⟩
    · cases here
      rcases Pool.getElem?_set_cases found' with ⟨rfl, -⟩ | ⟨differs', old'⟩
      · rfl
      · exact (only differs' old' same.symm owns' owns).elim
    · rcases Pool.getElem?_set_cases found' with ⟨rfl, here'⟩ | ⟨-, old'⟩
      · cases here'
        exact (only differs old same owns owns').elim
      · exact keyed.single old old' same owns owns'
  · intro key status stored
    rw [lastHolder_snoc]
    by_cases free : s.idempotency key = none
    · -- only the request itself can have taken it
      have here : key = req.idempotencyKey := by
        by_contra different
        rw [step.idempotency_elsewhere different, free] at stored
        cases stored
      subst here
      refine ⟨i, req, phase', List.getElem?_set_self within, rfl, ?_, ?_⟩
      · exact entry.owns_of_new free (by simp [stored])
      · rw [if_pos (by simp [acquiresKey, Access.after, free, stored])]
    · have kept : acquiresKey key ⟨i, req, locks, update, s⟩ = false := by
        simp [acquiresKey, free]
      obtain ⟨status', before⟩ := Option.ne_none_iff_exists'.mp free
      obtain ⟨j, other, phase₁, found, named, owns, holder⟩ := keyed.owned before
      by_cases self : j = i
      · subst self
        obtain ⟨rfl, rfl⟩ := Prod.mk.inj (Option.some.inj (there.symm.trans found))
        subst named
        exact ⟨j, req, phase', List.getElem?_set_self within, rfl,
          entry.owns_of_kept owns (by simp [stored]), by simp [kept, holder]⟩
      · exact ⟨j, other, phase₁, by rwa [List.getElem?_set_ne (Ne.symm self)], named, owns,
          by simp [kept, holder]⟩

/-- The access creates a hold. -/
def CreatesHold (id : TransferId) (access : AuthorizeAccess) : Prop :=
  AddsHold id access.before access.after

/-- The access stores a payment. -/
def StoresPayment (paymentId : U128) (access : AuthorizeAccess) : Prop :=
  PutsPayment paymentId access.before access.after

theorem not_addsHold {s : AppState} (same : s'.ledger.transfers = s.ledger.transfers)
    {id : TransferId}
    : ¬AddsHold id s s' := by
  intro ⟨unused, stored⟩
  rw [same, unused] at stored
  cases stored

theorem not_putsPayment {s : AppState} (same : s'.payments = s.payments) {id : U128}
    : ¬PutsPayment id s s' :=
  fun puts => puts (by rw [same])

namespace KeyStep

/-- What a step creates. -/
inductive Work (s s' : AppState) (phase phase' : Phase) : Prop where
  | none (transfers : s'.ledger.transfers = s.ledger.transfers)
    (payments : s'.payments = s.payments) (charged : phase'.hasCharged = phase.hasCharged)
    (recorded : phase'.hasRecorded = phase.hasRecorded)
  | hold {response : PaymentResponse} (before : phase = .working)
    (now : phase' = .charged response) (payments : s'.payments = s.payments) (hold : TransferId)
    (adds : ∀ id, AddsHold id s s' ↔ id = hold)
  | payment {response : PaymentResponse} (before : phase = .charged response)
    (now : phase' = .recorded response) (transfers : s'.ledger.transfers = s.ledger.transfers)
    (paymentId : U128) (puts : ∀ id, PutsPayment id s s' → id = paymentId)

theorem work (step : KeyStep sv key update s phase phase') : Work s (update s) phase phase' := by
  cases step with
  | charged same kept hold adds => exact .hold rfl rfl same hold adds
  | recorded same kept paymentId puts => exact .payment rfl rfl same paymentId puts
  | quiet now => exact .none (congrArg (·.1) now) (congrArg (·.2.1) now) rfl rfl
  | refused busy now => exact .none (congrArg (·.1) now) (congrArg (·.2.1) now) rfl rfl
  | found stored now => exact .none (congrArg (·.1) now) (congrArg (·.2.1) now) rfl rfl
  | acquired free now => exact .none (congrArg (·.1) now) (congrArg (·.2.1) now) rfl rfl
  | completed written now => exact .none (congrArg (·.1) now) (congrArg (·.2.1) now) rfl rfl
  | released now => exact .none (congrArg (·.1) now) (congrArg (·.2.1) now) rfl rfl

end KeyStep

variable {i : Nat} {req : AuthorizeRequest} {locks : List Lock}

/-- Everything that holds of a pool of authorizations. -/
structure Accounted (sv : Services) (s : AppState) (log : List AuthorizeAccess)
    (rows : List (AuthorizeRequest × Phase))
    : Prop where
  keyed : Keyed sv s log rows
  holds : Marked CreatesHold Phase.hasCharged log rows
  payments : Marked StoresPayment Phase.hasRecorded log rows
  charged : Logged (fun access => ∃ id, CreatesHold id access) Phase.hasCharged log rows

theorem Accounted.arrive (accounted : Accounted sv s log rows) (req : AuthorizeRequest)
    : Accounted sv s log (rows ++ [(req, .arrived)]) where
  keyed := accounted.keyed.arrive req
  holds := accounted.holds.arrive _
  payments := accounted.payments.arrive _
  charged := accounted.charged.arrive rfl

theorem Accounted.access (accounted : Accounted sv s log rows)
    (there : rows[i]? = some (req, phase))
    (step : KeyStep sv req.idempotencyKey update s phase phase')
    : Accounted sv (update s) (log ++ [⟨i, req, locks, update, s⟩]) (rows.set i (req, phase')) := by
  have keyed := accounted.keyed.step locks there step
  cases step.work with
  | none transfers payments charged recorded =>
      have noHold {id : TransferId} : ¬AddsHold id s (update s) := not_addsHold transfers
      have noPayment {id : U128} : ¬PutsPayment id s (update s) := not_putsPayment payments
      exact ⟨keyed,
        accounted.holds.access there (by simp [charged]) (fun _ adds => absurd adds noHold)
          (fun _ _ adds => absurd adds noHold),
        accounted.payments.access there (by simp [recorded]) (fun _ puts => absurd puts noPayment)
          (fun _ _ puts => absurd puts noPayment),
        accounted.charged.access there (by rw [charged]; exact .inl)⟩
  | hold before now payments hold adds =>
      have noPayment {id : U128} : ¬PutsPayment id s (update s) := not_putsPayment payments
      subst before now
      exact ⟨keyed,
        accounted.holds.access there nofun (fun _ _ => ⟨rfl, rfl⟩)
          (fun id id' added added' => ((adds id).mp added).trans ((adds id').mp added').symm),
        accounted.payments.access there nofun (fun _ puts => absurd puts noPayment)
          (fun _ _ puts => absurd puts noPayment),
        accounted.charged.access there fun _ => .inr ⟨hold, (adds hold).mpr rfl⟩⟩
  | payment before now transfers paymentId puts =>
      have noHold {id : TransferId} : ¬AddsHold id s (update s) := not_addsHold transfers
      subst before now
      exact ⟨keyed,
        accounted.holds.access there (fun _ => rfl) (fun _ adds => absurd adds noHold)
          (fun _ _ adds => absurd adds noHold),
        accounted.payments.access there nofun (fun _ _ => ⟨rfl, rfl⟩)
          (fun id id' put put' => (puts id put).trans (puts id' put').symm),
        accounted.charged.access there fun _ => .inl rfl⟩

end Keys

section Pools

abbrev AuthorizePool := Pool Lock AppState Failure PaymentResponse AuthorizeRequest

variable {sv : Services} {p : AuthorizePool} {rows : List (AuthorizeRequest × Phase)} {key : String}
  {phase : Phase} {s : AppState} {log : List AuthorizeAccess}

theorem accounted_preserved (sv : Services)
    : Pool.Preserved (Locking.exclusive Lock) (keyProtocol sv) (handleAuthorize sv)
        (fun _ => .arrived) (fun _ _ => True)
        fun p rows => Accounted sv p.state p.log rows where
  arrive request _ accounted _ := accounted.arrive request
  access accounted _ _ _ there step _ _ := accounted.access there step
  lock accounted _ _ there abandons := by
    have same := abandons.elim id id
    subst same
    rwa [Pool.set_of_getElem? there]

/-- What authorizations under one key have done and answered. -/
structure Idempotent (p : AuthorizePool) (key : String) : Prop where
  oneHold
    : ∀ {n m : Nat} {a b : AuthorizeAccess} {id id' : TransferId}, p.log[n]? = some a
      → p.log[m]? = some b → a.request.idempotencyKey = key → b.request.idempotencyKey = key
      → CreatesHold id a → CreatesHold id' b → n = m ∧ id = id'
  onePayment
    : ∀ {n m : Nat} {a b : AuthorizeAccess} {id id' : U128}, p.log[n]? = some a
      → p.log[m]? = some b → a.request.idempotencyKey = key → b.request.idempotencyKey = key
      → StoresPayment id a → StoresPayment id' b → n = m ∧ id = id'
  sameResponse
    : ∀ {i j : Nat} {t u : Thread Lock AppState Failure PaymentResponse AuthorizeRequest}
        {response response' : PaymentResponse}, p.threads[i]? = some t → p.threads[j]? = some u
      → t.request.idempotencyKey = key → u.request.idempotencyKey = key
      → t.rest = .done response → u.rest = .done response' → response = response'
  /-- If the request that acquired the key last has returned an error and created no hold, the
  next request acquires the key.
  -/
  reacquirable
    : ∀ {i : Nat} {t : Thread Lock AppState Failure PaymentResponse AuthorizeRequest}
        {status : StatusCode} {text : String}, p.threads[i]? = some t
      → lastHolder p.log key = some i → t.rest = .fail (.reply status text)
      → (∀ a ∈ p.log, a.thread = i → ∀ id, ¬CreatesHold id a)
      → (p.state.idempotency.tryAcquire key).1 = .ok none

theorem Phase.owns_of_hasCharged (charged : phase.hasCharged) : phase.owns := by
  cases phase <;> first | rfl | cases charged

theorem Phase.owns_of_hasRecorded (recorded : phase.hasRecorded) : phase.owns := by
  cases phase <;> first | rfl | cases recorded

/-- Effects that only owners of a key have are had at most once under it. -/
theorem Keyed.once (keyed : Keyed sv s log rows) {ι : Type} {effect : ι → AuthorizeAccess → Prop}
    {since : Phase → Bool} (marked : Marked effect since log rows)
    (owns : ∀ phase, since phase → phase.owns) {n m : Nat} {a b : AuthorizeAccess} {x y : ι}
    (found : log[n]? = some a) (found' : log[m]? = some b)
    (same : a.request.idempotencyKey = b.request.idempotencyKey) (has : effect x a)
    (has' : effect y b)
    : n = m ∧ x = y := by
  obtain ⟨phase, there, passed⟩ := marked.staged found has
  obtain ⟨phase', there', passed'⟩ := marked.staged found' has'
  have thread := keyed.single there there' same (owns _ passed) (owns _ passed')
  exact marked.once found found' thread has has'

/-- A request that has answered has the response stored under its key. -/
theorem response_stored (reads : ∀ response json, sv.writeResponse response = .ok json
      → sv.readResponse json = .ok response) (keyed : Keyed sv s log rows) {i : Nat}
    {req : AuthorizeRequest} {response : PaymentResponse} (there : rows[i]? = some (req, phase))
    (answers : AnswersAt sv req (.ok response) phase)
    : ∃ json, s.idempotency req.idempotencyKey = some (.completed json)
        ∧ sv.readResponse json = .ok response := by
  have sees := keyed.sees there
  rcases answers with rfl | ⟨json, rfl, read⟩
  · obtain ⟨json, written, stored⟩ := sees
    exact ⟨json, stored, reads _ _ written⟩
  · exact ⟨json, sees, read⟩

theorem Accounted.idempotent (accounted : Accounted sv p.state p.log rows)
    (tracked : p.Tracked (Locking.exclusive Lock) (keyProtocol sv) (AnswersAt sv) rows)
    (reads : ∀ response json, sv.writeResponse response = .ok json
      → sv.readResponse json = .ok response)
    : Idempotent p key where
  oneHold found found' named named' :=
    accounted.keyed.once accounted.holds (fun _ => Phase.owns_of_hasCharged) found found'
      (named.trans named'.symm)
  onePayment found found' named named' :=
    accounted.keyed.once accounted.payments (fun _ => Phase.owns_of_hasRecorded) found found'
      (named.trans named'.symm)
  sameResponse {i j t u response response'} found found' named named' done done' := by
    obtain ⟨phase, there, at_⟩ := tracked.stage found
    obtain ⟨phase', there', at_'⟩ := tracked.stage found'
    have answers := at_.follows
    have answers' := at_'.follows
    rw [done] at answers
    rw [done'] at answers'
    obtain ⟨json, stored, read⟩ := response_stored reads accounted.keyed there answers
    obtain ⟨json', stored', read'⟩ := response_stored reads accounted.keyed there' answers'
    rw [named] at stored
    rw [named', stored] at stored'
    cases stored'
    rw [read] at read'
    cases read'
    rfl
  reacquirable {i t status text} found holder failed unspent := by
    cases entry : p.state.idempotency key with
    | none => simp [IdempotencyStore.tryAcquire, entry]
    | some known =>
        -- the holder would own the key, and so have created a hold
        obtain ⟨j, req, phase, there, named, owns, last⟩ := accounted.keyed.owned entry
        cases holder.symm.trans last
        obtain ⟨phase', there', at_⟩ := tracked.stage found
        cases there.symm.trans there'
        have answers := at_.follows
        rw [failed] at answers
        obtain ⟨notWorking, notCompleted⟩ := answers
        have charged : phase.hasCharged := by
          cases phase <;> first | rfl | exact absurd rfl notWorking | cases owns
        obtain ⟨a, logged, thread, id, creates⟩ := accounted.charged _ _ _ there charged
        exact absurd creates (unspent a logged thread id)

theorem accounted_start (unused : ∀ key, s.idempotency key = none) : Accounted sv s [] [] where
  keyed := ⟨fun found => (by cases found), fun found => (by cases found),
    fun stored => (by simp [unused] at stored)⟩
  holds := marked_nil
  payments := marked_nil
  charged i req phase found := by cases found

/-- However authorizations arrive and interleave, under every key at most one hold and one payment
are created, successful answers agree, and a key whose holder failed without a hold is free again.
-/
theorem authorization_idempotent {sv : Services} {s : AppState}
    (unused : ∀ key, s.idempotency key = none)
    (reads : ∀ response json, sv.writeResponse response = .ok json
      → sv.readResponse json = .ok response) (events : List (Event AuthorizeRequest)) (key : String)
    : Idempotent ((Pool.start s).run (Locking.exclusive Lock) (handleAuthorize sv) events) key := by
  have served : ∀ req : AuthorizeRequest,
      Pool.At (keyProtocol sv) (AnswersAt sv) ⟨req, handleAuthorize sv req, []⟩
        (req, .arrived) :=
    fun req => ⟨rfl, handleAuthorize_follows req, nofun⟩
  obtain ⟨rows, tracked, accounted⟩ :=
    (accounted_preserved sv).throughout served (Pool.tracked_start s) (accounted_start unused)
      (fun _ _ _ _ => trivial) events (List.prefix_refl events)
  exact accounted.idempotent tracked reads

/-- Libraries that can write one response and read it back. -/
def oneResponseServices : Services :=
  let response : PaymentResponse := ⟨5000, .authorized, 25_000_000, some 20_000, none⟩
  {
    exampleServices with
    writeResponse := fun r => if r = response then .ok "stored" else .error "unwritable"
    readResponse := fun _ => .ok response
  }

/-- An authorization sent twice at once and a third time later. -/
def retries : List (Event AuthorizeRequest) :=
  let request : AuthorizeRequest := ⟨1, 101, 25_000_000, 250_000, "order-1"⟩
  List.flatten [
    [.arrive request, .arrive request, .advance 0, .advance 1], List.replicate 8 (.advance 0),
    [.arrive request, .advance 2]]

/-- All three requests are answered, the last two by the key's entry. -/
theorem authorization_idempotent_retried
    : ∃ s, exampleStart = .ok s
        ∧ let p := (Pool.start s).run (Locking.exclusive Lock) (handleAuthorize oneResponseServices)
            retries
          p.threads.all (fun t => t.rest.isOver) ∧ p.log.length = 9 ∧ Idempotent p "order-1" := by
  have answered : okAnd exampleStart fun s =>
      let p := (Pool.start s).run (Locking.exclusive Lock) (handleAuthorize oneResponseServices)
        retries
      p.threads.all (fun t => t.rest.isOver) && p.log.length == 9 := by
    decide +kernel
  obtain ⟨s, started, both⟩ := exists_ok_of_okAnd answered
  obtain ⟨answers, accesses⟩ := Bool.and_eq_true_iff.mp both
  refine ⟨s, started, answers, by simpa using accesses, ?_⟩
  refine authorization_idempotent (fun key => by rw [(fresh_of_new started).idempotency]) ?_
    retries _
  intro response json written
  dsimp only [oneResponseServices] at written ⊢
  split at written
  · rename_i same
    rw [same]
  · cases written

end Pools

end TrustLedger.Demo
