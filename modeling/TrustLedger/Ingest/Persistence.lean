import TrustLedger.Ingest.Decisions

/-! Persisting the accepted mutations of a micro-batch: the group append is all or nothing,
the commit behind it cannot fail, and every committed mutation finds its entity.
-/

namespace TrustLedger.Ingest

open Foundation LedgerCore WriteAheadLog Ledger

/-- The payloads decode to these event lists, one each. -/
def Records (payloads : List Bytes) (lists : List (List LedgerEvent)) : Prop :=
  List.Forall₂ (fun payload events => decodeEvents payload = .ok events) payloads lists

variable {events : List LedgerEvent} {payloads : List Bytes} {batch : List IngestCommand}
  {io : AppendIo} {e : Engine} {wal : Wal} {l l' : Ledger} {event : LedgerEvent}
  {responder : Responder} {ops : List BatchOp} {watermark : U64}

theorem encodeAll_cons_eq_ok {rest : List (List LedgerEvent)}
    : encodeAll (events :: rest) = .ok payloads
      ↔ ∃ payload later, encodeEvents events = .ok payload
          ∧ encodeAll rest = .ok later
          ∧ payloads = payload :: later := by
  simp only [encodeAll, bind_eq_ok, pure_eq_ok]
  constructor
  · rintro ⟨payload, first, later, others, same⟩
    exact ⟨payload, later, first, others, same.symm⟩
  · rintro ⟨payload, later, first, others, same⟩
    exact ⟨payload, first, later, others, same.symm⟩

theorem encodeAll_append {left right : List (List LedgerEvent)}
    : encodeAll (left ++ right) = .ok payloads
      ↔ ∃ first second, encodeAll left = .ok first
          ∧ encodeAll right = .ok second
          ∧ payloads = first ++ second := by
  induction left generalizing payloads with
  | nil => simp [encodeAll]
  | cons events rest ih =>
      simp only [List.cons_append, encodeAll_cons_eq_ok, ih]
      constructor
      · rintro ⟨payload, -, encoded, ⟨first, second, others, after, rfl⟩, rfl⟩
        exact ⟨payload :: first, second, ⟨payload, first, encoded, others, rfl⟩, after, rfl⟩
      · rintro ⟨-, second, ⟨payload, first, encoded, others, rfl⟩, after, rfl⟩
        exact ⟨payload, first ++ second, encoded, ⟨first, second, others, after, rfl⟩, rfl⟩

theorem records_encodeAll {lists : List (List LedgerEvent)}
    (encoded : encodeAll lists = .ok payloads)
    : Records payloads lists := by
  induction lists generalizing payloads with
  | nil =>
      cases encoded
      exact .nil
  | cons events rest ih =>
      obtain ⟨payload, later, first, others, rfl⟩ := encodeAll_cons_eq_ok.mp encoded
      exact .cons (decodeEvents_encodeEvents first) (ih others)

/-- The accepted events of a micro-batch, one list for each accepted mutation. -/
def acceptedLists (batch : List IngestCommand) (l : Ledger) : List (List LedgerEvent) :=
  (successes (decisions batch l).1).map Prod.snd

theorem applyEvents_acceptedLists (batch : List IngestCommand) (l : Ledger)
    : applyEvents (acceptedLists batch l).flatten l = some (decisions batch l).2 :=
  applyEvents_decideAll (convertAll batch l.lastTimestamp).1 l

/-- What persisting a micro-batch gives when its records are appended. -/
def Processed.persisted (batch : List IngestCommand) (l : Ledger) (wal : Wal) : Processed :=
  let decided := decisions batch l
  ⟨.ok (), (successes decided.1).map fun s => s.1.respondOk decided.2, ⟨decided.2, wal⟩⟩

theorem persist_appended {range : U64 × U64}
    (encoded : encodeAll (acceptedLists batch e.ledger) = .ok payloads)
    (appended : Wal.appendBatch payloads io e.wal = .ok range wal)
    : e.persist (successes (decisions batch e.ledger).1) io = .persisted batch e.ledger wal := by
  have applied := applyEvents_acceptedLists batch e.ledger
  rw [acceptedLists] at applied encoded
  unfold Engine.persist
  split
  · rename_i nothing
    rw [nothing] at applied encoded
    cases encoded
    cases appended
    have unchanged : e.ledger = (decisions batch e.ledger).2 := Option.some_inj.mp applied
    simp only [Processed.persisted, nothing, List.map_nil, ← unchanged]
  · have committed := commitEvents_ok_iff.mpr applied
    simp only [encoded, appended, committed, Processed.persisted]

theorem persist_failed {walErr : WalError}
    (encoded : encodeAll (acceptedLists batch e.ledger) = .ok payloads)
    (failed : Wal.appendBatch payloads io e.wal = .error walErr wal)
    : e.persist (successes (decisions batch e.ledger).1) io
      = ⟨.error (.wal walErr.text),
        (successes (decisions batch e.ledger).1).map fun s => s.1.respondErr (.wal walErr.text),
        { e with wal }⟩ := by
  rw [acceptedLists] at encoded
  have some : successes (decisions batch e.ledger).1 ≠ [] := by
    intro nothing
    rw [nothing] at encoded
    cases encoded
    cases failed
  simp only [Engine.persist, if_neg some, encoded, failed]

theorem persist_unencoded {err : CodecError}
    (encoded : encodeAll (acceptedLists batch e.ledger) = .error err)
    : e.persist (successes (decisions batch e.ledger).1) io
      = ⟨.error (.codec err.text), [], e⟩ := by
  rw [acceptedLists] at encoded
  have some : successes (decisions batch e.ledger).1 ≠ [] := by
    intro nothing
    rw [nothing] at encoded
    cases encoded
  simp only [Engine.persist, if_neg some, encoded]

/-- Persisting on a log ready to append records all accepted events and commits them, or fails
without a trace, and then never with a ledger error.
-/
theorem persist_outcome {path : String} {options : WalOptions} (repairs : io.Repairs)
    (wal : e.wal = Wal.holding path options payloads) (batch : List IngestCommand)
    : (∃ recorded,
        encodeAll (acceptedLists batch e.ledger) = .ok recorded
        ∧ Accepts options.maxRecordPayloadLen recorded
        ∧ e.persist (successes (decisions batch e.ledger).1) io
          = .persisted batch e.ledger (Wal.holding path options (payloads ++ recorded)))
      ∨ ∃ err answered,
        (∀ ledgerErr, err ≠ .ledger ledgerErr)
        ∧ (answered = []
          ∨ answered
            = (successes (decisions batch e.ledger).1).map fun s => s.1.respondErr err)
        ∧ e.persist (successes (decisions batch e.ledger).1) io = ⟨.error err, answered, e⟩ := by
  cases encoded : encodeAll (acceptedLists batch e.ledger) with
  | ok recorded =>
      rcases appendBatch_repairs path options payloads repairs recorded with
        ⟨range, appended, accepts⟩ | ⟨walErr, failed⟩
      · rw [← wal] at appended
        exact .inl ⟨recorded, rfl, accepts, persist_appended encoded appended⟩
      · rw [← wal] at failed
        exact .inr ⟨.wal walErr.text, _, fun _ => IngestError.noConfusion, .inr rfl,
          persist_failed encoded failed⟩
  | error err =>
      exact .inr ⟨.codec err.text, [], fun _ => IngestError.noConfusion, .inl rfl,
        persist_unencoded encoded⟩

/-- The event lists encode to payloads that pass the log's size checks. -/
def Storable (options : WalOptions) (lists : List (List LedgerEvent)) : Prop :=
  ∃ recorded, encodeAll lists = .ok recorded ∧ Accepts options.maxRecordPayloadLen recorded

theorem persist_accepted (succeeds : io.Succeeds) {recorded : List Bytes}
    (encoded : encodeAll (acceptedLists batch e.ledger) = .ok recorded)
    (accepts : Accepts e.wal.options.maxRecordPayloadLen recorded)
    : e.persist (successes (decisions batch e.ledger).1) io
      = .persisted batch e.ledger (e.wal.appended recorded) :=
  persist_appended encoded (appendBatch_accepted accepts succeeds)

theorem persist_ok_storable
    (ok : (e.persist (successes (decisions batch e.ledger).1) io).result = .ok ())
    : Storable e.wal.options (acceptedLists batch e.ledger) := by
  cases encoded : encodeAll (acceptedLists batch e.ledger) with
  | ok recorded =>
      refine ⟨recorded, encoded, ?_⟩
      by_contra rejects
      obtain ⟨walErr, failed⟩ := appendBatch_rejected rejects io
      rw [persist_failed encoded failed] at ok
      cases ok
  | error err =>
      rw [persist_unencoded encoded] at ok
      cases ok

/-- With storable events, a call whose filesystem calls succeed reaches the decided ledger. -/
theorem processBatch_storable (succeeds : io.Succeeds)
    (storable : Storable e.wal.options (acceptedLists batch e.ledger))
    : (e.processBatch batch io).engine.ledger = (decisions batch e.ledger).2 := by
  obtain ⟨recorded, encoded, accepts⟩ := storable
  obtain ⟨refused, -, processed⟩ := processBatch_eq batch io e
  rw [processed, persist_accepted succeeds encoded accepts]
  rfl

/-- The entity is stored in the ledger. -/
def TargetEntity.Present (l : Ledger) : TargetEntity → Prop
  | .account id => l.accounts[id]?.isSome
  | .transfer id => l.transfers[id]?.isSome

theorem TargetEntity.Present.step {target : TargetEntity} (present : target.Present l)
    (step : l.Step event l')
    : target.Present l' := by
  cases target <;> cases step <;>
    simp_all [TargetEntity.Present, Ledger.logged, withTransfer, withMoved,
      withLegs, withBalance, Std.ExtTreeMap.contains_modify]

/-- The entity an event stores or settles. -/
def eventTarget : LedgerEvent → TargetEntity
  | .accountCreated id .. | .accountClosed id _ => .account id
  | .transferPosted t | .transferPendingCreated t => .transfer t.id
  | .transferPendingPosted _ postTransferId .. => .transfer postTransferId
  | .transferPendingVoided pendingId .. => .transfer pendingId

theorem eventTarget_present (step : l.Step event l') : (eventTarget event).Present l' := by
  cases step with
  | transferPendingPosted post =>
      -- the settlement is stored under the id the caller chose
      simp [eventTarget, TargetEntity.Present, Ledger.logged, withTransfer,
        post.settlement]
  | accountClosed _ found =>
      simp_all [eventTarget, TargetEntity.Present, Ledger.logged]
  | transferPendingVoided _ found =>
      simp_all [eventTarget, TargetEntity.Present, Ledger.logged, withMoved,
        withLegs, withBalance]
  | _ => simp [eventTarget, TargetEntity.Present, Ledger.logged, withTransfer]

theorem IngestOp.eventTarget_build {op : IngestOp} {ts : U64} {built : BatchOp}
    (builds : op.build ts = .ok built) (l : Ledger)
    : eventTarget (built.event l) = op.target := by
  rw [IngestOp.build_ok builds]
  cases op <;> rfl

/-- A single mutation's target is stored by its operations. -/
def Responder.Serves (ops : List BatchOp) : Responder → Prop
  | .single target _ => ∀ l l', applyOps ops l = some l' → target.Present l'
  | .batch .. => True

theorem IngestCommand.serves {command : IngestCommand} {convert : WatermarkM (List BatchOp)}
    {next : U64} (mutation : command.mutation? = some (responder, convert))
    (converted : convert watermark = .ok ops next)
    : responder.Serves ops := by
  cases command with
  | mutate timed respondTo =>
      cases mutation
      obtain ⟨built, mid, converts, returned⟩ := bind_run_ok.mp converted
      cases returned
      intro l l' ran
      obtain ⟨mid, first, last⟩ := opLog.execAll_cons_eq_some.mp ran
      cases last
      obtain ⟨ts, builds⟩ := TimedOp.intoBatchOp_ok converts
      rw [← IngestOp.eventTarget_build builds l]
      exact eventTarget_present (applyBatchOp_ok_iff.mp first)
  | applyBatch _ respondTo =>
      cases mutation
      trivial
  | getAccount => cases mutation
  | getTransfer => cases mutation

theorem convertAll_serves (member : (responder, .ok ops) ∈ (convertAll batch watermark).1)
    : responder.Serves ops := by
  obtain ⟨command, -, convert, reached, mutation, converted⟩ := mem_convertAll member
  cases ran : convert reached with
  | ok built next =>
      rw [ran] at converted
      cases converted
      exact command.serves mutation ran
  | error err next =>
      rw [ran] at converted
      cases converted

theorem respondOk_present {final : Ledger} (serves : responder.Serves ops)
    (applied : applyOps ops l = some l') (later : applyEvents events l' = some final)
    : (responder.respondOk final).2.error? = none := by
  cases responder with
  | batch count respondTo => rfl
  | single target respondTo =>
      have present : target.Present final :=
        applyEvents_preserves TargetEntity.Present.step (serves l l' applied) later
      cases target with
      | account id =>
          obtain ⟨account, found⟩ := Option.isSome_iff_exists.mp present
          simp only [Responder.respondOk, getAccount, okOr, found]
          rfl
      | transfer id =>
          obtain ⟨transfer, found⟩ := Option.isSome_iff_exists.mp present
          simp only [Responder.respondOk, getTransfer, okOr, found]
          rfl

theorem respondOk_accepted (member : (responder, events) ∈ successes (decisions batch l).1)
    : (responder.respondOk (decisions batch l).2).2.error? = none := by
  cases mem_decideAll (mem_successes.mp member) with
  | applied there applied later => exact respondOk_present (convertAll_serves there) applied later

end TrustLedger.Ingest
