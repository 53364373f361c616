import TrustLedger.Ingest.Durability
import TrustLedger.Ingest.Watermark

/-! Micro-batching is transparent for mutations with caller-chosen timestamps: wherever the
sequence is cut, the ledger, the log and every verdict are those of one command at a time.
-/

namespace TrustLedger.Ingest

open Foundation LedgerCore WriteAheadLog

/-- A mutation whose operations all carry a timestamp. -/
structure IngestCommand.Stamped (command : IngestCommand) : Prop where
  mutates : command.mutation?.isSome
  stamped : ∀ timed ∈ command.ops, timed.op.timestamp ≠ 0

theorem convertAll_stamped {commands : List IngestCommand}
    (stamped : ∀ c ∈ commands, c.Stamped) (left right : U64)
    : (convertAll commands left).1 = (convertAll commands right).1 :=
  convertAll_respects
    (fun c member timed there =>
      TimedOp.intoBatchOp_stamped ((stamped c member).stamped timed there))
    trivial

variable {left right batch : List IngestCommand} {sender : Sender} {outcome : Option IngestError}
  {path : String} {options : WalOptions} {payloads recorded : List Bytes} {e : Engine}

theorem decisions_stamped (stamped : ∀ c ∈ right, c.Stamped) (l : Ledger)
    : decisions (left ++ right) l
      = ((decisions left l).1 ++ (decisions right (decisions left l).2).1,
        (decisions right (decisions left l).2).2) := by
  rw [decisions_append,
    convertAll_stamped stamped _ (decisions left l).2.lastTimestamp, ← decisions]

theorem acceptedLists_append (stamped : ∀ c ∈ right, c.Stamped) (l : Ledger)
    : acceptedLists (left ++ right) l
      = acceptedLists left l ++ acceptedLists right (decisions left l).2 := by
  simp only [acceptedLists, decisions_stamped stamped, successes_append, List.map_append]

/-- A reply with this outcome, an error or none, was sent on a channel. -/
def Processed.Answers (p : Processed) (sender : Sender) (outcome : Option IngestError) : Prop :=
  ∃ reply, (sender, reply) ∈ p.replies ∧ reply.error? = outcome

/-- The error of a verdict, if it is one. -/
def refusal? {β : Type} : Except IngestError β → Option IngestError
  | .ok _ => none
  | .error err => some err

/-- The outcome a list of verdicts has for a channel. -/
def Verdict (decided : List Decision) (sender : Sender) (outcome : Option IngestError) : Prop :=
  ∃ d ∈ decided, d.1.respondTo = sender ∧ refusal? d.2 = outcome

theorem verdict_append {left right : List Decision}
    : Verdict (left ++ right) sender outcome
      ↔ Verdict left sender outcome ∨ Verdict right sender outcome := by
  simp only [Verdict, List.mem_append, or_and_right, exists_or]

/-- The answers to refused and to committed mutations are their verdicts. -/
theorem verdict_iff_answers {l : Ledger}
    : Verdict (decisions batch l).1 sender outcome
      ↔ ∃ reply,
          ((sender, reply) ∈ refusals (decisions batch l).1
            ∨ (sender, reply)
              ∈ (successes (decisions batch l).1).map fun s => s.1.respondOk (decisions batch l).2)
          ∧ reply.error? = outcome := by
  constructor
  · rintro ⟨⟨responder, verdict⟩, member, rfl, rfl⟩
    cases verdict with
    | error err =>
        refine ⟨(responder.respondErr err).2, .inl ?_, respondErr_error err responder⟩
        refine List.mem_map.mpr ⟨(responder, err), mem_failures.mpr member, ?_⟩
        rw [← respondErr_sender err responder]
    | ok events =>
        have accepted := mem_successes.mpr member
        refine ⟨(responder.respondOk (decisions batch l).2).2, .inr ?_,
          respondOk_accepted accepted⟩
        refine List.mem_map.mpr ⟨(responder, events), accepted, ?_⟩
        rw [← respondOk_sender (decisions batch l).2 responder]
  · rintro ⟨reply, refused | committed, rfl⟩
    · obtain ⟨⟨responder, err⟩, failed, sent⟩ := List.mem_map.mp refused
      change responder.respondErr err = _ at sent
      have sender' := respondErr_sender err responder
      have error := respondErr_error err responder
      rw [sent] at sender' error
      exact ⟨_, mem_failures.mp failed, sender'.symm, error.symm⟩
    · obtain ⟨⟨responder, events⟩, accepted, sent⟩ := List.mem_map.mp committed
      have sender' := respondOk_sender (decisions batch l).2 responder
      have success := respondOk_accepted accepted
      rw [sent] at sender' success
      exact ⟨_, mem_successes.mp accepted, sender'.symm, success.symm⟩

theorem queryAnswers_stamped (stamped : ∀ c ∈ batch, c.Stamped) (done : Processed)
    : queryAnswers batch done = [] := by
  have none_asked : batch.filterMap IngestCommand.query? = [] := by
    rw [List.filterMap_eq_nil_iff]
    intro command member
    obtain ⟨mutation, asks⟩ := Option.isSome_iff_exists.mp (stamped command member).mutates
    exact IngestCommand.query?_mutation asks
  unfold queryAnswers
  split
  · rw [none_asked, List.map_nil]
  · rfl

/-- A successful call on stamped commands: it records the accepted ones, reaches the decided
ledger, and answers every verdict.
-/
theorem processBatch_stamped {io : AppendIo} (succeeds : io.Succeeds)
    (wal : e.wal = Wal.holding path options payloads) (stamped : ∀ c ∈ batch, c.Stamped)
    (encoded : encodeAll (acceptedLists batch e.ledger) = .ok recorded)
    (accepts : Accepts options.maxRecordPayloadLen recorded)
    : (e.processBatch batch io).result = .ok ()
      ∧ (e.processBatch batch io).engine
        = ⟨(decisions batch e.ledger).2, Wal.holding path options (payloads ++ recorded)⟩
      ∧ ∀ sender outcome, (e.processBatch batch io).Answers sender outcome
        ↔ Verdict (decisions batch e.ledger).1 sender outcome := by
  obtain ⟨refused, permuted, processed⟩ := processBatch_eq batch io e
  have accepted : Accepts e.wal.options.maxRecordPayloadLen recorded := by rwa [wal]
  rw [persist_accepted succeeds encoded accepted, queryAnswers_stamped stamped, wal,
    Wal.appended_holding] at processed
  rw [processed]
  refine ⟨rfl, rfl, fun sender outcome => ?_⟩
  rw [verdict_iff_answers]
  simp only [Processed.Answers, List.append_nil, List.mem_append, permuted.mem_iff,
    Processed.persisted]

/-- Micro-batches of stamped commands, run in order: only the whole sequence matters. -/
theorem run_stamped {micro : List MicroBatch} (succeed : ∀ call ∈ micro, call.2.Succeeds)
    (stamped : ∀ c ∈ (micro.map Prod.fst).flatten, c.Stamped)
    (wal : e.wal = Wal.holding path options payloads)
    (encoded : encodeAll (acceptedLists (micro.map Prod.fst).flatten e.ledger) = .ok recorded)
    (accepts : Accepts options.maxRecordPayloadLen recorded)
    : (e.run micro).result = .ok ()
      ∧ (e.run micro).engine
        = ⟨(decisions (micro.map Prod.fst).flatten e.ledger).2,
          Wal.holding path options (payloads ++ recorded)⟩
      ∧ ∀ sender outcome, (e.run micro).Answers sender outcome
        ↔ Verdict (decisions (micro.map Prod.fst).flatten e.ledger).1 sender outcome := by
  induction micro generalizing e payloads recorded with
  | nil =>
      cases encoded
      refine ⟨rfl, ?_, fun sender outcome => ?_⟩
      · rw [List.append_nil, ← wal]
        rfl
      · simp [Engine.run, Processed.Answers, Verdict, decisions, convertAll, decideAll]
  | cons call rest ih =>
      obtain ⟨batch, io⟩ := call
      simp only [List.map_cons, List.flatten_cons] at stamped encoded ⊢
      have first : ∀ c ∈ batch, c.Stamped := fun c there =>
        stamped c (List.mem_append_left _ there)
      have later : ∀ c ∈ (rest.map Prod.fst).flatten, c.Stamped := fun c there =>
        stamped c (List.mem_append_right _ there)
      rw [acceptedLists_append later] at encoded
      obtain ⟨left, right, encodedLeft, encodedRight, rfl⟩ := encodeAll_append.mp encoded
      -- a group that passes the size checks passes them cut in two
      have total := accepts.total
      rw [framedLen_append] at total
      have acceptsLeft : Accepts options.maxRecordPayloadLen left :=
        ⟨fun p there => accepts.within p (List.mem_append_left _ there), by omega⟩
      have acceptsRight : Accepts options.maxRecordPayloadLen right :=
        ⟨fun p there => accepts.within p (List.mem_append_right _ there), by omega⟩
      obtain ⟨ok, engine, answers⟩ :=
        processBatch_stamped (succeed _ List.mem_cons_self) wal first encodedLeft acceptsLeft
      obtain ⟨okRest, engineRest, answersRest⟩ :=
        ih (fun other there => succeed other (List.mem_cons_of_mem _ there)) later
          (e := ⟨(decisions batch e.ledger).2, Wal.holding path options (payloads ++ left)⟩) rfl
          encodedRight acceptsRight
      simp only [Engine.run, ok, engine, decisions_stamped later]
      refine ⟨okRest, by rw [engineRest, List.append_assoc], fun sender outcome => ?_⟩
      rw [verdict_append, ← answers, ← answersRest]
      simp only [Processed.Answers, List.mem_append, or_and_right, exists_or]

/-- Wherever a sequence of stamped commands is cut into micro-batches, with appends that
succeed and payloads within the cap: the engine reached, with its ledger and its log, and the
outcome of every command are those of processing one command at a time.
-/
theorem batching_transparent {path : String} {options : WalOptions} {payloads : List Bytes}
    {e : Engine} (wal : e.wal = Wal.holding path options payloads) {commands : List IngestCommand}
    (stamped : ∀ c ∈ commands, c.Stamped) {recorded : List Bytes}
    (encoded : encodeAll (acceptedLists commands e.ledger) = .ok recorded)
    (accepts : Accepts options.maxRecordPayloadLen recorded) {micro : List MicroBatch}
    (split : (micro.map Prod.fst).flatten = commands) (succeed : ∀ call ∈ micro, call.2.Succeeds)
    : let batched := e.run micro
      let single := e.run (commands.map fun c => ([c], {}))
      batched.result = .ok () ∧ single.result = .ok ()
        ∧ batched.engine = single.engine
        ∧ batched.engine.wal = Wal.holding path options (payloads ++ recorded)
        ∧ ∀ sender outcome, batched.Answers sender outcome ↔ single.Answers sender outcome := by
  have alone : ((commands.map fun c => ([c], ({} : AppendIo))).map Prod.fst).flatten
      = commands := by
    rw [List.map_map, ← List.flatMap_def]
    exact List.flatMap_singleton' commands
  subst split
  obtain ⟨ok, engine, answers⟩ := run_stamped succeed stamped wal encoded accepts
  generalize (micro.map Prod.fst).flatten = commands at *
  have succeedAlone : ∀ call ∈ commands.map fun c => ([c], ({} : AppendIo)),
      call.2.Succeeds := by
    intro call there
    obtain ⟨c, -, rfl⟩ := List.mem_map.mp there
    exact ⟨rfl, rfl⟩
  obtain ⟨okAlone, engineAlone, answersAlone⟩ :=
    run_stamped succeedAlone (by rwa [alone]) wal (by rwa [alone]) accepts
  rw [alone] at engineAlone answersAlone
  refine ⟨ok, okAlone, engine.trans engineAlone.symm, by rw [engine], fun sender outcome => ?_⟩
  rw [answers, answersAlone]

/-- An account, a batch with another account and a transfer, and a transfer to an unknown
account.
-/
def stampedCommands : List IngestCommand :=
  [.mutate ⟨.createAccount ⟨1⟩ .asset {} ⟨2⟩ 5, 0⟩ ⟨0⟩,
    .applyBatch
      [⟨.createAccount ⟨2⟩ .liability {} ⟨2⟩ 6, 0⟩, ⟨.createTransfer ⟨9⟩ ⟨1⟩ ⟨2⟩ ⟨300⟩ 6, 0⟩] ⟨1⟩,
    .mutate ⟨.createTransfer ⟨10⟩ ⟨1⟩ ⟨7⟩ ⟨300⟩ 9, 0⟩ ⟨2⟩]

/-- Cut after the second command, the sequence runs as it does one command at a time. -/
theorem batching_transparent_stampedCommands
    : (freshEngine.run [(stampedCommands.take 2, {}), (stampedCommands.drop 2, {})]).engine
      = (freshEngine.run (stampedCommands.map fun c => ([c], {}))).engine := by
  have stamped : ∀ c ∈ stampedCommands, c.Stamped := by
    intro c member
    simp only [stampedCommands, List.mem_cons, List.not_mem_nil, or_false] at member
    rcases member with rfl | rfl | rfl
    · exact ⟨rfl, by decide⟩
    · exact ⟨rfl, by decide⟩
    · exact ⟨rfl, by decide⟩
  have encoded : encodeAll (acceptedLists stampedCommands freshEngine.ledger)
      = .ok [[1, 0, 1, 0, 0, 0, 0, 2, 5],
          [2, 0, 2, 1, 0, 0, 0, 2, 6, 2, 9, 1, 2, 172, 2, 1, 0, 6]] := by
    decide +kernel
  have succeed : ∀ call ∈ [(stampedCommands.take 2, {}), (stampedCommands.drop 2, {})],
      AppendIo.Succeeds call.2 := by
    intro call member
    simp only [List.mem_cons, List.not_mem_nil, or_false] at member
    rcases member with rfl | rfl
    · exact ⟨rfl, rfl⟩
    · exact ⟨rfl, rfl⟩
  have wal : freshEngine.wal = Wal.holding "ledger.wal" {} [] := rfl
  exact (batching_transparent wal stamped encoded (by decide) rfl succeed).2.2.1

end TrustLedger.Ingest
