import TrustLedger.Ingest.Batching

/-! Event lists that exceed the log's record cap. The cap is checked by the group append, so
one of them fails the whole micro-batch and stops the engine.
-/

namespace TrustLedger.Ingest

open Foundation LedgerCore WriteAheadLog

/-- An accepted mutation whose events have no encoding within the cap. -/
def oversized (options : WalOptions) : Except IngestError (List LedgerEvent) → Bool
  | .error _ => false
  | .ok events =>
      match encodeEvents events with
      | .ok payload => options.maxRecordPayloadLen < payload.length
      | .error _ => true

/-- The commands of a micro-batch that are not oversized. -/
def withoutOversized (options : WalOptions) (batch : List IngestCommand) (l : Ledger)
    : List IngestCommand :=
  batch.filter fun command =>
    !(decisions batch l).1.any fun d =>
      d.1.respondTo = command.respondTo && oversized options d.2

/-- Oversized commands fail alone: the engine keeps running, only they are answered with a log
error, and all others are answered as if they were absent.
-/
structure OversizedFailAlone (batch : List IngestCommand) (io : AppendIo) (e : Engine)
    : Prop where
  running : (e.processBatch batch io).result = .ok ()
  onlyOversized
    : ∀ sender text, (e.processBatch batch io).Answers sender (some (.wal text))
      → ∃ d ∈ (decisions batch e.ledger).1,
          d.1.respondTo = sender ∧ oversized e.wal.options d.2
  others
    : ∀ command ∈ withoutOversized e.wal.options batch e.ledger, ∀ outcome,
        (e.processBatch batch io).Answers command.respondTo outcome
        ↔ (e.processBatch (withoutOversized e.wal.options batch e.ledger) io).Answers
            command.respondTo outcome

theorem encodeAll_mem {lists : List (List LedgerEvent)} {payloads : List Bytes}
    (encoded : encodeAll lists = .ok payloads) {events : List LedgerEvent} (member : events ∈ lists)
    : ∃ payload ∈ payloads, encodeEvents events = .ok payload := by
  induction lists generalizing payloads with
  | nil => cases member
  | cons head rest ih =>
      obtain ⟨payload, later, first, others, rfl⟩ := encodeAll_cons_eq_ok.mp encoded
      rcases List.mem_cons.mp member with rfl | there
      · exact ⟨payload, List.mem_cons_self, first⟩
      · obtain ⟨found, among, encodes⟩ := ih others there
        exact ⟨found, List.mem_cons_of_mem _ among, encodes⟩

variable {options : WalOptions} {batch : List IngestCommand} {l : Ledger} {watermark next : U64}
  {err : IngestError} {responder : Responder}

theorem Storable.not_oversized (storable : Storable options (acceptedLists batch l))
    {d : Decision} (member : d ∈ (decisions batch l).1)
    : oversized options d.2 = false := by
  obtain ⟨recorded, encoded, accepts⟩ := storable
  obtain ⟨responder, verdict⟩ := d
  cases verdict with
  | error err => rfl
  | ok events =>
      have accepted : events ∈ acceptedLists batch l :=
        List.mem_map.mpr ⟨_, mem_successes.mpr member, rfl⟩
      obtain ⟨payload, there, encodes⟩ := encodeAll_mem encoded accepted
      simp only [oversized, encodes, decide_eq_false_iff_not, Nat.not_lt]
      exact accepts.within payload there

theorem Storable.withoutOversized (storable : Storable options (acceptedLists batch l))
    : withoutOversized options batch l = batch := by
  apply List.filter_eq_self.mpr
  intro command _
  rw [Bool.not_eq_true', List.any_eq_false]
  intro d member both
  simp [storable.not_oversized member] at both

theorem TimedOp.intoBatchOp_error {timed : TimedOp}
    (failed : timed.intoBatchOp watermark = .error err next)
    : ∃ ledgerErr, err = .ledger ledgerErr := by
  unfold TimedOp.intoBatchOp at failed
  simp only at failed
  split at failed
  · cases failed
  · cases failed
    exact ⟨_, rfl⟩

theorem intoBatchOps_error {ops : List TimedOp}
    (failed : intoBatchOps ops watermark = .error err next)
    : ∃ ledgerErr, err = .ledger ledgerErr := by
  induction ops generalizing watermark with
  | nil => cases failed
  | cons timed rest ih =>
      rcases bind_run_error.mp failed with first | ⟨op, mid, -, later⟩
      · exact TimedOp.intoBatchOp_error first
      · rcases bind_run_error.mp later with others | ⟨built, mid, -, returned⟩
        · exact ih others
        · cases returned

theorem IngestCommand.convert_error {command : IngestCommand} {convert : WatermarkM (List BatchOp)}
    (mutation : command.mutation? = some (responder, convert))
    (failed : convert watermark = .error err next)
    : ∃ ledgerErr, err = .ledger ledgerErr := by
  cases command with
  | mutate timed respondTo =>
      cases mutation
      rcases bind_run_error.mp failed with first | ⟨op, mid, -, returned⟩
      · exact TimedOp.intoBatchOp_error first
      · cases returned
  | applyBatch ops respondTo =>
      cases mutation
      exact intoBatchOps_error failed
  | getAccount => cases mutation
  | getTransfer => cases mutation

theorem convertAll_error (member : (responder, .error err) ∈ (convertAll batch watermark).1)
    : ∃ ledgerErr, err = .ledger ledgerErr := by
  obtain ⟨command, -, convert, reached, mutation, converted⟩ := mem_convertAll member
  cases ran : convert reached with
  | ok built next =>
      rw [ran] at converted
      cases converted
  | error other next =>
      rw [ran] at converted
      cases converted
      exact command.convert_error mutation ran

theorem decisions_error (member : (responder, .error err) ∈ (decisions batch l).1)
    : ∃ ledgerErr, err = .ledger ledgerErr := by
  cases mem_decideAll member with
  | unconverted there => exact convertAll_error there
  | rejected => exact ⟨_, rfl⟩

theorem QueryCommand.answer_error {query : QueryCommand}
    (failed : (query.answer l).2.error? = some err)
    : ∃ ledgerErr, err = .ledger ledgerErr := by
  cases query with
  | getAccount id respondTo =>
      simp only [QueryCommand.answer] at failed
      cases found : l.getAccount id with
      | ok account =>
          rw [found] at failed
          cases failed
      | error ledgerErr =>
          rw [found] at failed
          cases failed
          exact ⟨ledgerErr, rfl⟩
  | getTransfer id respondTo =>
      simp only [QueryCommand.answer] at failed
      cases found : l.getTransfer id with
      | ok transfer =>
          rw [found] at failed
          cases failed
      | error ledgerErr =>
          rw [found] at failed
          cases failed
          exact ⟨ledgerErr, rfl⟩

theorem processBatch_ok_answers {io : AppendIo} {e : Engine} (succeeds : io.Succeeds)
    (storable : Storable e.wal.options (acceptedLists batch e.ledger))
    : (e.processBatch batch io).result = .ok ()
      ∧ ∀ sender err, (e.processBatch batch io).Answers sender (some err)
        → ∃ ledgerErr, err = .ledger ledgerErr := by
  obtain ⟨recorded, encoded, accepts⟩ := storable
  obtain ⟨refused, permuted, processed⟩ := processBatch_eq batch io e
  rw [persist_accepted succeeds encoded accepts] at processed
  rw [processed]
  refine ⟨rfl, ?_⟩
  rintro sender err ⟨reply, sent, failed⟩
  rcases List.mem_append.mp sent with early | asked
  · rcases List.mem_append.mp early with refusal | committed
    · obtain ⟨⟨responder, other⟩, there, answer⟩ :=
        List.mem_map.mp (permuted.mem_iff.mp refusal)
      change responder.respondErr other = _ at answer
      have error := respondErr_error other responder
      rw [answer, failed] at error
      cases error
      exact decisions_error (mem_failures.mp there)
    · obtain ⟨s, there, answer⟩ := List.mem_map.mp committed
      have success := respondOk_accepted there
      rw [answer, failed] at success
      cases success
  · obtain ⟨query, -, answer⟩ := List.mem_map.mp asked
    have error : ((sender, reply) : Sender × Reply).2.error? = some err := failed
    rw [← answer] at error
    exact QueryCommand.answer_error error

/-- With all filesystem calls succeeding, oversized commands fail alone exactly when there are
none: every accepted event list has to fit the cap, and the group a 64-bit length.
-/
theorem oversized_fail_alone_iff {io : AppendIo} (succeeds : io.Succeeds)
    (batch : List IngestCommand) (e : Engine)
    : OversizedFailAlone batch io e
      ↔ Storable e.wal.options (acceptedLists batch e.ledger) := by
  constructor
  · intro alone
    obtain ⟨refused, -, processed⟩ := processBatch_eq batch io e
    have running := alone.running
    rw [processed] at running
    exact persist_ok_storable running
  · intro storable
    obtain ⟨running, errors⟩ := processBatch_ok_answers succeeds storable
    refine ⟨running, fun sender text answered => ?_, fun command _ outcome => ?_⟩
    · obtain ⟨ledgerErr, clash⟩ := errors sender _ answered
      cases clash
    · rw [storable.withoutOversized]

/-- A new engine on an empty log that takes records of up to 16 bytes. -/
def narrowEngine : Engine :=
  ⟨.new ⟨2⟩, Wal.holding "ledger.wal" { maxRecordPayloadLen := 16 } []⟩

/-- A small command, and a batch whose record has 17 bytes. -/
def wideBatch : List IngestCommand :=
  [.mutate ⟨.createAccount ⟨1⟩ .asset {} ⟨2⟩ 5, 0⟩ ⟨0⟩,
    .applyBatch
      [⟨.createAccount ⟨2⟩ .asset {} ⟨2⟩ 7, 0⟩, ⟨.createAccount ⟨3⟩ .asset {} ⟨2⟩ 7, 0⟩] ⟨1⟩]

/-- The oversized batch stops the engine, and the small command fails with it. -/
theorem oversized_command_fails_group : ¬ OversizedFailAlone wideBatch {} narrowEngine := by
  intro alone
  have stopped : (narrowEngine.processBatch wideBatch {}).result
      = .error (.wal "payload of 17 bytes exceeds the maximum record length of 16 bytes") := by
    decide +kernel
  cases stopped.symm.trans alone.running

/-- On its own, the small command fits. -/
theorem oversized_fail_alone_small : OversizedFailAlone (wideBatch.take 1) {} narrowEngine := by
  have storable : Storable narrowEngine.wal.options
      (acceptedLists (wideBatch.take 1) narrowEngine.ledger) :=
    ⟨[[1, 0, 1, 0, 0, 0, 0, 2, 5]], by decide +kernel, by decide⟩
  exact (oversized_fail_alone_iff ⟨rfl, rfl⟩ (wideBatch.take 1) narrowEngine).mpr storable

end TrustLedger.Ingest
