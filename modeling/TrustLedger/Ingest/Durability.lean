import TrustLedger.Ingest.Persistence

/-! Disk and memory agree after every call: the ledger is the replay of the logged records, a
mutation answered with a success has its events in both, and a refused one in neither.
-/

namespace TrustLedger.Ingest

open Foundation LedgerCore WriteAheadLog

@[simp] theorem respondErr_sender (err : IngestError) (responder : Responder)
    : (responder.respondErr err).1 = responder.respondTo := by
  cases responder <;> rfl

@[simp] theorem respondErr_error (err : IngestError) (responder : Responder)
    : (responder.respondErr err).2.error? = some err := by
  cases responder <;> rfl

@[simp] theorem respondOk_sender (l : Ledger) (responder : Responder)
    : (responder.respondOk l).1 = responder.respondTo := by
  rcases responder with ⟨target, _⟩ | _
  · cases target <;> rfl
  · rfl

variable {command : IngestCommand} {batch : List IngestCommand} {l : Ledger} {before e : Engine}
  {refused : List (Sender × Reply)} {scale : Scale} {path : String} {options : WalOptions}
  {payloads : List Bytes}

theorem IngestCommand.answer_sender {query : QueryCommand} (asks : command.query? = some query)
    (l : Ledger)
    : (query.answer l).1 = command.respondTo := by
  cases command <;> cases asks <;> rfl

theorem IngestCommand.mutation?_sender {responder : Responder} {convert : WatermarkM (List BatchOp)}
    (mutation : command.mutation? = some (responder, convert))
    : responder.respondTo = command.respondTo := by
  cases command <;> cases mutation <;> rfl

theorem convertAll_senders (batch : List IngestCommand) (watermark : U64)
    : (convertAll batch watermark).1.map (fun c => c.1.respondTo)
      = (batch.filter fun c => c.mutation?.isSome).map IngestCommand.respondTo := by
  induction batch generalizing watermark with
  | nil => rfl
  | cons command rest ih =>
      simp only [convertAll]
      cases mutation : command.mutation? with
      | none => simp [mutation, ih]
      | some pair =>
          obtain ⟨responder, convert⟩ := pair
          have sender := IngestCommand.mutation?_sender mutation
          simp [mutation, ih, sender]

theorem decideAll_responders (converted : List Converted) (l : Ledger)
    : (decideAll converted l).1.map Prod.fst = converted.map Prod.fst := by
  induction converted generalizing l with
  | nil => rfl
  | cons head rest ih =>
      obtain ⟨responder, conversion⟩ := head
      cases conversion with
      | error err => simp [decideAll, ih]
      | ok ops =>
          simp only [decideAll]
          cases Ledger.opLog.attempt ops l <;> simp [ih]

theorem decisions_senders (batch : List IngestCommand) (l : Ledger)
    : (decisions batch l).1.map (fun d => d.1.respondTo)
      = (batch.filter fun c => c.mutation?.isSome).map IngestCommand.respondTo := by
  rw [← convertAll_senders batch l.lastTimestamp]
  have same := congrArg (List.map Responder.respondTo)
    (decideAll_responders (convertAll batch l.lastTimestamp).1 l)
  rwa [List.map_map, List.map_map] at same

theorem decisions_unique (distinct : (batch.map IngestCommand.respondTo).Nodup)
    {first second : Decision} (firstMember : first ∈ (decisions batch l).1)
    (secondMember : second ∈ (decisions batch l).1) (same : first.1.respondTo = second.1.respondTo)
    : first = second := by
  have nodup : ((decisions batch l).1.map fun d => d.1.respondTo).Nodup := by
    rw [decisions_senders]
    exact distinct.sublist (List.filter_sublist.map _)
  exact List.inj_on_of_nodup_map nodup firstMember secondMember same

theorem queryAnswers_sender (distinct : (batch.map IngestCommand.respondTo).Nodup)
    (member : command ∈ batch) (mutates : command.mutation?.isSome) {reply : Reply}
    {done : Processed}
    : (command.respondTo, reply) ∉ queryAnswers batch done := by
  intro answered
  unfold queryAnswers at answered
  split at answered
  · obtain ⟨query, asked, sent⟩ := List.mem_map.mp answered
    obtain ⟨other, otherMember, asks⟩ := List.mem_filterMap.mp asked
    have sender := IngestCommand.answer_sender asks done.engine.ledger
    rw [sent] at sender
    have same := List.inj_on_of_nodup_map distinct member otherMember sender
    subst same
    obtain ⟨mutation, asksMutation⟩ := Option.isSome_iff_exists.mp mutates
    rw [IngestCommand.query?_mutation asksMutation] at asks
    cases asks
  · cases answered

/-- The log is ready to append, and its records replay to the ledger in memory. -/
structure Engine.Synced (scale : Scale) (path : String) (options : WalOptions)
    (payloads : List Bytes) (e : Engine)
    : Prop where
  wal : e.wal = Wal.holding path options payloads
  fits : Fits options.maxRecordPayloadLen payloads
  replayed
    : ∃ lists, Records payloads lists ∧ Ledger.replay scale lists.flatten = .ok e.ledger

/-- What one call does: `recorded` are the mutations whose events it put into the log, as the
payloads `added`, and into the ledger. They are all the accepted ones, or none.
-/
structure CallRecords (batch : List IngestCommand) (before : Engine) (p : Processed)
    (recorded : List (Responder × List LedgerEvent)) (added : List Bytes)
    : Prop where
  group : recorded = [] ∨ recorded = successes (decisions batch before.ledger).1
  records : Records added (recorded.map Prod.snd)
  applied
    : Ledger.applyEvents (recorded.map Prod.snd).flatten before.ledger = some p.engine.ledger
  answeredOk
    : ∀ command ∈ batch, command.mutation?.isSome → ∀ reply,
        (command.respondTo, reply) ∈ p.replies → reply.error? = none
        → ∃ r ∈ recorded, r.1.respondTo = command.respondTo
  answeredErr
    : ∀ command ∈ batch, command.mutation?.isSome → ∀ reply err,
        (command.respondTo, reply) ∈ p.replies → reply.error? = some err
        → ∀ r ∈ recorded, r.1.respondTo ≠ command.respondTo
  committed : ∀ err, p.result ≠ .error (.ledger err)

theorem refusals_sender (distinct : (batch.map IngestCommand.respondTo).Nodup)
    {answer : Sender × Reply} (refused : answer ∈ refusals (decisions batch l).1)
    : (∃ err, answer.2.error? = some err)
      ∧ ∀ r ∈ successes (decisions batch l).1, r.1.respondTo ≠ answer.1 := by
  obtain ⟨⟨responder, err⟩, failed, rfl⟩ := List.mem_map.mp refused
  refine ⟨⟨err, respondErr_error err responder⟩, ?_⟩
  intro r accepted same
  rw [respondErr_sender] at same
  -- one channel, one verdict: it cannot be both accepted and refused
  have clash := decisions_unique distinct (mem_successes.mp accepted) (mem_failures.mp failed) same
  cases congrArg Prod.snd clash

theorem CallRecords.of_persisted {wal : Wal} {added : List Bytes}
    (distinct : (batch.map IngestCommand.respondTo).Nodup)
    (encoded : encodeAll (acceptedLists batch before.ledger) = .ok added)
    (permuted : refused.Perm (refusals (decisions batch before.ledger).1))
    : let persisted := Processed.persisted batch before.ledger wal
      CallRecords batch before
        { persisted with
          replies := refused ++ persisted.replies ++ queryAnswers batch persisted }
        (successes (decisions batch before.ledger).1) added where
  group := .inr rfl
  records := records_encodeAll encoded
  applied := applyEvents_acceptedLists batch before.ledger
  answeredOk command member mutates reply answered success := by
    rcases List.mem_append.mp answered with early | query
    · rcases List.mem_append.mp early with refusal | accepted
      · obtain ⟨⟨err, failed⟩, -⟩ := refusals_sender distinct (permuted.mem_iff.mp refusal)
        cases failed.symm.trans success
      · obtain ⟨r, there, sent⟩ := List.mem_map.mp accepted
        refine ⟨r, there, ?_⟩
        rw [← respondOk_sender (decisions batch before.ledger).2, sent]
    · exact absurd query (queryAnswers_sender distinct member mutates)
  answeredErr command member mutates reply err answered failure := by
    rcases List.mem_append.mp answered with early | query
    · rcases List.mem_append.mp early with refusal | accepted
      · exact (refusals_sender distinct (permuted.mem_iff.mp refusal)).2
      · obtain ⟨r, there, sent⟩ := List.mem_map.mp accepted
        have success := respondOk_accepted there
        rw [sent] at success
        cases success.symm.trans failure
    · exact absurd query (queryAnswers_sender distinct member mutates)
  committed err := by simp [Processed.persisted]

theorem CallRecords.of_failed {err : IngestError} {answered : List (Sender × Reply)}
    (notLedger : ∀ ledgerErr, err ≠ .ledger ledgerErr) (answers : answered = [] ∨ answered
      = (successes (decisions batch before.ledger).1).map fun s => s.1.respondErr err)
    (distinct : (batch.map IngestCommand.respondTo).Nodup)
    (permuted : refused.Perm (refusals (decisions batch before.ledger).1))
    : CallRecords batch before ⟨.error err, refused ++ answered ++ [], before⟩ [] [] where
  group := .inl rfl
  records := .nil
  applied := rfl
  answeredOk command member mutates reply sent success := by
    rw [List.append_nil] at sent
    rcases List.mem_append.mp sent with refusal | failed
    · obtain ⟨⟨err, failed⟩, -⟩ := refusals_sender distinct (permuted.mem_iff.mp refusal)
      cases failed.symm.trans success
    · rcases answers with rfl | rfl
      · cases failed
      · obtain ⟨r, there, same⟩ := List.mem_map.mp failed
        have failure := respondErr_error err r.1
        rw [same] at failure
        cases failure.symm.trans success
  answeredErr command member mutates reply err sent failure r there := by cases there
  committed ledgerErr same := notLedger ledgerErr (Except.error.inj same)

theorem Records.append {first second : List Bytes} {firsts seconds : List (List LedgerEvent)}
    (left : Records first firsts) (right : Records second seconds)
    : Records (first ++ second) (firsts ++ seconds) :=
  List.rel_append left right

/-- One call keeps disk and memory in agreement, and answers what it recorded. -/
theorem Engine.Synced.processBatch (synced : e.Synced scale path options payloads) {io : AppendIo}
    (repairs : io.Repairs) (batch : List IngestCommand)
    : ∃ recorded added,
        (e.processBatch batch io).engine.Synced scale path options (payloads ++ added)
        ∧ ((batch.map IngestCommand.respondTo).Nodup
          → CallRecords batch e (e.processBatch batch io) recorded added) := by
  obtain ⟨refused, permuted, processed⟩ := processBatch_eq batch io e
  rw [processed]
  rcases persist_outcome repairs synced.wal batch with
    ⟨added, encoded, accepts, outcome⟩ | ⟨err, answered, notLedger, answers, outcome⟩
  · rw [outcome]
    refine ⟨_, added, ?_, fun distinct => .of_persisted distinct encoded permuted⟩
    obtain ⟨lists, records, replayed⟩ := synced.replayed
    refine ⟨rfl, synced.fits.append accepts.within, _,
      records.append (records_encodeAll encoded), ?_⟩
    rw [List.flatten_append, Ledger.replay_ok_iff]
    exact Ledger.applyEvents_append (Ledger.replay_ok_iff.mp replayed)
      (applyEvents_acceptedLists batch e.ledger)
  · rw [outcome]
    refine ⟨[], [], ?_, fun distinct => .of_failed notLedger answers distinct permuted⟩
    rwa [List.append_nil]

/-- The engine after a run of calls, whatever each of them returned. -/
def Engine.afterCalls (calls : List MicroBatch) (e : Engine) : Engine :=
  calls.foldl (fun e call => (e.processBatch call.1 call.2).engine) e

theorem Engine.Synced.afterCalls (synced : e.Synced scale path options payloads)
    {calls : List MicroBatch} (repairs : ∀ call ∈ calls, call.2.Repairs)
    : ∃ added, (e.afterCalls calls).Synced scale path options (payloads ++ added) := by
  induction calls generalizing e payloads with
  | nil => exact ⟨[], by rwa [List.append_nil]⟩
  | cons call rest ih =>
      obtain ⟨-, first, mid, -⟩ := synced.processBatch (repairs call List.mem_cons_self) call.1
      obtain ⟨later, final⟩ :=
        ih mid fun other member => repairs other (List.mem_cons_of_mem _ member)
      exact ⟨first ++ later, by rwa [← List.append_assoc]⟩

/-- After every call of every run from a synchronized engine, each append free to succeed or
to fail and be taken back: the ledger is the replay of the logged records; the call recorded
all its accepted mutations or none, answered a success only to recorded and an error only to
unrecorded ones, and did not fail in its commit.
-/
theorem durable_agreement {scale : Scale} {path : String} {options : WalOptions}
    {payloads : List Bytes} {e : Engine} (synced : e.Synced scale path options payloads)
    {calls : List MicroBatch} (repairs : ∀ call ∈ calls, call.2.Repairs)
    {batch : List IngestCommand} {io : AppendIo} (repaired : io.Repairs)
    (distinct : (batch.map IngestCommand.respondTo).Nodup)
    : ∃ logged recorded added,
        (e.afterCalls calls).Synced scale path options logged
        ∧ ((e.afterCalls calls).processBatch batch io).engine.Synced scale path options
            (logged ++ added)
        ∧ CallRecords batch (e.afterCalls calls) ((e.afterCalls calls).processBatch batch io)
            recorded added := by
  obtain ⟨earlier, before⟩ := synced.afterCalls repairs
  obtain ⟨recorded, added, after, records⟩ := before.processBatch repaired batch
  exact ⟨_, recorded, added, before, after, records distinct⟩

/-- A new engine on an empty log. -/
def freshEngine : Engine :=
  ⟨.new ⟨2⟩, Wal.holding "ledger.wal" {} []⟩

/-- Two accounts are opened, and then a transfer is lost to a failed sync. -/
def openingCalls : List MicroBatch :=
  [([.mutate ⟨.createAccount ⟨1⟩ .asset {} ⟨2⟩ 5, 0⟩ ⟨0⟩,
      .mutate ⟨.createAccount ⟨2⟩ .liability {} ⟨2⟩ 0, 7⟩ ⟨1⟩], {}),
    ([.mutate ⟨.createTransfer ⟨9⟩ ⟨1⟩ ⟨2⟩ ⟨10⟩ 0, 8⟩ ⟨0⟩], { sync := some ⟨"disk"⟩ })]

/-- A transfer, one between an account and itself, one to an unknown account, and a query. -/
def mixedBatch : List IngestCommand :=
  [.mutate ⟨.createTransfer ⟨9⟩ ⟨1⟩ ⟨2⟩ ⟨10⟩ 0, 9⟩ ⟨0⟩,
    .mutate ⟨.createTransfer ⟨10⟩ ⟨1⟩ ⟨1⟩ ⟨10⟩ 0, 9⟩ ⟨1⟩,
    .mutate ⟨.createTransfer ⟨11⟩ ⟨1⟩ ⟨7⟩ ⟨10⟩ 0, 9⟩ ⟨2⟩,
    .getAccount ⟨2⟩ ⟨3⟩]

/-- Disk and memory agree after the mixed batch. -/
theorem durable_agreement_mixedBatch
    : ∃ logged recorded added,
        (freshEngine.afterCalls openingCalls).Synced ⟨2⟩ "ledger.wal" {} logged
        ∧ ((freshEngine.afterCalls openingCalls).processBatch mixedBatch {}).engine.Synced ⟨2⟩
            "ledger.wal" {} (logged ++ added)
        ∧ CallRecords mixedBatch (freshEngine.afterCalls openingCalls)
            ((freshEngine.afterCalls openingCalls).processBatch mixedBatch {}) recorded added := by
  have synced : freshEngine.Synced ⟨2⟩ "ledger.wal" {} [] :=
    ⟨rfl, ⟨by simp, by decide⟩, [], .nil, rfl⟩
  have repairs : ∀ call ∈ openingCalls, call.2.Repairs := by
    intro call member
    simp only [openingCalls, List.mem_cons, List.not_mem_nil, or_false] at member
    rcases member with rfl | rfl
    · exact .inl ⟨rfl, rfl⟩
    · exact .inr ⟨rfl, rfl⟩
  exact durable_agreement synced repairs (.inl ⟨rfl, rfl⟩) (by decide)

end TrustLedger.Ingest
