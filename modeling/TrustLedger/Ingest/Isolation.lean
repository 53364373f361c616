import TrustLedger.Ingest.Batching

/-! What a refused command leaves behind for the commands after it: nothing but the watermark.
It influences them exactly when it moves the next timestamp the engine can choose.
-/

namespace TrustLedger.Ingest

open Foundation LedgerCore WriteAheadLog

/-- Behind the commands before it, a command is refused by its conversion or by the ledger. -/
def Refused (before : List IngestCommand) (command : IngestCommand) (l : Ledger) : Prop :=
  ∃ responder err,
    (decisions (before ++ [command]) l).1 = (decisions before l).1 ++ [(responder, .error err)]

/-- Without the command, the engine returns and reaches the same, and every other command gets
the same replies.
-/
structure Isolated (before : List IngestCommand) (command : IngestCommand)
    (after : List IngestCommand) (io : AppendIo) (e : Engine)
    : Prop where
  result
    : (e.processBatch (before ++ command :: after) io).result
      = (e.processBatch (before ++ after) io).result
  engine
    : (e.processBatch (before ++ command :: after) io).engine
      = (e.processBatch (before ++ after) io).engine
  replies
    : ∀ sender, sender ≠ command.respondTo → ∀ reply,
        (sender, reply) ∈ (e.processBatch (before ++ command :: after) io).replies
        ↔ (sender, reply) ∈ (e.processBatch (before ++ after) io).replies

namespace Refused

variable {before : List IngestCommand} {command : IngestCommand} {l : Ledger}

theorem ledger (refused : Refused before command l)
    : (decisions (before ++ [command]) l).2 = (decisions before l).2 := by
  obtain ⟨responder, err, verdicts⟩ := refused
  rw [decisions_append] at verdicts ⊢
  have own := List.append_cancel_left verdicts
  have applied := applyEvents_decideAll
    (convertAll [command] (convertAll before l.lastTimestamp).2).1 (decisions before l).2
  rw [own] at applied
  exact (Option.some_inj.mp applied).symm

theorem sender (refused : Refused before command l)
    : ∃ responder err, responder.respondTo = command.respondTo
        ∧ command.query? = none
        ∧ (decisions (before ++ [command]) l).1
          = (decisions before l).1 ++ [(responder, .error err)] := by
  obtain ⟨responder, err, verdicts⟩ := refused
  have senders := congrArg (List.map fun d => d.1.respondTo) verdicts
  rw [List.map_append, decisions_senders, decisions_senders, List.filter_append,
    List.map_append] at senders
  have own := List.append_cancel_left senders
  cases mutation : command.mutation? with
  | none => simp [mutation] at own
  | some pair =>
      simp only [mutation, List.filter_cons, List.filter_nil, Option.isSome_some, if_true,
        List.map_cons, List.map_nil, List.cons.injEq, and_true] at own
      exact ⟨responder, err, own.symm, IngestCommand.query?_mutation mutation, verdicts⟩

theorem decisions_eq (refused : Refused before command l) (after : List IngestCommand)
    : ∃ responder err, responder.respondTo = command.respondTo
        ∧ decisions (before ++ command :: after) l
          = ((decisions before l).1 ++ [(responder, .error err)]
              ++ (decideAll
                (convertAll after (convertAll (before ++ [command]) l.lastTimestamp).2).1
                (decisions before l).2).1,
            (decideAll
              (convertAll after (convertAll (before ++ [command]) l.lastTimestamp).2).1
              (decisions before l).2).2) := by
  obtain ⟨responder, err, sender, -, verdicts⟩ := refused.sender
  refine ⟨responder, err, sender, ?_⟩
  rw [List.append_cons, decisions_append, refused.ledger, verdicts]

/-- If the commands after it convert alike without it, a refused command is isolated. -/
theorem isolated_of_convertAll {e : Engine} (refused : Refused before command e.ledger)
    {after : List IngestCommand}
    (same : (convertAll after (convertAll (before ++ [command]) e.ledger.lastTimestamp).2).1
      = (convertAll after (convertAll before e.ledger.lastTimestamp).2).1) (io : AppendIo)
    : Isolated before command after io e := by
  obtain ⟨responder, err, sender, decided⟩ := refused.decisions_eq after
  obtain ⟨-, -, -, notQuery, -⟩ := refused.sender
  have without := decisions_append before after e.ledger
  rw [same] at decided
  have accepted : successes (decisions (before ++ command :: after) e.ledger).1
      = successes (decisions (before ++ after) e.ledger).1 := by
    rw [decided, without]
    simp only [successes_append, successes, List.append_nil]
  have queries : ∀ done, queryAnswers (before ++ command :: after) done
      = queryAnswers (before ++ after) done := by
    intro done
    simp only [queryAnswers, List.filterMap_append, List.filterMap_cons_none notQuery]
  obtain ⟨refusedWith, permutedWith, processedWith⟩ :=
    processBatch_eq (before ++ command :: after) io e
  obtain ⟨refusedWithout, permutedWithout, processedWithout⟩ :=
    processBatch_eq (before ++ after) io e
  rw [accepted] at processedWith
  refine ⟨by rw [processedWith, processedWithout], by rw [processedWith, processedWithout], ?_⟩
  intro other elsewhere reply
  have refusals_iff : (other, reply) ∈ refusedWith ↔ (other, reply) ∈ refusedWithout := by
    rw [permutedWith.mem_iff, permutedWithout.mem_iff, decided, without]
    have notOwn : (other, reply) ≠ responder.respondErr err := by
      intro own
      apply elsewhere
      rw [← sender, ← respondErr_sender err responder, ← own]
    simp only [refusals, failures_append, failures, List.map_append, List.map_cons,
      List.map_nil, List.mem_append, List.mem_singleton, notOwn, or_false]
  rw [processedWith, processedWithout, queries]
  simp only [List.mem_append, refusals_iff]

end Refused

/-- A command leaves the next timestamp alone: the watermark has run out, or the operations a
conversion looks at carry timestamps that are not ahead of it.
-/
def Quiet (command : IngestCommand) (watermark : U64) : Prop :=
  2 ^ 64 - 2 ≤ watermark.val
    ∨ ∀ timed ∈ upToInvalid command.ops,
        timed.op.timestamp ≠ 0 ∧ timed.op.timestamp ≤ watermark

theorem quiet_iff (before : List IngestCommand) (command : IngestCommand) (l : Ledger)
    : Quiet command (watermarkAfter before l)
      ↔ nextStamp (convertAll (before ++ [command]) l.lastTimestamp).2
        = nextStamp (convertAll before l.lastTimestamp).2 := by
  rw [convertAll_advance, convertAll_advance, List.flatMap_append, List.foldl_append,
    List.flatMap_singleton, nextStamp_foldl_advance]
  rfl

/-- A refused command that is quiet is isolated in every micro-batch. -/
theorem Refused.isolated_of_quiet {before : List IngestCommand} {command : IngestCommand}
    {e : Engine} (refused : Refused before command e.ledger)
    (quiet : Quiet command (watermarkAfter before e.ledger)) (after : List IngestCommand)
    (io : AppendIo)
    : Isolated before command after io e :=
  refused.isolated_of_convertAll
    (convertAll_respects (fun _ _ timed _ => timed.intoBatchOp_nextStamp)
      ((quiet_iff before command e.ledger).mp quiet))
    io

/-- Open an account at a timestamp the engine chooses, with the clock at zero. -/
def openAccount (id : AccountId) (scale : Scale) : IngestCommand :=
  .mutate ⟨.createAccount id .asset {} scale 0, 0⟩ ⟨0⟩

theorem convertAll_openAccount (id : AccountId) (scale : Scale) (watermark : U64)
    : (convertAll [openAccount id scale] watermark).1
      = [(.single (.account id) ⟨0⟩,
          .ok [.createAccount id .asset {} scale (nextStamp watermark)])] := by
  have chosen : max 0 (saturatingAdd watermark 1) = nextStamp watermark :=
    max_eq_right (Fin.zero_le _)
  have converted : TimedOp.intoBatchOp ⟨.createAccount id .asset {} scale 0, 0⟩ watermark
      = .ok (.createAccount id .asset {} scale (nextStamp watermark)) (nextStamp watermark) := by
    simp only [TimedOp.intoBatchOp, IngestOp.timestamp, allocateTimestamp_zero, chosen]
    rfl
  simp only [convertAll, openAccount, IngestCommand.mutation?, bind_run_of_ok converted]
  rfl

theorem decideAll_openAccount {l : Ledger} {id : AccountId} {ts : U64}
    (unused : l.accounts[id]? = none) (inOrder : l.lastTimestamp ≤ ts) (responder : Responder)
    : ∃ l', l'.lastTimestamp = ts
        ∧ decideAll [(responder, .ok [.createAccount id .asset {} l.scale ts])] l
          = ([(responder, .ok [.accountCreated id .asset {} l.scale ts])], l') := by
  have step : l.Step (.accountCreated id .asset {} l.scale ts) _ :=
    .accountCreated inOrder unused
  have accepted : Ledger.applyBatchOp (.createAccount id .asset {} l.scale ts) l = .ok () _ :=
    Ledger.applyBatchOp_ok_iff.mpr step
  have ran : Ledger.applyOps [.createAccount id .asset {} l.scale ts] l = some _ :=
    Ledger.opLog.execAll_cons_eq_some.mpr ⟨_, accepted, rfl⟩
  refine ⟨_, step_lastTimestamp step, ?_⟩
  simp only [decideAll, Ledger.attempt_ops.mpr ran, step.journal, List.drop_left]

/-- The event lists can be stored together with one more record of up to `size` bytes. -/
def RoomFor (options : WalOptions) (size : Nat) (lists : List (List LedgerEvent)) : Prop :=
  size ≤ options.maxRecordPayloadLen
    ∧ ∃ recorded, encodeAll lists = .ok recorded
      ∧ (∀ payload ∈ recorded, payload.length ≤ options.maxRecordPayloadLen)
      ∧ framedLen recorded + frameLen size < 2 ^ 64

theorem RoomFor.storable {options : WalOptions} {size : Nat} {lists : List (List LedgerEvent)}
    (room : RoomFor options size lists) {events : List LedgerEvent} {payload : Bytes}
    (encoded : encodeEvents events = .ok payload) (small : payload.length ≤ size)
    : Storable options (lists ++ [events]) := by
  obtain ⟨cap, recorded, others, within, total⟩ := room
  refine ⟨recorded ++ [payload],
    encodeAll_append.mpr ⟨recorded, [payload], others, ?_, rfl⟩, ?_, ?_⟩
  · exact encodeAll_cons_eq_ok.mpr ⟨payload, [], encoded, rfl, rfl⟩
  · intro other there
    rcases List.mem_append.mp there with early | last
    · exact within other early
    · rw [List.mem_singleton.mp last]
      exact Nat.le_trans small cap
  · rw [framedLen_append]
    simp only [framedLen, List.map_cons, List.map_nil, List.sum_cons, List.sum_nil, frameLen]
      at total ⊢
    omega

theorem lastTimestamp_openAccount {e : Engine} {batch : List IngestCommand} {l : Ledger}
    {watermark : U64} {id : AccountId} {decided : List Decision} (split : decisions batch e.ledger
      = (decided ++ (decideAll (convertAll [openAccount id l.scale] watermark).1 l).1,
        (decideAll (convertAll [openAccount id l.scale] watermark).1 l).2))
    (room : RoomFor e.wal.options 64 ((successes decided).map Prod.snd))
    (unused : l.accounts[id]? = none) (ahead : l.lastTimestamp ≤ watermark)
    : (e.processBatch batch {}).engine.ledger.lastTimestamp = nextStamp watermark := by
  have inOrder := le_trans ahead (le_nextStamp watermark)
  obtain ⟨l', reached, opened⟩ :=
    decideAll_openAccount unused inOrder (.single (.account id) ⟨0⟩)
  rw [convertAll_openAccount, opened] at split
  obtain ⟨payload, encoded, small⟩ :=
    encodeEvents_accountCreated id .asset {} l.scale (nextStamp watermark)
  have storable : Storable e.wal.options (acceptedLists batch e.ledger) := by
    rw [acceptedLists, split, successes_append, List.map_append]
    exact room.storable encoded small
  rw [processBatch_storable ⟨rfl, rfl⟩ storable, split, reached]

/-- A quiet refused command is isolated, whatever follows it in the micro-batch; and where the
log has room for another small record and some account id is unused, only a quiet one is.
-/
theorem refused_isolated_iff {before : List IngestCommand} {command : IngestCommand}
    {e : Engine} (refused : Refused before command e.ledger)
    : (Quiet command (watermarkAfter before e.ledger)
        → ∀ after io, Isolated before command after io e)
      ∧ (RoomFor e.wal.options 64 (acceptedLists before e.ledger)
        → (∃ id : AccountId, (decisions before e.ledger).2.accounts[id]? = none)
        → ((∀ after io, Isolated before command after io e)
          ↔ Quiet command (watermarkAfter before e.ledger))) := by
  refine ⟨refused.isolated_of_quiet, fun room ⟨id, unused⟩ => ?_⟩
  refine ⟨fun isolated => ?_, refused.isolated_of_quiet⟩
  have ahead : (decisions before e.ledger).2.lastTimestamp
      ≤ (convertAll before e.ledger.lastTimestamp).2 :=
    lastTimestamp_le_watermark le_rfl
  have behind : (decisions before e.ledger).2.lastTimestamp
      ≤ (convertAll (before ++ [command]) e.ledger.lastTimestamp).2 := by
    rw [← refused.ledger]
    exact lastTimestamp_le_watermark le_rfl
  -- an account opened behind the command records the next timestamp, with and without it
  have same := (isolated [openAccount id (decisions before e.ledger).2.scale] {}).engine
  obtain ⟨responder, err, -, decided⟩ :=
    refused.decisions_eq [openAccount id (decisions before e.ledger).2.scale]
  have accepted : (successes ((decisions before e.ledger).1 ++ [(responder, .error err)])).map
      Prod.snd = acceptedLists before e.ledger := by
    simp only [successes_append, successes, List.append_nil, acceptedLists]
  have withCommand :=
    lastTimestamp_openAccount decided (by rwa [accepted]) unused behind
  have withoutCommand :=
    lastTimestamp_openAccount (decisions_append before _ e.ledger) room unused ahead
  rw [quiet_iff, ← withCommand, ← withoutCommand, same]

/-- A transfer between an account and itself, at a chosen timestamp. -/
def selfTransfer (timestamp : U64) : IngestCommand :=
  .mutate ⟨.createTransfer ⟨1⟩ ⟨1⟩ ⟨1⟩ ⟨5⟩ timestamp, 0⟩ ⟨1⟩

/-- Two other clients open accounts, the first at a timestamp the engine chooses. -/
def otherClients : List IngestCommand :=
  [.mutate ⟨.createAccount ⟨1⟩ .asset {} ⟨2⟩ 0, 5⟩ ⟨2⟩,
    .mutate ⟨.createAccount ⟨2⟩ .asset {} ⟨2⟩ 9, 0⟩ ⟨3⟩]

/-- A refused transfer with a far timestamp pushes the first account to that timestamp, and
the second client, who would have been in order, is refused.
-/
theorem refused_command_moves_others
    : Refused [] (selfTransfer 1000000) freshEngine.ledger
      ∧ (freshEngine.processBatch otherClients {}).Answers ⟨3⟩ none
      ∧ (freshEngine.processBatch (selfTransfer 1000000 :: otherClients) {}).Answers ⟨3⟩
          (some (.ledger (.timestampBehindPrior 9 1000001)))
      ∧ ¬ Isolated [] (selfTransfer 1000000) otherClients {} freshEngine := by
  refine ⟨⟨_, _, rfl⟩, ?_, ?_, fun isolated => ?_⟩
  · exact ⟨.mutation (.ok (.account (.new ⟨2⟩ .asset {} ⟨2⟩))), by decide +kernel, rfl⟩
  · exact ⟨.mutation (.error (.ledger (.timestampBehindPrior 9 1000001))), by decide +kernel, rfl⟩
  · have same := congrArg (fun e => e.ledger.lastTimestamp) isolated.engine
    revert same
    decide +kernel

/-- Behind an account opened at 5, a refused transfer at 3 changes nothing for the two other
clients.
-/
theorem refused_isolated_behind
    : Isolated [.mutate ⟨.createAccount ⟨9⟩ .asset {} ⟨2⟩ 5, 0⟩ ⟨0⟩] (selfTransfer 3)
        otherClients {} freshEngine := by
  have refused : Refused [.mutate ⟨.createAccount ⟨9⟩ .asset {} ⟨2⟩ 5, 0⟩ ⟨0⟩] (selfTransfer 3)
      freshEngine.ledger :=
    ⟨_, _, rfl⟩
  have quiet : Quiet (selfTransfer 3)
      (watermarkAfter [.mutate ⟨.createAccount ⟨9⟩ .asset {} ⟨2⟩ 5, 0⟩ ⟨0⟩]
        freshEngine.ledger) :=
    .inr (by decide)
  exact (refused_isolated_iff refused).1 quiet otherClients {}

end TrustLedger.Ingest
