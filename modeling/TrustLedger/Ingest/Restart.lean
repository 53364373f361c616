import TrustLedger.Ingest.Responses
import TrustLedger.WriteAheadLog.Crashes

/-! The service is killed and started again, any number of times. A new engine opens the log,
decodes every record and replays the events. What was acknowledged is there again, and of a
micro-batch that was being written when the crash came, some first transactions, each as a whole.
-/

namespace TrustLedger.Ingest

open Foundation LedgerCore WriteAheadLog Ledger

inductive RestartError where
  | wal (err : WalError)
  | codec (err : CodecError)
  | ledger (err : LedgerError)
  deriving DecidableEq, Repr

/-- Rebuild a ledger from records by decoding every payload and replaying. -/
def ledgerFromRecords (scale : Scale) (records : List Record) : Except RestartError Ledger := do
  let events ← records.foldlM (fun events record => do
    return events ++ (← (decodeEvents record.payload).mapError .codec)) []
  (Ledger.replay scale events).mapError .ledger

/-- Open the log whose file holds `disk`, read it, and start an engine on the ledger it gives. -/
def Engine.restart (scale : Scale) (path : String) (options : WalOptions) (openIo : OpenIo)
    (readIo : StreamIo) (disk : Bytes)
    : Except RestartError Engine := do
  let (wal, _) ← (Wal.open path options openIo disk).1.mapError .wal
  match Wal.readRecords readIo wal with
  | .error err _ => throw (.wal err)
  | .ok records wal => return ⟨← ledgerFromRecords scale records, wal⟩

/-- An engine whose log may have failed in the middle of an append: the records of `lists` are
committed and replay to the ledger, and the file may go on with records of `more`.
-/
structure Engine.Recoverable (scale : Scale) (options : WalOptions)
    (lists more : List (List LedgerEvent))
    (e : Engine)
    : Prop where
  replayed : Ledger.replay scale lists.flatten = .ok e.ledger
  applies : ∃ after, applyEvents more.flatten e.ledger = some after
  logged
    : ∃ payloads pending, Records payloads lists ∧ Records pending more
      ∧ e.wal.Unfinished options payloads pending

/-- The micro-batch a service was appending when its log failed, if any. -/
def Service.Interrupted (s : Service) (batch : List IngestCommand) : Prop :=
  batch = []
    ∨ ∃ before io text, s.processed = before ++ [(batch, io)]
      ∧ s.returned = some (.error (.wal text))

section Batches

variable {scale : Scale} {path : String} {options : WalOptions} {payloads : List Bytes} {e : Engine}

theorem Engine.Synced.recoverable (synced : e.Synced scale path options payloads)
    : ∃ lists, e.Recoverable scale options lists [] := by
  obtain ⟨lists, records, replayed⟩ := synced.replayed
  refine ⟨lists, replayed, ⟨_, rfl⟩, payloads, [], records, .nil, ?_⟩
  rw [synced.wal]
  exact Wal.unfinished_holding path synced.fits

/-- Whatever the filesystem does, a micro-batch is committed, or the engine stops; where the append
failed, the log may go on with its transactions.
-/
theorem Engine.Synced.processBatch_any (synced : e.Synced scale path options payloads)
    (batch : List IngestCommand) (io : AppendIo)
    : (∃ added, (e.processBatch batch io).result = .ok ()
        ∧ (e.processBatch batch io).engine.Synced scale path options (payloads ++ added))
      ∨ ∃ err lists more, (e.processBatch batch io).result = .error err
        ∧ (e.processBatch batch io).engine.Recoverable scale options lists more
        ∧ (more = [] ∨ (∃ text, err = .wal text)
          ∧ more = acceptedLists batch (e.processBatch batch io).engine.ledger) := by
  obtain ⟨refused, -, processed⟩ := processBatch_eq batch io e
  obtain ⟨lists, records, replayed⟩ := synced.replayed
  rw [processed]
  cases encoded : encodeAll (acceptedLists batch e.ledger) with
  | error err =>
      rw [persist_unencoded encoded]
      obtain ⟨lists, recoverable⟩ := synced.recoverable
      exact .inr ⟨_, lists, [], rfl, recoverable, .inl rfl⟩
  | ok recorded =>
      have applied := applyEvents_acceptedLists batch e.ledger
      have appended := appendBatch_unfinished path synced.fits recorded io
      rw [← synced.wal] at appended
      rcases appended with ⟨range, appended, accepts⟩ | ⟨err, w, pending, failed, which, unfinished⟩
      · rw [persist_appended encoded appended]
        refine .inl ⟨recorded, rfl, rfl, synced.fits.append accepts.within, _,
          records.append (records_encodeAll encoded), ?_⟩
        rw [List.flatten_append, replay_ok_iff]
        exact applyEvents_append (replay_ok_iff.mp replayed) applied
      · rw [persist_failed encoded failed]
        rcases which with rfl | rfl
        · exact .inr ⟨_, lists, [], rfl, ⟨replayed, ⟨_, rfl⟩, payloads, [], records, .nil,
            unfinished⟩, .inl rfl⟩
        · exact .inr ⟨_, lists, _, rfl, ⟨replayed, ⟨_, applied⟩, payloads, _, records,
            records_encodeAll encoded, unfinished⟩, .inr ⟨⟨_, rfl⟩, rfl⟩⟩

/-- A run without failure ends with a log ready to append. -/
theorem Engine.Synced.run (synced : e.Synced scale path options payloads)
    {calls : List MicroBatch} (ok : (e.run calls).result = .ok ())
    : ∃ payloads', (e.run calls).engine.Synced scale path options payloads' := by
  induction calls generalizing e payloads with
  | nil => exact ⟨payloads, synced⟩
  | cons call rest ih =>
      obtain ⟨batch, io⟩ := call
      simp only [Engine.run] at ok ⊢
      rcases synced.processBatch_any batch io with ⟨added, done, next⟩ | ⟨err, -, -, failed, -⟩
      · rw [done] at ok ⊢
        exact ih next ok
      · rw [failed] at ok
        cases ok

/-- The log of a service may go on behind its ledger only with the transactions of the last
micro-batch, if its append failed.
-/
theorem Service.Sound.recoverable {s : Service} (sound : s.Sound e)
    (synced : e.Synced scale path options payloads)
    : ∃ batch lists,
        s.engine.Recoverable scale options lists (acceptedLists batch s.engine.ledger)
        ∧ s.Interrupted batch := by
  rcases List.eq_nil_or_concat' s.processed with none | ⟨before, ⟨batch, io⟩, split⟩
  · obtain ⟨lists, recoverable⟩ := synced.recoverable
    refine ⟨[], lists, ?_, .inl rfl⟩
    rw [sound.ran, none]
    exact recoverable
  · have ok := sound.earlier before _ split
    have ran := Engine.run_append ok batch io
    have engine := congrArg Processed.engine ran
    have result := congrArg Processed.result ran
    rw [← split] at engine result
    rw [← sound.ran] at engine
    rw [sound.result] at result
    obtain ⟨payloads, mid⟩ := synced.run ok
    rcases mid.processBatch_any batch io with
      ⟨added, -, final⟩ | ⟨err, lists, more, failed, recoverable, rfl | ⟨⟨text, rfl⟩, rfl⟩⟩
    · obtain ⟨lists, recoverable⟩ := final.recoverable
      exact ⟨[], lists, engine ▸ recoverable, .inl rfl⟩
    · exact ⟨[], lists, engine ▸ recoverable, .inl rfl⟩
    · exact ⟨batch, lists, engine ▸ recoverable,
        .inr ⟨before, io, text, split, eq_of_resultOf_error (result.trans failed)⟩⟩

end Batches

section Restarts

variable {scale : Scale} {options : WalOptions} {lists more : List (List LedgerEvent)} {e : Engine}

theorem applyEvents_of_append {left right : List LedgerEvent} {l l' : Ledger}
    (applied : applyEvents (left ++ right) l = some l')
    : ∃ mid, applyEvents left l = some mid ∧ applyEvents right mid = some l' := by
  rw [applyEvents, eventLog.execAll_append] at applied
  exact Option.bind_eq_some_iff.mp applied

theorem applyEvents_take {lists : List (List LedgerEvent)} {l l' : Ledger}
    (applied : applyEvents lists.flatten l = some l') (count : Nat)
    : ∃ mid, applyEvents (lists.take count).flatten l = some mid := by
  rw [← List.take_append_drop count lists, List.flatten_append] at applied
  obtain ⟨mid, first, -⟩ := applyEvents_of_append applied
  exact ⟨mid, first⟩

theorem ledgerFromRecords_records {payloads : List Bytes} {lists : List (List LedgerEvent)}
    (records : Records payloads lists) (scale : Scale) (seq : U64)
    : ledgerFromRecords scale (numbered seq payloads)
      = (Ledger.replay scale lists.flatten).mapError .ledger := by
  have decoded (events : List LedgerEvent)
      : (numbered seq payloads).foldlM (fun events record => do
          return events ++ (← (decodeEvents record.payload).mapError RestartError.codec)) events
        = .ok (events ++ lists.flatten) := by
    induction records generalizing seq events with
    | nil => simp [numbered, pure, Except.pure]
    | @cons payload first payloads lists decodes _ ih =>
        rw [numbered, List.foldlM_cons]
        simp only [decodes]
        refine (ih (seq + 1) (events ++ first)).trans ?_
        rw [List.flatten_cons, List.append_assoc]
  rw [ledgerFromRecords, decoded]
  rfl

/-- After a crash the engine starts again, ready to append. If appends are synced, its ledger is the
one before the crash, with some first transactions of the micro-batch being written.
-/
theorem Engine.Recoverable.restart (recoverable : e.Recoverable scale options lists more)
    (path : String) {openIo : OpenIo} {readIo : StreamIo} (opens : openIo.Succeeds)
    (reads : readIo.Succeeds) (kept : Nat) (short : (e.wal.diskAfterCrash kept).length < 2 ^ 64)
    : ∃ e' payloads,
        Engine.restart scale path options openIo readIo (e.wal.diskAfterCrash kept) = .ok e'
        ∧ e'.Synced scale path options payloads
        ∧ (options.syncPerAppend = true
          → ∃ count, applyEvents (more.take count).flatten e.ledger = some e'.ledger) := by
  obtain ⟨payloads, pending, records, recordsMore, unfinished⟩ := recoverable.logged
  obtain ⟨after, applies⟩ := recoverable.applies
  have replayed := replay_ok_iff.mp recoverable.replayed
  obtain ⟨count, recovery, tail, left, opened, all⟩ := unfinished.reopen path opens kept
  have fits := unfinished.fits.take count
  have survived : Records ((payloads ++ pending).take count) ((lists ++ more).take count) :=
    List.forall₂_take count (records.append recordsMore)
  have small : ((payloads ++ pending).take count).length < 2 ^ 64 := by
    have bound := length_le_framedLen ((payloads ++ pending).take count)
    rw [left, List.length_append, length_diskOf] at short
    omega
  have whole : applyEvents (lists ++ more).flatten (.new scale) = some after := by
    rw [List.flatten_append]
    exact applyEvents_append replayed applies
  obtain ⟨l, recovered⟩ := applyEvents_take whole count
  have rebuilt := ledgerFromRecords_records survived scale 0
  rw [replay_ok_iff.mpr recovered] at rebuilt
  refine ⟨⟨l, Wal.holding path options _⟩, _, ?_, ⟨rfl, fits, _, survived,
    replay_ok_iff.mpr recovered⟩, fun synced => ⟨count - lists.length, ?_⟩⟩
  · simp only [Engine.restart, opened, Except.mapError, Bind.bind, Except.bind,
      readRecords_holding fits small reads, rebuilt]
    rfl
  · -- all committed records survive, so the replay passes through the ledger before the crash
    have enough : lists.length ≤ count := records.length_eq ▸ all synced
    rw [List.take_append, List.take_of_length_le enough, List.flatten_append] at recovered
    obtain ⟨mid, first, rest⟩ := applyEvents_of_append recovered
    obtain rfl : e.ledger = mid := Option.some.inj (replayed.symm.trans first)
    exact rest

end Restarts

section Acknowledged

variable {engine : Engine} {s : Service}

/-- What events keep true of the ledger once a first part of the micro-batches has run, stays true.
-/
theorem Engine.run_prefix_preserves {P : Ledger → Prop}
    (kept : ∀ {l l' event}, P l → l.Step event l' → P l') {e : Engine} {first : List MicroBatch}
    (before : P (e.run first).engine.ledger) (later : List MicroBatch)
    : P (e.run (first ++ later)).engine.ledger := by
  induction first generalizing e with
  | nil => exact Engine.run_preserves kept before later
  | cons call rest ih =>
      obtain ⟨batch, io⟩ := call
      simp only [List.cons_append, Engine.run] at before ⊢
      cases result : (e.processBatch batch io).result with
      | ok value =>
          rw [result] at before
          exact ih before
      | error err =>
          rw [result] at before
          exact before

/-- The operations of an acknowledged call are shown by the service's ledger from then on. -/
theorem Service.Sound.acknowledged (sound : s.Sound engine) (backed : engine.ledger.Backed)
    {call : RpcCall} {response : Response} (made : call ∈ s.calls)
    (answered : call.answer = some (.ok response))
    : ∃ ops, s.server.operations call.rpc = .ok ops ∧ ∀ op ∈ ops, op.Shown s.engine.ledger := by
  obtain ⟨i, found⟩ := List.mem_iff_getElem?.mp made
  obtain ⟨before, batch, io, after, split, -, told⟩ := sound.told backed found answered
  obtain ⟨ops, asked, shown⟩ := told.carriedOut
  refine ⟨ops, asked, fun op listed => ?_⟩
  have later := Engine.run_prefix_preserves IngestOp.Shown.step (shown op listed) after
  rw [sound.ran, split, ← List.singleton_append, ← List.append_assoc]
  exact later

end Acknowledged

/-- How a service is set up, each time it is started. -/
structure Deployment where
  server : LedgerServer
  maxBatchSize : Nat
  capacity : Nat
  scale : Scale
  path : String
  options : WalOptions

/-- What happens to a service until it is killed, how much of its unsynced writes the crash leaves,
and how the file is read when the service is started again, which itself meets no failure. A write
that the crash tears is one that fails and is not repaired.
-/
structure Life where
  events : List ServiceEvent
  kept : Nat
  reads : ReliableReads
  rereads : ReliableReads

namespace Deployment

variable (d : Deployment)

def serve (life : Life) (e : Engine) : Service :=
  (Service.start d.server d.maxBatchSize d.capacity e).run life.events

def diskLeft (life : Life) (e : Engine) : Bytes :=
  (d.serve life e).engine.wal.diskAfterCrash life.kept

def restart (life : Life) (e : Engine) : Except RestartError Engine :=
  Engine.restart d.scale d.path d.options { schedule := life.reads.val }
    { schedule := life.rereads.val } (d.diskLeft life e)

/-- The services of all lives as they were killed, and the engine that is started last. -/
def runLives : List Life → Engine → Except RestartError (List Service × Engine)
  | [], e => .ok ([], e)
  | life :: rest, e => do
      let (services, final) ← runLives rest (← d.restart life e)
      return (d.serve life e :: services, final)

/-- File lengths are 64-bit numbers. -/
def FilesShort : List Life → Engine → Prop
  | [], _ => True
  | life :: rest, e =>
      (d.diskLeft life e).length < 2 ^ 64
      ∧ ∀ e', d.restart life e = .ok e' → FilesShort rest e'

end Deployment

section Lives

variable {d : Deployment} {payloads : List Bytes} {e : Engine}

/-- A service that is killed can be started again. If appends are synced, the new ledger is the one
before the crash, with some first transactions of a micro-batch whose append failed.
-/
theorem Engine.Synced.restart (synced : e.Synced d.scale d.path d.options payloads) (life : Life)
    (short : (d.diskLeft life e).length < 2 ^ 64)
    : ∃ e' payloads' batch, d.restart life e = .ok e'
        ∧ e'.Synced d.scale d.path d.options payloads'
        ∧ (d.serve life e).Interrupted batch
        ∧ (d.options.syncPerAppend = true
          → ∃ count,
            applyEvents
                ((acceptedLists batch (d.serve life e).engine.ledger).take count).flatten
                (d.serve life e).engine.ledger
              = some e'.ledger) := by
  have sound := (Service.sound_start d.server d.maxBatchSize d.capacity e).run life.events
  have opens : OpenIo.Succeeds { schedule := life.reads.val } :=
    ⟨rfl, rfl, fun _ => life.reads.property, rfl, rfl, rfl, rfl⟩
  obtain ⟨batch, lists, recoverable, interrupted⟩ := sound.recoverable synced
  obtain ⟨e', payloads', restarted, synced', grows⟩ :=
    recoverable.restart d.path opens (reads_succeed life.rereads) life.kept short
  exact ⟨e', payloads', batch, restarted, synced', interrupted, grows⟩

theorem Engine.Synced.backed (synced : e.Synced d.scale d.path d.options payloads)
    : e.ledger.Backed := by
  obtain ⟨lists, -, replayed⟩ := synced.replayed
  exact applyEvents_preserves (fun backed step => backed.step step) (backed_new d.scale)
    (replay_ok_iff.mp replayed)

/-- Over any number of lives the ledger only grows, and it shows what was acknowledged in each. -/
theorem Engine.Synced.runLives (durable : d.options.syncPerAppend = true)
    (synced : e.Synced d.scale d.path d.options payloads) {lives : List Life}
    (short : d.FilesShort lives e)
    : ∃ services final events, d.runLives lives e = .ok (services, final)
        ∧ services.length = lives.length
        ∧ applyEvents events e.ledger = some final.ledger
        ∧ ∀ s ∈ services, ∀ call ∈ s.calls, ∀ response, call.answer = some (.ok response)
          → ∃ ops, d.server.operations call.rpc = .ok ops ∧ ∀ op ∈ ops, op.Shown final.ledger := by
  induction lives generalizing e payloads with
  | nil => exact ⟨[], e, [], rfl, rfl, rfl, fun s member => (by cases member)⟩
  | cons life rest ih =>
      obtain ⟨e', payloads', batch, restarted, synced', -, grows⟩ := synced.restart life short.1
      obtain ⟨count, recovered⟩ := grows durable
      obtain ⟨services, final, events, ran, lengths, applied, shown⟩ :=
        ih synced' (short.2 e' restarted)
      have sound := (Service.sound_start d.server d.maxBatchSize d.capacity e).run life.events
      -- while it ran, the service itself only added events to the ledger it was started with
      have served : ∃ during, applyEvents during e.ledger
          = some (d.serve life e).engine.ledger := by
        rw [show (d.serve life e).engine = (e.run (d.serve life e).processed).engine from sound.ran]
        refine Engine.run_preserves (P := fun l => ∃ during, applyEvents during e.ledger = some l)
          ?_ ⟨[], rfl⟩ _
        rintro l l' event ⟨during, reached⟩ step
        exact ⟨_, applyEvents_append reached (applyEvents_single step)⟩
      obtain ⟨during, served⟩ := served
      refine ⟨d.serve life e :: services, final, _, ?_, by rw [List.length_cons, lengths,
        List.length_cons], applyEvents_append served (applyEvents_append recovered applied),
        fun s member call made response answered => ?_⟩
      · simp only [Deployment.runLives, restarted, Bind.bind, Except.bind, ran]
        rfl
      · rcases List.mem_cons.mp member with rfl | later
        · obtain ⟨ops, asked, now⟩ := sound.acknowledged synced.backed made answered
          rw [Service.run_server] at asked
          exact ⟨ops, asked, fun op listed => applyEvents_preserves
            IngestOp.Shown.step (now op listed) (applyEvents_append recovered applied)⟩
        · exact shown s later call made response answered

end Lives

/-- With appends synced, a service that is killed at any point of any schedule, with filesystem
calls that succeed or fail, starts again with the journal it had, or with some first transactions
more of a micro-batch whose append failed, each of them as a whole.
-/
theorem restart_keeps_transactions_whole (d : Deployment) (durable : d.options.syncPerAppend = true)
    {payloads : List Bytes} {e : Engine} (synced : e.Synced d.scale d.path d.options payloads)
    (life : Life) (short : (d.diskLeft life e).length < 2 ^ 64)
    : ∃ e' batch count, d.restart life e = .ok e'
        ∧ (d.serve life e).Interrupted batch
        ∧ e'.ledger.journal = (d.serve life e).engine.ledger.journal
            ++ ((acceptedLists batch (d.serve life e).engine.ledger).take count).flatten := by
  obtain ⟨e', -, batch, restarted, -, interrupted, grows⟩ := synced.restart life short
  obtain ⟨count, applied⟩ := grows durable
  exact ⟨e', batch, count, restarted, interrupted, applyEvents_journal applied⟩

def exampleDeployment : Deployment :=
  ⟨⟨⟨2⟩⟩, 64, 8, ⟨2⟩, "ledger.wal", {}⟩

theorem freshEngine_synced
    : freshEngine.Synced exampleDeployment.scale exampleDeployment.path
        exampleDeployment.options [] :=
  ⟨rfl, ⟨by simp, by decide⟩, [], .nil, rfl⟩

def transferCall (id : U64) : Rpc :=
  .mutate (.createTransfer ⟨id, 1, 2, some ⟨10, 2, 0⟩, 0, 0, 0, 0⟩)

theorem brokenReads_reliable
    : ∀ step ∈ [ReadStep.interrupted, .upto 7], ∀ err : IoError, step ≠ .failed err := by
  simp

def brokenReads : ReliableReads :=
  ⟨[.interrupted, .upto 7], brokenReads_reliable⟩

/-- Two accounts are opened, and then the power fails while two transfers are being written: the
frame of the first is complete, that of the second is not.
-/
def tornLife : Life :=
  {
    events := [.call (openAccountCall 1 1) fun _ => 5, .call (openAccountCall 2 2) fun _ => 6,
      .receive, .receive, .process {}, .call (transferCall 7) fun _ => 8,
      .call (transferCall 8) fun _ => 9, .receive, .receive,
      .process { write := some (40, ⟨"power"⟩), setLen := some ⟨"power"⟩, seek := some ⟨"power"⟩ }]
    kept := 200
    reads := brokenReads
    rereads := brokenReads
  }

/-- Witness: the accounts and the first transfer are there again. -/
theorem restart_keeps_transactions_whole_torn
    : ∃ e' batch count, exampleDeployment.restart tornLife freshEngine = .ok e'
        ∧ (exampleDeployment.serve tornLife freshEngine).Interrupted batch
        ∧ e'.ledger.journal = (exampleDeployment.serve tornLife freshEngine).engine.ledger.journal
            ++ ((acceptedLists batch
                (exampleDeployment.serve tornLife freshEngine).engine.ledger).take count).flatten
        ∧ e'.ledger.journal.length = 3 := by
  obtain ⟨e', batch, count, restarted, interrupted, journal⟩ := restart_keeps_transactions_whole
    exampleDeployment rfl freshEngine_synced tornLife (by decide +kernel)
  have evaluated : okAnd (exampleDeployment.restart tornLife freshEngine)
      fun e' => e'.ledger.journal.length = 3 := by
    decide +kernel
  rw [restarted] at evaluated
  exact ⟨e', batch, count, restarted, interrupted, journal, of_decide_eq_true evaluated⟩

/-- With appends synced, what was acknowledged stays: a service can be killed and started again any
number of times, at any point of any schedule, with filesystem calls that succeed or fail, and in
the end the ledger shows every operation of every call that any of its lives answered with a
success.
-/
theorem acknowledged_operations_survive (d : Deployment) (durable : d.options.syncPerAppend = true)
    {payloads : List Bytes} {e : Engine} (synced : e.Synced d.scale d.path d.options payloads)
    {lives : List Life} (short : d.FilesShort lives e)
    : ∃ services final, d.runLives lives e = .ok (services, final)
        ∧ services.length = lives.length
        ∧ ∀ s ∈ services, ∀ call ∈ s.calls, ∀ response, call.answer = some (.ok response)
          → ∃ ops, d.server.operations call.rpc = .ok ops ∧ ∀ op ∈ ops, op.Shown final.ledger := by
  obtain ⟨services, final, -, ran, lengths, -, shown⟩ := synced.runLives durable short
  exact ⟨services, final, ran, lengths, shown⟩

/-- The second transfer is asked for again, and the service is killed right after its answer. -/
def secondLife : Life :=
  {
    events := [.call (transferCall 8) fun _ => 4, .receive, .process {}]
    kept := 0
    reads := brokenReads
    rereads := brokenReads
  }

/-- Witness: two lives. The transfer that the second answered is shown in the end. -/
theorem acknowledged_operations_survive_twice
    : ∃ services final,
        exampleDeployment.runLives [tornLife, secondLife] freshEngine = .ok (services, final)
        ∧ (services.map fun s => (s.calls.map fun call => (call.answer.map Except.isOk)))
          = [[some true, some true, some false, some false], [some true]]
        ∧ ∀ s ∈ services, ∀ call ∈ s.calls, ∀ response, call.answer = some (.ok response)
          → ∃ ops, exampleDeployment.server.operations call.rpc = .ok ops
            ∧ ∀ op ∈ ops, op.Shown final.ledger := by
  have second : okAnd (exampleDeployment.restart tornLife freshEngine)
      fun e' => (exampleDeployment.diskLeft secondLife e').length < 2 ^ 64 := by
    decide +kernel
  have short : exampleDeployment.FilesShort [tornLife, secondLife] freshEngine := by
    refine ⟨by decide +kernel, fun e' restarted => ⟨?_, fun _ _ => trivial⟩⟩
    rw [restarted] at second
    exact of_decide_eq_true second
  obtain ⟨services, final, ran, -, shown⟩ :=
    acknowledged_operations_survive exampleDeployment rfl freshEngine_synced short
  have evaluated : okAnd (exampleDeployment.runLives [tornLife, secondLife] freshEngine)
      fun run => (run.1.map fun s => (s.calls.map fun call => (call.answer.map Except.isOk)))
        = [[some true, some true, some false, some false], [some true]] := by
    decide +kernel
  rw [ran] at evaluated
  exact ⟨services, final, ran, of_decide_eq_true evaluated, shown⟩

end TrustLedger.Ingest
