import TrustLedger.Foundation.Verdicts
import TrustLedger.LedgerCore.Batches
import TrustLedger.LedgerCore.Codec
import TrustLedger.WriteAheadLog.Wal
import TrustLedger.Ingest.Queue

/-! Single-writer micro-batch engine: commands are converted, prepared on the ledger, appended
to the write-ahead log in one group, committed, and answered. Telemetry is left out.
-/

namespace TrustLedger.Ingest

open Foundation LedgerCore WriteAheadLog

/-- What is sent back on a reply channel. -/
inductive Reply where
  | mutation (result : Except IngestError MutationResult)
  | batch (result : Except IngestError U32)
  | account (result : Except IngestError Account)
  | transfer (result : Except IngestError Transfer)
  deriving DecidableEq

/-- The error a reply carries, if any. -/
def Reply.error? : Reply → Option IngestError
  | .mutation (.error err) | .batch (.error err) | .account (.error err)
  | .transfer (.error err) => some err
  | _ => none

/-- Who waits for a mutation: one command, or an atomic batch of `count` operations. -/
inductive Responder where
  | single (target : TargetEntity) (respondTo : Sender)
  | batch (count : U32) (respondTo : Sender)
  deriving DecidableEq, Repr

namespace Responder

def respondTo : Responder → Sender
  | .single _ respondTo | .batch _ respondTo => respondTo

def respondErr (err : IngestError) : Responder → Sender × Reply
  | .single _ respondTo => (respondTo, .mutation (.error err))
  | .batch _ respondTo => (respondTo, .batch (.error err))

/-- Answer a committed mutation from the ledger. -/
def respondOk (l : Ledger) : Responder → Sender × Reply
  | .single (.account id) respondTo =>
      (respondTo, .mutation (((l.getAccount id).map .account).mapError .ledger))
  | .single (.transfer id) respondTo =>
      (respondTo, .mutation (((l.getTransfer id).map .transfer).mapError .ledger))
  | .batch count respondTo => (respondTo, .batch (.ok count))

end Responder

/-- A query, answered after the mutations of its micro-batch. -/
inductive QueryCommand where
  | getAccount (id : AccountId) (respondTo : Sender)
  | getTransfer (id : TransferId) (respondTo : Sender)
  deriving DecidableEq, Repr

def QueryCommand.answer (l : Ledger) : QueryCommand → Sender × Reply
  | .getAccount id respondTo => (respondTo, .account ((l.getAccount id).mapError .ledger))
  | .getTransfer id respondTo => (respondTo, .transfer ((l.getTransfer id).mapError .ledger))

/-- What the first pass over a micro-batch collects. -/
structure Intake where
  watermark : U64
  txOps : List (List BatchOp) := []
  responders : List Responder := []
  earlyErrors : List (Responder × IngestError) := []
  queries : List QueryCommand := []

/-- Keep a converted mutation for the ledger, or its error for an early answer. -/
def Intake.enlist (i : Intake) (responder : Responder) (convert : WatermarkM (List BatchOp))
    : Intake :=
  match convert i.watermark with
  | .ok ops watermark =>
      { i with
        watermark
        txOps := i.txOps ++ [ops]
        responders := i.responders ++ [responder] }
  | .error err watermark =>
      { i with watermark, earlyErrors := i.earlyErrors ++ [(responder, err)] }

def Intake.take (i : Intake) : IngestCommand → Intake
  | .mutate timed respondTo =>
      i.enlist (.single timed.op.target respondTo) do return [← timed.intoBatchOp]
  | .applyBatch ops respondTo =>
      i.enlist (.batch (Fin.ofNat _ ops.length) respondTo) (intoBatchOps ops)
  | .getAccount id respondTo => { i with queries := i.queries ++ [.getAccount id respondTo] }
  | .getTransfer id respondTo => { i with queries := i.queries ++ [.getTransfer id respondTo] }

/-- Single-writer ledger engine. -/
structure Engine where
  ledger : Ledger
  wal : Wal

/-- What a call returns, the replies it sent in order, and the engine it leaves. -/
structure Processed where
  result : Except IngestError Unit
  replies : List (Sender × Reply)
  engine : Engine

/-- Encode every event list, up to the first that fails. -/
def encodeAll : List (List LedgerEvent) → Except CodecError (List Bytes)
  | [] => .ok []
  | events :: rest => do
      let payload ← encodeEvents events
      let payloads ← encodeAll rest
      return payload :: payloads

/-- Persist the successful event lists in one group append, then commit them and answer. An
encoding error is returned with no answer to these responders; an append or commit error is
also sent to each of them.
-/
def Engine.persist (successful : List (Responder × List LedgerEvent)) (io : AppendIo) (e : Engine)
    : Processed :=
  if successful = [] then ⟨.ok (), [], e⟩
  else
    match encodeAll (successful.map Prod.snd) with
    -- the source leaves here before it answers anyone; the waiting channels are dropped
    | .error err => ⟨.error (.codec err.text), [], e⟩
    | .ok payloads =>
        match Wal.appendBatch payloads io e.wal with
        | .error walErr wal =>
            let err := .wal walErr.text
            ⟨.error err, successful.map fun s => s.1.respondErr err, { e with wal }⟩
        | .ok _ wal =>
            match Ledger.commitEvents (successful.map Prod.snd).flatten e.ledger with
            | .error ledgerErr ledger =>
                let err := .ledger ledgerErr
                ⟨.error err, successful.map fun s => s.1.respondErr err, { ledger, wal }⟩
            | .ok _ ledger =>
                ⟨.ok (), successful.map fun s => s.1.respondOk ledger, { ledger, wal }⟩

/-- Prepare the transactions, answer those the ledger rejects, and persist the others. -/
def Engine.execute (txOps : List (List BatchOp)) (responders : List Responder) (io : AppendIo)
    (e : Engine)
    : Processed :=
  if txOps = [] then ⟨.ok (), [], e⟩
  else
    -- results come in the order of the transactions, which is that of the responders
    let (results, ledger) := Ledger.prepareTransactions txOps e.ledger
    let decided := responders.zip results
    let rejected := (failures decided).map fun (responder, err) =>
      responder.respondErr (.ledger err)
    let successful := successes decided
    let persisted := Engine.persist successful io { e with ledger }
    { persisted with replies := rejected ++ persisted.replies }

/-- Process one micro-batch. Queries are answered only when nothing failed before them. -/
def Engine.processBatch (batch : List IngestCommand) (io : AppendIo) (e : Engine) : Processed :=
  if batch = [] then ⟨.ok (), [], e⟩
  else
    let intake := batch.foldl Intake.take { watermark := e.ledger.lastTimestamp }
    let early := intake.earlyErrors.map fun (responder, err) => responder.respondErr err
    let executed := Engine.execute intake.txOps intake.responders io e
    let replies := early ++ executed.replies
    match executed.result with
    | .error err => ⟨.error err, replies, executed.engine⟩
    | .ok _ =>
        ⟨.ok (), replies ++ intake.queries.map (QueryCommand.answer executed.engine.ledger),
          executed.engine⟩

/-- A micro-batch, and how the filesystem calls of its append go. -/
abbrev MicroBatch := List IngestCommand × AppendIo

/-- Process micro-batches in order until one fails, as the engine's loop does. -/
def Engine.run : List MicroBatch → Engine → Processed
  | [], e => ⟨.ok (), [], e⟩
  | (batch, io) :: rest, e =>
      let first := e.processBatch batch io
      match first.result with
      | .error err => ⟨.error err, first.replies, first.engine⟩
      | .ok _ =>
          let later := Engine.run rest first.engine
          { later with replies := first.replies ++ later.replies }

end TrustLedger.Ingest
