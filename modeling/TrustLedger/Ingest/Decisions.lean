import TrustLedger.LedgerCore.Preparation
import TrustLedger.WriteAheadLog.Handle
import TrustLedger.Ingest.Engine

/-! What a micro-batch decides, command by command: the conversion of each mutation under the
running watermark, and then its verdict on the running ledger, as if it were executed
directly on its own turn. Processing is shown to follow these decisions.
-/

namespace TrustLedger.Ingest

open Foundation Foundation.UndoLog LedgerCore WriteAheadLog Ledger

/-- The mutation a command asks for: who waits for it and how it is converted. -/
def IngestCommand.mutation? : IngestCommand → Option (Responder × WatermarkM (List BatchOp))
  | .mutate timed respondTo =>
      some (.single timed.op.target respondTo, do return [← timed.intoBatchOp])
  | .applyBatch ops respondTo =>
      some (.batch (Fin.ofNat _ ops.length) respondTo, intoBatchOps ops)
  | .getAccount .. | .getTransfer .. => none

def IngestCommand.query? : IngestCommand → Option QueryCommand
  | .getAccount id respondTo => some (.getAccount id respondTo)
  | .getTransfer id respondTo => some (.getTransfer id respondTo)
  | .mutate .. | .applyBatch .. => none

/-- A mutation's operations, or why it could not be converted. -/
abbrev Converted := Responder × Except IngestError (List BatchOp)

/-- A mutation's events, or why it was refused. -/
abbrev Decision := Responder × Except IngestError (List LedgerEvent)

/-- The conversions of a micro-batch's mutations, and the watermark they leave. -/
def convertAll : List IngestCommand → U64 → List Converted × U64
  | [], watermark => ([], watermark)
  | command :: rest, watermark =>
      match command.mutation? with
      | none => convertAll rest watermark
      | some (responder, convert) =>
          let later := convertAll rest (stateAfter (convert watermark))
          ((responder, valueAfter (convert watermark)) :: later.1, later.2)

/-- The verdicts on converted mutations in order, each on the ledger the accepted ones before
it leave.
-/
def decideAll : List Converted → Ledger → List Decision × Ledger
  | [], l => ([], l)
  | (responder, .error err) :: rest, l =>
      ((responder, .error err) :: (decideAll rest l).1, (decideAll rest l).2)
  | (responder, .ok ops) :: rest, l =>
      match opLog.attempt ops l with
      | .ok l' =>
          ((responder, .ok (l'.journal.drop l.journal.length)) :: (decideAll rest l').1,
            (decideAll rest l').2)
      | .error err =>
          ((responder, .error (.ledger err)) :: (decideAll rest l).1, (decideAll rest l).2)

/-- The verdicts on the mutations of a micro-batch, and the ledger they lead to. -/
def decisions (batch : List IngestCommand) (l : Ledger) : List Decision × Ledger :=
  decideAll (convertAll batch l.lastTimestamp).1 l

theorem convertAll_append (left right : List IngestCommand) (watermark : U64)
    : convertAll (left ++ right) watermark
      = ((convertAll left watermark).1 ++ (convertAll right (convertAll left watermark).2).1,
        (convertAll right (convertAll left watermark).2).2) := by
  induction left generalizing watermark with
  | nil => rfl
  | cons command rest ih =>
      simp only [List.cons_append, convertAll]
      cases command.mutation? with
      | none => exact ih watermark
      | some mutation => simp [ih]

variable {responder : Responder} {command : IngestCommand}

theorem mem_convertAll {batch : List IngestCommand} {watermark : U64}
    {converted : Except IngestError (List BatchOp)}
    (member : (responder, converted) ∈ (convertAll batch watermark).1)
    : ∃ command ∈ batch, ∃ convert reached,
        command.mutation? = some (responder, convert)
        ∧ valueAfter (convert reached) = converted := by
  induction batch generalizing watermark with
  | nil => cases member
  | cons command rest ih =>
      simp only [convertAll] at member
      cases mutation : command.mutation? with
      | none =>
          rw [mutation] at member
          obtain ⟨other, there, found⟩ := ih member
          exact ⟨other, List.mem_cons_of_mem _ there, found⟩
      | some pair =>
          rw [mutation] at member
          rcases List.mem_cons.mp member with same | later
          · cases same
            exact ⟨command, List.mem_cons_self, pair.2, watermark, mutation, rfl⟩
          · obtain ⟨other, there, found⟩ := ih later
            exact ⟨other, List.mem_cons_of_mem _ there, found⟩

theorem decideAll_append (left right : List Converted) (l : Ledger)
    : decideAll (left ++ right) l
      = ((decideAll left l).1 ++ (decideAll right (decideAll left l).2).1,
        (decideAll right (decideAll left l).2).2) := by
  induction left generalizing l with
  | nil => rfl
  | cons head rest ih =>
      obtain ⟨responder, conversion⟩ := head
      cases conversion with
      | error err => simp [decideAll, ih]
      | ok ops =>
          simp only [List.cons_append, decideAll]
          cases opLog.attempt ops l <;> simp [ih]

theorem decisions_append (before after : List IngestCommand) (l : Ledger)
    : decisions (before ++ after) l
      = ((decisions before l).1
          ++ (decideAll (convertAll after (convertAll before l.lastTimestamp).2).1
            (decisions before l).2).1,
        (decideAll (convertAll after (convertAll before l.lastTimestamp).2).1
          (decisions before l).2).2) := by
  simp only [decisions, convertAll_append, decideAll_append]

/-- An intake extended by a list of conversions and queries. -/
def Intake.extend (i : Intake) (converted : List Converted × U64) (queries : List QueryCommand)
    : Intake where
  watermark := converted.2
  txOps := i.txOps ++ (successes converted.1).map Prod.snd
  responders := i.responders ++ (successes converted.1).map Prod.fst
  earlyErrors := i.earlyErrors ++ failures converted.1
  queries := i.queries ++ queries

theorem Intake.take_mutation {convert : WatermarkM (List BatchOp)}
    (mutation : command.mutation? = some (responder, convert)) (i : Intake)
    : i.take command = i.enlist responder convert := by
  cases command <;> cases mutation <;> rfl

theorem Intake.take_query (query : command.mutation? = none) (i : Intake)
    : i.take command = { i with queries := i.queries ++ command.query?.toList } := by
  cases command <;> cases query <;> rfl

theorem IngestCommand.query?_mutation {mutation : Responder × WatermarkM (List BatchOp)}
    (asks : command.mutation? = some mutation)
    : command.query? = none := by
  cases command <;> cases asks <;> rfl

theorem foldl_take (batch : List IngestCommand) (i : Intake)
    : batch.foldl Intake.take i
      = i.extend (convertAll batch i.watermark) (batch.filterMap IngestCommand.query?) := by
  induction batch generalizing i with
  | nil => simp [Intake.extend, convertAll, successes, failures]
  | cons command rest ih =>
      rw [List.foldl_cons, ih]
      cases mutation : command.mutation? with
      | none =>
          rw [Intake.take_query mutation]
          simp only [Intake.extend, convertAll, mutation]
          cases query : command.query? <;> simp [query]
      | some pair =>
          obtain ⟨responder, convert⟩ := pair
          rw [Intake.take_mutation mutation]
          simp only [Intake.enlist, convertAll, mutation,
            List.filterMap_cons_none (IngestCommand.query?_mutation mutation)]
          cases convert i.watermark <;>
            simp [Intake.extend, successes, failures, valueAfter, stateAfter]

/-- The answers to refused mutations. -/
def refusals {β : Type} (decided : List (Responder × Except IngestError β))
    : List (Sender × Reply) :=
  (failures decided).map fun (responder, err) => responder.respondErr err

/-- The answers to mutations the ledger refuses. -/
def ledgerRefusals {β : Type} (prepared : List (Responder × Except LedgerError β))
    : List (Sender × Reply) :=
  (failures prepared).map fun (responder, err) => responder.respondErr (.ledger err)

/-- The results of preparing the converted mutations, with their responders. -/
def prepared (converted : List Converted) (l : Ledger)
    : List (Responder × Except LedgerError (List LedgerEvent)) :=
  ((successes converted).map Prod.fst).zip
    (opLog.attemptAll ((successes converted).map Prod.snd) l).1

/-- Preparing the converted mutations decides them: the accepted ones are the same, and the
early and the ledger's refusals together are the refused ones, in another order.
-/
theorem prepared_decideAll (converted : List Converted) (l : Ledger)
    : successes (prepared converted l) = successes (decideAll converted l).1
      ∧ (refusals converted ++ ledgerRefusals (prepared converted l)).Perm
          (refusals (decideAll converted l).1) := by
  induction converted generalizing l with
  | nil => exact ⟨rfl, .refl _⟩
  | cons head rest ih =>
      obtain ⟨responder, conversion⟩ := head
      cases conversion with
      | error err =>
          obtain ⟨same, answers⟩ := ih l
          exact ⟨same, answers.cons _⟩
      | ok ops =>
          simp only [prepared, decideAll, successes, List.map_cons, attemptAll]
          cases opLog.attempt ops l with
          | ok l' =>
              obtain ⟨same, answers⟩ := ih l'
              exact ⟨congrArg _ same, answers⟩
          | error err =>
              -- the ledger's refusal is sent behind all the early ones
              obtain ⟨same, answers⟩ := ih l
              exact ⟨same, List.perm_middle.trans (answers.cons _)⟩

theorem applyEvents_decideAll (converted : List Converted) (l : Ledger)
    : applyEvents ((successes (decideAll converted l).1).map Prod.snd).flatten l
      = some (decideAll converted l).2 := by
  induction converted generalizing l with
  | nil => rfl
  | cons head rest ih =>
      obtain ⟨responder, conversion⟩ := head
      cases conversion with
      | error err => exact ih l
      | ok ops =>
          simp only [decideAll]
          cases decided : opLog.attempt ops l with
          | ok l' =>
              exact applyEvents_append
                (applyEvents_appended (attempt_ops.mp decided)) (ih l')
          | error err => exact ih l

/-- How a verdict came about: the conversion failed, the ledger reached refused the operations,
or they were applied to it on the way to the final ledger.
-/
inductive Decided (converted : List Converted)
    (final : Ledger) (responder : Responder) : Except IngestError (List LedgerEvent) → Prop where
  | unconverted {err} (member : (responder, .error err) ∈ converted)
    : Decided converted final responder (.error err)
  | rejected {ops err} (member : (responder, .ok ops) ∈ converted)
    : Decided converted final responder (.error (.ledger err))
  | applied {ops reached next later} (member : (responder, .ok ops) ∈ converted)
    (applied : applyOps ops reached = some next)
    (later : applyEvents later next = some final)
    : Decided converted final responder (.ok (next.journal.drop reached.journal.length))

theorem Decided.cons {converted : List Converted} {final : Ledger} {responder : Responder}
    {verdict : Except IngestError (List LedgerEvent)}
    (decided : Decided converted final responder verdict) (head : Converted)
    : Decided (head :: converted) final responder verdict := by
  cases decided with
  | unconverted member => exact .unconverted (List.mem_cons_of_mem _ member)
  | rejected member => exact .rejected (List.mem_cons_of_mem _ member)
  | applied member applied later => exact .applied (List.mem_cons_of_mem _ member) applied later

/-- Every verdict came about in one of the three ways. -/
theorem mem_decideAll {converted : List Converted}
    {l : Ledger} {verdict : Except IngestError (List LedgerEvent)}
    (member : (responder, verdict) ∈ (decideAll converted l).1)
    : Decided converted (decideAll converted l).2 responder verdict := by
  induction converted generalizing l with
  | nil => cases member
  | cons head rest ih =>
      obtain ⟨first, conversion⟩ := head
      cases conversion with
      | error err =>
          rcases List.mem_cons.mp member with same | there
          · cases same
            exact .unconverted List.mem_cons_self
          · exact (ih there).cons _
      | ok ops =>
          simp only [decideAll] at member ⊢
          cases decided : opLog.attempt ops l with
          | error err =>
              rw [decided] at member
              rcases List.mem_cons.mp member with same | there
              · cases same
                exact .rejected List.mem_cons_self
              · exact (ih there).cons _
          | ok l' =>
              rw [decided] at member
              rcases List.mem_cons.mp member with same | there
              · cases same
                exact .applied List.mem_cons_self (attempt_ops.mp decided)
                  (applyEvents_decideAll rest l')
              · exact (ih there).cons _

/-- The answers to the queries of a micro-batch, given once its mutations are done. -/
def queryAnswers (batch : List IngestCommand) (done : Processed) : List (Sender × Reply) :=
  match done.result with
  | .ok _ =>
      (batch.filterMap IngestCommand.query?).map (QueryCommand.answer done.engine.ledger)
  | .error _ => []

theorem execute_eq (converted : List Converted) (io : AppendIo) (e : Engine)
    : let persisted := e.persist (successes (decideAll converted e.ledger).1) io
      e.execute ((successes converted).map Prod.snd) ((successes converted).map Prod.fst) io
        = { persisted with
            replies := ledgerRefusals (prepared converted e.ledger) ++ persisted.replies } := by
  obtain ⟨same, -⟩ := prepared_decideAll converted e.ledger
  rw [← same]
  unfold Engine.execute
  split
  · rename_i nothing
    have empty : prepared converted e.ledger = [] := by
      rw [prepared, List.map_eq_nil_iff.mp nothing]
      rfl
    rw [empty]
    rfl
  · rw [prepareTransactions_eq]
    rfl

/-- Processing refuses the refused mutations, persists the accepted ones, and then answers the
queries.
-/
theorem processBatch_eq (batch : List IngestCommand) (io : AppendIo) (e : Engine)
    : let persisted := e.persist (successes (decisions batch e.ledger).1) io
      ∃ refused, refused.Perm (refusals (decisions batch e.ledger).1)
        ∧ e.processBatch batch io
          = { persisted with
              replies := refused ++ persisted.replies ++ queryAnswers batch persisted } := by
  obtain ⟨-, answers⟩ := prepared_decideAll (convertAll batch e.ledger.lastTimestamp).1 e.ledger
  refine ⟨_, answers, ?_⟩
  unfold Engine.processBatch
  split
  · rename_i empty
    subst empty
    rfl
  · simp only [foldl_take, Intake.extend, List.nil_append,
      execute_eq (convertAll batch e.ledger.lastTimestamp).1 io e, queryAnswers, decisions]
    split <;> rename_i result <;> simp [result, refusals]

end TrustLedger.Ingest
