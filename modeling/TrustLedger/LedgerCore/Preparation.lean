import TrustLedger.LedgerCore.Runs

/-! Speculative preparation against direct execution: preparing is invisible, reports what the
ordinary mutators would do, and yields events that commit to the directly reached ledger.
-/

namespace TrustLedger.LedgerCore

open Foundation Foundation.UndoLog

namespace Ledger

/-- Run transactions in order through the ordinary mutators. Each is applied as a whole, with
the events it appends, or skipped.
-/
def applyEach : List (List BatchOp) → Ledger → List (Option (List LedgerEvent)) × Ledger
  | [], l => ([], l)
  | tx :: rest, l =>
      match applyOps tx l with
      | some l' =>
          (some (l'.journal.drop l.journal.length) :: (applyEach rest l').1,
            (applyEach rest l').2)
      | none => (none :: (applyEach rest l).1, (applyEach rest l).2)

/-- The events of the successful results, in order. -/
def acceptedEvents (results : List (Except LedgerError (List LedgerEvent))) : List LedgerEvent :=
  (results.filterMap Except.toOption).flatten

theorem attempt_ops_toOption (ops : List BatchOp) (l : Ledger)
    : (opLog.attempt ops l).toOption = applyOps ops l :=
  opLog_lawful.attempt_toOption ops l

/-- Up to the reported errors, prepared transactions are the directly applied ones. -/
theorem attemptAll_eq_applyEach (txs : List (List BatchOp)) (l : Ledger)
    : applyEach txs l
      = ((opLog.attemptAll txs l).1.map Except.toOption, (opLog.attemptAll txs l).2) := by
  induction txs generalizing l with
  | nil => rfl
  | cons tx rest ih =>
      simp only [applyEach, attemptAll, ← attempt_ops_toOption]
      cases opLog.attempt tx l with
      | ok l' =>
          simp only [Except.toOption, ih l']
          rfl
      | error err =>
          simp only [Except.toOption, ih l]
          rfl

theorem applyEvents_accepted (txs : List (List BatchOp)) (l : Ledger)
    : applyEvents (acceptedEvents (opLog.attemptAll txs l).1) l
      = some (opLog.attemptAll txs l).2 := by
  induction txs generalizing l with
  | nil => rfl
  | cons tx rest ih =>
      simp only [attemptAll]
      cases decided : opLog.attempt tx l with
      | ok l' => exact applyEvents_append (applyEvents_appended (attempt_ops.mp decided)) (ih l')
      | error err => exact ih l

/-- What preparing transactions on `l` promises. -/
structure TransactionsPrepared (l : Ledger) (txs : List (List BatchOp)) : Prop where
  invisible : (prepareTransactions txs l).2 = l
  direct : (prepareTransactions txs l).1.map Except.toOption = (applyEach txs l).1
  withoutFailed
    : ∀ i err, (prepareTransactions txs l).1[i]? = some (.error err)
      → (prepareTransactions (txs.eraseIdx i) l).1 = (prepareTransactions txs l).1.eraseIdx i
  acceptedAlone
    : (prepareTransactions (accepted txs (prepareTransactions txs l).1) l).1
      = (prepareTransactions txs l).1.filter Except.isOk
  committed
    : commitEvents (acceptedEvents (prepareTransactions txs l).1) l
      = .ok () (applyEach txs l).2
  sufficient
    : applyOps (accepted txs (prepareTransactions txs l).1).flatten l
      = some (applyEach txs l).2

/-- What preparing one batch on `l` promises. -/
structure BatchPrepared (l : Ledger) (ops : List BatchOp) : Prop where
  invisible : stateAfter (prepareBatch ops l) = l
  succeeds
    : ∀ l', applyOps ops l = some l'
      → prepareBatch ops l = .ok (l'.journal.drop l.journal.length) l
        ∧ commitEvents (l'.journal.drop l.journal.length) l = .ok () l'
  fails
    : applyOps ops l = none
      → ∃ err done op rest mid,
          ops = done ++ op :: rest
          ∧ applyOps done l = some mid
          ∧ applyOps [op] mid = none
          ∧ prepareBatch [op] mid = .error err mid
          ∧ prepareBatch ops l = .error err l

theorem transactionsPrepared (l : Ledger) (txs : List (List BatchOp))
    : TransactionsPrepared l txs := by
  refine {
    invisible := ?_, direct := ?_, withoutFailed := ?_, acceptedAlone := ?_, committed := ?_,
    sufficient := ?_ }
  all_goals simp only [prepareTransactions_eq, attemptAll_eq_applyEach]
  · exact fun i err failed => congrArg Prod.fst (opLog.attemptAll_eraseIdx failed)
  · exact congrArg Prod.fst (opLog.attemptAll_accepted txs l)
  · exact commitEvents_ok_iff.mpr (applyEvents_accepted txs l)
  · exact opLog_lawful.execAll_accepted txs l

theorem batchPrepared (l : Ledger) (ops : List BatchOp) : BatchPrepared l ops where
  invisible := stateAfter_prepareBatch ops l
  succeeds l' ran := by
    refine ⟨?_, commitEvents_ok_iff.mpr (applyEvents_appended ran)⟩
    rw [prepareBatch_eq, attempt_ops.mpr ran]
  fails failed := by
    cases decided : opLog.attempt ops l with
    | ok l' => rw [attempt_ops.mp decided] at failed; cases failed
    | error err =>
        obtain ⟨done, op, rest, mid, split, applied, blamed⟩ := opLog_lawful.attempt_error decided
        refine ⟨err, done, op, rest, mid, split, applied, ?_, ?_, ?_⟩
        · rw [← attempt_ops_toOption, blamed]
          rfl
        · rw [prepareBatch_eq, blamed]
        · rw [prepareBatch_eq, decided]

/-- Preparation is invisible, isolating and sufficient, for transactions and for one batch. -/
theorem preparation_faithful (l : Ledger) (txs : List (List BatchOp)) (ops : List BatchOp)
    : TransactionsPrepared l txs ∧ BatchPrepared l ops :=
  ⟨transactionsPrepared l txs, batchPrepared l ops⟩

end Ledger

end TrustLedger.LedgerCore
