import TrustLedger.LedgerCore.Invariants
import TrustLedger.Foundation.Audit

/-! The debug build. Every mutator ends with a check of the invariants, made after its writes.
While the totals of every ledger passed through fit, the check passes and both builds agree. A
mutator that takes a total past the limit reports an error with its writes kept, and a batch
around it rolls back without its pre-images.
-/

namespace TrustLedger.LedgerCore

open Foundation

namespace Ledger

namespace Debug

/-- Run in debug builds at the end of every mutator. -/
def checkAfterMutation : LedgerM Unit := do
  check ((← get).verifyInvariants)

/-- An operation's mutator, ending with the check. -/
def applyBatchOp (op : BatchOp) : LedgerM Unit := do
  Ledger.applyBatchOp op
  checkAfterMutation

/-- Journal events as operations with an undo log. -/
def eventLog : UndoLog Ledger UndoOp Mark LedgerEvent LedgerError (List LedgerEvent) :=
  Ledger.eventLog.audited verifyInvariants

/-- Batch operations with an undo log. -/
def opLog : UndoLog Ledger UndoOp Mark BatchOp LedgerError (List LedgerEvent) :=
  Ledger.opLog.audited verifyInvariants

/-- Apply a batch of journal events atomically, re-validating each. -/
def commitEvents (events : List LedgerEvent) : LedgerM Unit := do
  let base := (← get).mark
  let _ ← eventLog.runWithUndo base events []
  checkAfterMutation

/-- Speculatively validate a batch of operations; the check runs on the state rolled back to. -/
def prepareBatch (ops : List BatchOp) : LedgerM (List LedgerEvent) := do
  let base := (← get).mark
  let undo ← opLog.runWithUndo base ops []
  let produced := opLog.produced base (← get)
  modify (rollback undo base)
  checkAfterMutation
  return produced

/-- Speculatively prepare transactions; the rolled-back state is not checked. -/
def prepareTransactions (txs : List (List BatchOp)) (l : Ledger)
    : List (Except LedgerError (List LedgerEvent)) × Ledger :=
  let ((results, allUndo), reached) := opLog.runTransactions txs [] l
  (results, rollback allUndo l.mark reached)

end Debug

/-- The entry points in which the builds differ. -/
structure Build where
  applyBatchOp : BatchOp → LedgerM Unit
  commitEvents : List LedgerEvent → LedgerM Unit
  prepareBatch : List BatchOp → LedgerM (List LedgerEvent)
  prepareTransactions
    : List (List BatchOp) → Ledger → List (Except LedgerError (List LedgerEvent)) × Ledger

def Build.release : Build :=
  ⟨Ledger.applyBatchOp, Ledger.commitEvents, Ledger.prepareBatch, Ledger.prepareTransactions⟩

def Build.debug : Build :=
  ⟨Debug.applyBatchOp, Debug.commitEvents, Debug.prepareBatch, Debug.prepareTransactions⟩

/-- A public call in one of the builds: its verdict and the ledger it leaves. -/
def Mutation.callIn (build : Build) : Mutation → LedgerM Unit
  | .createAccount id accountType flags scale timestamp =>
      build.applyBatchOp (.createAccount id accountType flags scale timestamp)
  | .closeAccount id timestamp => build.applyBatchOp (.closeAccount id timestamp)
  | .createTransfer t => build.applyBatchOp (.transfer t)
  | .createPending t => build.applyBatchOp (.pending t)
  | .postPending pendingId postTransferId amount timestamp =>
      build.applyBatchOp (.postPending pendingId postTransferId amount timestamp)
  | .voidPending pendingId timestamp => build.applyBatchOp (.voidPending pendingId timestamp)
  | .applyBatch transfers => build.commitEvents (transfers.map .transferPosted)
  | .commitEvents events => build.commitEvents events
  | .prepareTransfers transfers => do let _ ← build.prepareBatch (transfers.map .transfer)
  | .prepareBatch ops => do let _ ← build.prepareBatch ops
  | .prepareBatchResults ops =>
      fun l => .ok () (build.prepareTransactions (ops.map fun op => [op]) l).2
  | .prepareTransactions txs => fun l => .ok () (build.prepareTransactions txs l).2

/-- The ledgers a call passes through, up to its first refusal. -/
def Mutation.visits (l : Ledger) : Mutation → List Ledger
  | .createAccount id accountType flags scale timestamp =>
      opLog.visited [.createAccount id accountType flags scale timestamp] l
  | .closeAccount id timestamp => opLog.visited [.closeAccount id timestamp] l
  | .createTransfer t => opLog.visited [.transfer t] l
  | .createPending t => opLog.visited [.pending t] l
  | .postPending pendingId postTransferId amount timestamp =>
      opLog.visited [.postPending pendingId postTransferId amount timestamp] l
  | .voidPending pendingId timestamp => opLog.visited [.voidPending pendingId timestamp] l
  | .applyBatch transfers => eventLog.visited (transfers.map .transferPosted) l
  | .commitEvents events => eventLog.visited events l
  | .prepareTransfers transfers => opLog.visited (transfers.map .transfer) l
  | .prepareBatch ops => opLog.visited ops l
  | .prepareBatchResults ops => opLog.visitedAll (ops.map fun op => [op]) l
  | .prepareTransactions txs => opLog.visitedAll txs l

/-- A prepared batch leaves the ledger as it was, and so does dropping its events. -/
theorem prepareBatch_dropped (ops : List BatchOp) (l : Ledger)
    : (do let _ ← Ledger.prepareBatch ops : LedgerM Unit) l
      = match opLog.attempt ops l with
        | .ok _ => .ok () l
        | .error err => .error err l := by
  have prepared := prepareBatch_eq ops l
  cases decided : opLog.attempt ops l with
  | ok l' =>
      rw [decided] at prepared
      exact bind_run_of_ok prepared
  | error err =>
      rw [decided] at prepared
      exact bind_run_of_error prepared

/-- The release build's calls are the calls of a run. -/
theorem Mutation.stateAfter_callIn_release (mutation : Mutation) (l : Ledger)
    : stateAfter (mutation.callIn .release l) = mutation.run l := by
  cases mutation with
  | prepareTransfers transfers =>
      refine (congrArg stateAfter (prepareBatch_dropped _ l)).trans ?_
      refine Eq.trans ?_ (stateAfter_prepareBatch _ l).symm
      cases opLog.attempt (transfers.map .transfer) l <;> rfl
  | prepareBatch ops =>
      refine (congrArg stateAfter (prepareBatch_dropped ops l)).trans ?_
      refine Eq.trans ?_ (stateAfter_prepareBatch ops l).symm
      cases opLog.attempt ops l <;> rfl
  | _ => rfl

theorem Mutation.callIn_release_atomic (mutation : Mutation)
    : Atomic (mutation.callIn .release) := by
  intro l err l' ran
  have prepared (ops : List BatchOp)
      (failed : (do let _ ← Ledger.prepareBatch ops : LedgerM Unit) l = .error err l')
      : l' = l := by
    rw [prepareBatch_dropped] at failed
    cases decided : opLog.attempt ops l <;> simp_all
  have committed (events : List LedgerEvent) (failed : Ledger.commitEvents events l = .error err l')
      : l' = l := by
    rw [commitEvents_eq] at failed
    cases decided : Ledger.eventLog.attempt events l <;> simp_all
  cases mutation with
  | applyBatch transfers => exact committed _ ran
  | commitEvents events => exact committed events ran
  | prepareTransfers transfers => exact prepared _ ran
  | prepareBatch ops => exact prepared ops ran
  | prepareBatchResults ops => cases ran
  | prepareTransactions txs => cases ran
  | _ =>
      simp only [Mutation.callIn, Build.release] at ran
      exact applyBatchOp_atomic _ l err l' ran

section Agreement

variable {l : Ledger}

theorem Fits.check (fits : l.Fits) (backed : l.Backed) : Debug.checkAfterMutation l = .ok () l := by
  have passes := backed.verifyInvariants_iff.mpr fits
  simp only [Debug.checkAfterMutation, get_bind, Foundation.check, passes]

theorem passes_of_fits {ledgers : List Ledger} (backed : ∀ mid ∈ ledgers, mid.Backed)
    (fits : ∀ mid ∈ ledgers, mid.Fits)
    : ∀ mid ∈ ledgers, mid.verifyInvariants = .ok () :=
  fun mid mem => (backed mid mem).verifyInvariants_iff.mpr (fits mid mem)

theorem Backed.applyEvent {l' : Ledger} {event : LedgerEvent} (backed : l.Backed)
    (ran : Ledger.applyEvent event l = .ok () l')
    : l'.Backed :=
  backed.step (applyEvent_ok_iff.mp ran)

theorem Backed.applyBatchOp {l' : Ledger} {op : BatchOp} (backed : l.Backed)
    (ran : Ledger.applyBatchOp op l = .ok () l')
    : l'.Backed :=
  backed.step (applyBatchOp_ok_iff.mp ran)

theorem debug_applyBatchOp_eq {op : BatchOp} (backed : l.Backed)
    (fits : ∀ mid ∈ opLog.visited [op] l, mid.Fits)
    : Debug.applyBatchOp op l = Ledger.applyBatchOp op l :=
  UndoLog.audited_exec_eq
    (passes_of_fits (UndoLog.visited_preserves Backed.applyBatchOp backed) fits)

theorem debug_commitEvents_eq {events : List LedgerEvent} (backed : l.Backed) (fits : l.Fits)
    (through : ∀ mid ∈ eventLog.visited events l, mid.Fits)
    : Debug.commitEvents events l = Ledger.commitEvents events l := by
  have backedThrough : ∀ mid ∈ eventLog.visited events l, mid.Backed :=
    UndoLog.visited_preserves Backed.applyEvent backed
  have same : Debug.eventLog.runWithUndo l.mark events [] l
      = eventLog.runWithUndo l.mark events [] l :=
    UndoLog.runWithUndo_audited (passes_of_fits backedThrough through)
  obtain ⟨succeeds, fails⟩ := eventLog_lawful.runWithUndo_mark events l
  rw [commitEvents_eq]
  simp only [Debug.commitEvents, get_bind]
  cases decided : eventLog.attempt events l with
  | ok l' =>
      obtain ⟨delta, ran, -⟩ := succeeds l' decided
      refine (bind_run_of_ok (same.trans ran)).trans ?_
      rcases UndoLog.attempt_visited decided with rfl | reached
      · exact fits.check backed
      · exact (through l' reached).check (backedThrough l' reached)
  | error err => exact bind_run_of_error (same.trans (fails err decided))

theorem debug_prepareBatch_eq {ops : List BatchOp} (backed : l.Backed) (fits : l.Fits)
    (through : ∀ mid ∈ opLog.visited ops l, mid.Fits)
    : Debug.prepareBatch ops l = Ledger.prepareBatch ops l := by
  have backedThrough : ∀ mid ∈ opLog.visited ops l, mid.Backed :=
    UndoLog.visited_preserves Backed.applyBatchOp backed
  have same : Debug.opLog.runWithUndo l.mark ops [] l = opLog.runWithUndo l.mark ops [] l :=
    UndoLog.runWithUndo_audited (passes_of_fits backedThrough through)
  obtain ⟨succeeds, fails⟩ := opLog_lawful.runWithUndo_mark ops l
  rw [prepareBatch_eq]
  simp only [Debug.prepareBatch, get_bind]
  cases decided : opLog.attempt ops l with
  | ok l' =>
      obtain ⟨delta, ran, restored⟩ := succeeds l' decided
      refine (bind_run_of_ok (same.trans ran)).trans ?_
      simp only [get_bind, modify_bind]
      change (Debug.checkAfterMutation >>= fun _ => _) (rollback delta l.mark l') = _
      have back : rollback delta l.mark l' = l := restored
      rw [back]
      exact bind_run_of_ok (fits.check backed)
  | error err => exact bind_run_of_error (same.trans (fails err decided))

theorem debug_prepareTransactions_eq {txs : List (List BatchOp)} (backed : l.Backed)
    (through : ∀ mid ∈ opLog.visitedAll txs l, mid.Fits)
    : Debug.prepareTransactions txs l = Ledger.prepareTransactions txs l := by
  have backedThrough : ∀ mid ∈ opLog.visitedAll txs l, mid.Backed :=
    UndoLog.visitedAll_preserves Backed.applyBatchOp backed
  have same : Debug.opLog.runTransactions txs [] l = opLog.runTransactions txs [] l :=
    UndoLog.runTransactions_audited opLog_lawful (passes_of_fits backedThrough through)
  simp only [Debug.prepareTransactions, Ledger.prepareTransactions, same]

/-- While the totals fit, both builds give a call the same verdict and the same ledger. -/
theorem Mutation.callIn_debug {mutation : Mutation} (backed : l.Backed) (fits : l.Fits)
    (through : ∀ mid ∈ mutation.visits l, mid.Fits)
    : mutation.callIn .debug l = mutation.callIn .release l := by
  have dropped (ops : List BatchOp) (fitting : ∀ mid ∈ opLog.visited ops l, mid.Fits)
      : (do let _ ← Debug.prepareBatch ops : LedgerM Unit) l
        = (do let _ ← Ledger.prepareBatch ops : LedgerM Unit) l := by
    have same := debug_prepareBatch_eq backed fits fitting
    cases ran : Ledger.prepareBatch ops l with
    | ok events l' =>
        rw [ran] at same
        exact (bind_run_of_ok same).trans (bind_run_of_ok (f := fun _ => pure ()) ran).symm
    | error err l' =>
        rw [ran] at same
        exact (bind_run_of_error same).trans (bind_run_of_error ran).symm
  cases mutation with
  | applyBatch transfers => exact debug_commitEvents_eq backed fits through
  | commitEvents events => exact debug_commitEvents_eq backed fits through
  | prepareTransfers transfers => exact dropped _ through
  | prepareBatch ops => exact dropped ops through
  | prepareBatchResults ops =>
      simp only [callIn, Build.debug, Build.release, debug_prepareTransactions_eq backed through]
  | prepareTransactions txs =>
      simp only [callIn, Build.debug, Build.release, debug_prepareTransactions_eq backed through]
  | _ => exact debug_applyBatchOp_eq backed through

end Agreement

/-- The ledger after a sequence of public calls in one of the builds. -/
def Mutation.runIn (build : Build) (mutations : List Mutation) (l : Ledger) : Ledger :=
  mutations.foldl (fun l mutation => stateAfter (mutation.callIn build l)) l

/-- The totals of every ledger that a run passes through fit. -/
def FitsThrough : List Mutation → Ledger → Prop
  | [], l => l.Fits
  | mutation :: rest, l =>
      l.Fits ∧ (∀ mid ∈ mutation.visits l, mid.Fits) ∧ FitsThrough rest (mutation.run l)

/-- Along a run whose totals fit, a call of the debug build is the call of the release build. -/
theorem FitsThrough.callIn_debug {first later : List Mutation} {mutation : Mutation}
    {l : Ledger} (backed : l.Backed) (through : FitsThrough (first ++ mutation :: later) l)
    : Mutation.runIn .debug first l = Mutation.runFrom first l
      ∧ mutation.callIn .debug (Mutation.runFrom first l)
        = mutation.callIn .release (Mutation.runFrom first l) := by
  induction first generalizing l with
  | nil =>
      obtain ⟨fits, visits, -⟩ := through
      exact ⟨rfl, Mutation.callIn_debug backed fits visits⟩
  | cons call rest ih =>
      obtain ⟨fits, visits, through⟩ := through
      have next : stateAfter (call.callIn .debug l) = call.run l := by
        rw [Mutation.callIn_debug backed fits visits, call.stateAfter_callIn_release]
      have nextBacked : (call.run l).Backed := by
        obtain ⟨events, applied⟩ := call.run_events l
        exact applyEvents_preserves Backed.step backed applied
      obtain ⟨same, agree⟩ := ih nextBacked through
      refine ⟨?_, agree⟩
      rw [← next] at same
      exact same.trans (by rw [next]; rfl)

/-- The invariant check accepts exactly the reachable ledgers whose totals fit. In the debug
build a mutator fails with its writes kept exactly when it is accepted into a ledger whose
totals do not fit; along a run whose totals fit, every call has the verdict and the ledger of the
release build, and a call that fails changes nothing.
-/
theorem verify_invariants_iff (scale : Scale)
    : (∀ l, Reachable scale l → (l.verifyInvariants = .ok () ↔ l.Fits))
      ∧ (∀ l, Reachable scale l → ∀ op,
          (∃ err l', Debug.applyBatchOp op l = .error err l' ∧ l' ≠ l)
            ↔ ∃ l', applyBatchOp op l = .ok () l' ∧ ¬ l'.Fits)
      ∧ ∀ first mutation later, FitsThrough (first ++ mutation :: later) (new scale)
          → mutation.callIn .debug (Mutation.runIn .debug first (new scale))
              = mutation.callIn .release (Mutation.runAll scale first)
            ∧ ∀ err l', mutation.callIn .debug (Mutation.runIn .debug first (new scale))
                = .error err l'
                → l' = Mutation.runIn .debug first (new scale) := by
  refine ⟨fun l reached => reached.backed.verifyInvariants_iff, ?_, ?_⟩
  · intro l reached op
    have grows (l' : Ledger) (ran : applyBatchOp op l = .ok () l') : l' ≠ l := by
      intro same
      have journal := congrArg List.length (applyBatchOp_ok_iff.mp ran).journal
      rw [same] at journal
      simp at journal
    have changes : (∃ err l', Debug.opLog.exec op l = .error err l' ∧ l' ≠ l)
        ↔ ∃ l', opLog.exec op l = .ok () l' ∧ l'.verifyInvariants ≠ .ok () :=
      UndoLog.audited_changes_iff (applyBatchOp_atomic op) grows
    refine Iff.trans changes ?_
    refine exists_congr fun l' => and_congr_right fun ran => not_congr ?_
    exact (reached.backed.applyBatchOp ran).verifyInvariants_iff
  · intro first mutation later through
    obtain ⟨same, agree⟩ := through.callIn_debug (backed_new scale)
    rw [same]
    refine ⟨agree, ?_⟩
    intro err l' failed
    rw [agree] at failed
    exact mutation.callIn_release_atomic _ err l' failed

/-- The totals of a partial capture fit, so the check accepts it; and opening its first account
runs the same in both builds.
-/
theorem verify_invariants_partialCapture
    : (Mutation.runAll ⟨2⟩ partialCapture).verifyInvariants = .ok ()
      ∧ (Mutation.createAccount ⟨1⟩ .asset .unrestricted ⟨2⟩ 10).callIn .debug (new ⟨2⟩)
        = (Mutation.createAccount ⟨1⟩ .asset .unrestricted ⟨2⟩ 10).callIn .release (new ⟨2⟩) := by
  have holds := verify_invariants_iff ⟨2⟩
  refine ⟨(holds.1 _ (reachable_runAll ⟨2⟩ partialCapture)).mpr ⟨by decide, by decide⟩, ?_⟩
  refine (holds.2.2 [] _ [] ⟨⟨by decide, by decide⟩, ?_, by decide, by decide⟩).1
  intro mid mem
  obtain rfl := List.mem_singleton.mp mem
  exact ⟨by decide, by decide⟩

/-- The largest amount. -/
def largest : Amount :=
  ⟨340282366920938463463374607431768211455⟩

/-- Two pairs of unrestricted accounts, and the largest transfer there is between the first. -/
def largestTransfer : List Mutation :=
  [.createAccount ⟨1⟩ .asset .unrestricted ⟨2⟩ 10,
    .createAccount ⟨2⟩ .liability .unrestricted ⟨2⟩ 10,
    .createAccount ⟨3⟩ .asset .unrestricted ⟨2⟩ 10,
    .createAccount ⟨4⟩ .liability .unrestricted ⟨2⟩ 10,
    .createTransfer ⟨⟨20⟩, ⟨1⟩, ⟨2⟩, largest, .posted, none, 11⟩]

/-- As large a transfer between the other pair. -/
def secondTransfer : Transfer :=
  ⟨⟨21⟩, ⟨3⟩, ⟨4⟩, largest, .posted, none, 12⟩

/-- Both transfers are accepted, and the check then overflows. In the debug build the second
one is reported as an error with its writes kept, and preparing it leaves them behind without
its event.
-/
theorem largest_transfers_overflow
    : (Mutation.runAll ⟨2⟩ (largestTransfer ++ [.createTransfer secondTransfer])).verifyInvariants
        = .error .arithmeticOverflow
      ∧ Debug.applyBatchOp (.transfer secondTransfer) (Mutation.runAll ⟨2⟩ largestTransfer)
        = .error .arithmeticOverflow
            (Mutation.runAll ⟨2⟩ (largestTransfer ++ [.createTransfer secondTransfer]))
      ∧ Debug.prepareBatch [.transfer secondTransfer] (Mutation.runAll ⟨2⟩ largestTransfer)
        = .error .arithmeticOverflow
            { Mutation.runAll ⟨2⟩ (largestTransfer ++ [.createTransfer secondTransfer]) with
              journal := (Mutation.runAll ⟨2⟩ largestTransfer).journal
              lastTimestamp := (Mutation.runAll ⟨2⟩ largestTransfer).lastTimestamp } := by
  refine ⟨by decide +kernel, result_eq_error.mpr ⟨?_, ?_⟩, result_eq_error.mpr ⟨?_, ?_⟩⟩
  all_goals decide +kernel

end Ledger

end TrustLedger.LedgerCore
