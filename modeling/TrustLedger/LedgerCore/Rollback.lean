import TrustLedger.LedgerCore.Batches
import TrustLedger.LedgerCore.MutatorSteps
import TrustLedger.Foundation.FiniteMap

/-! The ledger's pre-images are faithful: reverting the pre-images of an accepted event gives
back the ledger before it, for any event and any operation, in any ledger.
-/

namespace TrustLedger.LedgerCore

open Foundation Foundation.FiniteMap

namespace Ledger

theorem revert_logged (op : UndoOp) (l : Ledger) (event : LedgerEvent) (timestamp : U64)
    : revert op (l.logged event timestamp) = (revert op l).logged event timestamp := by
  cases op <;> rfl

theorem foldr_revert_logged (undo : List UndoOp) (l : Ledger) (event : LedgerEvent)
    (timestamp : U64)
    : undo.foldr revert (l.logged event timestamp)
      = (undo.foldr revert l).logged event timestamp := by
  induction undo with
  | nil => rfl
  | cons op rest ih => simp only [List.foldr_cons, ih, revert_logged]

theorem foldr_revert_journal (undo : List UndoOp) (l : Ledger)
    : (undo.foldr revert l).journal = l.journal := by
  induction undo with
  | nil => rfl
  | cons op rest ih =>
      rw [List.foldr_cons, ← ih]
      cases op <;> rfl

/-- A mark covers every ledger whose journal is at least as long. -/
def Covers (base : Mark) (l : Ledger) : Prop :=
  base.journalLen ≤ l.journal.length

variable {pre : List UndoOp} {l l' : Ledger} {event : LedgerEvent} {t : Transfer} {id : TransferId}

/-- Once the map effects are reverted, the mark drops the logged event and its timestamp. -/
theorem rollback_logged {undo : List UndoOp} {base : Mark} {changed : Ledger} {timestamp : U64}
    (covered : Covers base l) (reverted : pre.foldr revert changed = l)
    : rollback (undo ++ pre) base (changed.logged event timestamp) = rollback undo base l := by
  have journal := foldr_revert_journal undo l
  have kept : (l.journal ++ [event]).take base.journalLen = l.journal.take base.journalLen :=
    List.take_append_of_le_length covered
  rw [rollback, List.foldr_append, foldr_revert_logged, reverted, foldr_revert_logged]
  simp only [rollback, logged, journal, kept]

section Captured

variable {l : Ledger} {t : Transfer} {debit credit : Account}
  (debitFound : l.accounts[t.debitAccountId]? = some debit)
  (creditFound : l.accounts[t.creditAccountId]? = some credit) {pendingId : TransferId}
include debitFound creditFound

theorem legPreImages_eq_ok
    : l.legPreImages t
      = .ok [.accountBalanceBefore t.debitAccountId debit.balance,
          .accountBalanceBefore t.creditAccountId credit.balance] := by
  simp only [legPreImages, balanceBefore, getAccount_eq_ok.mpr debitFound,
    getAccount_eq_ok.mpr creditFound]
  rfl

theorem transferPreImages_eq_ok
    : l.transferPreImages t
      = .ok [.accountBalanceBefore t.debitAccountId debit.balance,
          .accountBalanceBefore t.creditAccountId credit.balance, .removeTransfer t.id] := by
  simp only [transferPreImages, legPreImages_eq_ok debitFound creditFound]
  rfl

theorem releasePreImages_eq_ok (found : l.transfers[pendingId]? = some t)
    : l.releasePreImages pendingId
      = .ok [.accountBalanceBefore t.debitAccountId debit.balance,
          .accountBalanceBefore t.creditAccountId credit.balance,
          .transferStateBefore pendingId t.state] := by
  rw [releasePreImages, getTransfer_eq_ok.mpr found]
  exact congrArg (fun legs => legs.map (· ++ [.transferStateBefore pendingId t.state]))
    (legPreImages_eq_ok debitFound creditFound)

theorem postPreImages_eq_ok {postTransferId : TransferId} (found : l.transfers[pendingId]? = some t)
    : l.postPreImages pendingId postTransferId
      = .ok [.accountBalanceBefore t.debitAccountId debit.balance,
          .accountBalanceBefore t.creditAccountId credit.balance,
          .transferStateBefore pendingId t.state, .removeTransfer postTransferId] := by
  simp only [postPreImages, releasePreImages_eq_ok debitFound creditFound found]
  rfl

end Captured

/-- Restoring both captured balances takes back any rewrite of the two legs. -/
theorem revert_withLegs {debit credit : Account}
    (debitFound : l.accounts[t.debitAccountId]? = some debit)
    (creditFound : l.accounts[t.creditAccountId]? = some credit) (f g : Balance → Balance)
    : revert (.accountBalanceBefore t.debitAccountId debit.balance)
        (revert (.accountBalanceBefore t.creditAccountId credit.balance) (l.withLegs t f g))
      = l := by
  have accounts :=
    modify_pair_restore
      (fun a => { a with balance := f a.balance })
      (fun a => { a with balance := g a.balance })
      (fun a => { a with balance := debit.balance })
      (fun a => { a with balance := credit.balance })
      debitFound creditFound rfl rfl (fun _ => rfl)
  simp only [revert, withLegs, withBalance]
  rw [accounts]

theorem revert_withTransfer (unused : l.transfers[t.id]? = none)
    : revert (.removeTransfer t.id) (l.withTransfer t) = l := by
  simp only [revert, withTransfer, erase_insert_of_absent unused]

theorem revert_withMoved (found : l.transfers[id]? = some t) (state : TransferState)
    : revert (.transferStateBefore id t.state) (l.withMoved id { t with state }) = l := by
  have transfers :=
    modify_modify_restore (fun _ => { t with state })
      (fun moved => moved.restoreState t.state) found rfl
  simp only [revert, withMoved]
  rw [transfers]

theorem withMoved_absent {other : TransferId} (unused : l.transfers[other]? = none)
    : (l.withMoved id t).transfers[other]? = none := by
  simp only [withMoved, Std.ExtTreeMap.getElem?_modify, unused]
  split <;> simp_all

/-- Every accepted event was captured, and its pre-images revert its effect. -/
theorem Step.captured (step : l.Step event l')
    : ∃ pre changed timestamp,
        preImages event l = .ok pre
        ∧ l' = changed.logged event timestamp
        ∧ pre.foldr revert changed = l := by
  cases step with
  | accountCreated inOrder unused =>
      refine ⟨_, _, _, rfl, rfl, ?_⟩
      simp only [List.foldr_cons, List.foldr_nil, revert, erase_insert_of_absent unused]
  | @accountClosed id account timestamp inOrder found isOpen =>
      refine ⟨[.accountFlagsBefore id account.flags], _, _, ?_, rfl, ?_⟩
      · simp [preImages, closurePreImages, getAccount, okOr, found, bind, Except.bind, pure,
          Except.pure]
      · simp only [List.foldr_cons, List.foldr_nil, revert]
        rw [modify_modify_restore _ _ found rfl]
  | transferPosted inOrder posted fresh linked legs =>
      obtain ⟨⟨debit, debitFound, -⟩, ⟨credit, creditFound, -⟩⟩ := legs
      refine ⟨_, _, _, transferPreImages_eq_ok debitFound creditFound, rfl, ?_⟩
      simp only [List.foldr_cons, List.foldr_nil]
      rw [revert_withTransfer (l := l.withLegs _ _ _) fresh.unused,
        revert_withLegs debitFound creditFound]
  | transferPendingCreated inOrder pending fresh legs =>
      obtain ⟨⟨debit, debitFound, -⟩, ⟨credit, creditFound, -⟩⟩ := legs
      refine ⟨_, _, _, transferPreImages_eq_ok debitFound creditFound, rfl, ?_⟩
      simp only [List.foldr_cons, List.foldr_nil]
      rw [revert_withTransfer (l := l.withLegs _ _ _) fresh.unused,
        revert_withLegs debitFound creditFound]
  | @transferPendingPosted pendingId postTransferId amount timestamp plan post =>
      obtain ⟨debit, credit, ⟨debitFound, -, creditFound, -⟩, -, -⟩ := post.reserved
      have settled : plan.settlement.id = postTransferId :=
        congrArg Transfer.id post.settlement
      have unused := settled ▸ post.unused
      -- newest write first: the settlement goes, then the hold's state, then both balances
      refine ⟨_, _, _, postPreImages_eq_ok debitFound creditFound post.found, rfl, ?_⟩
      simp only [List.foldr_cons, List.foldr_nil]
      rw [← settled, revert_withTransfer (withMoved_absent (l := l.withLegs _ _ _) unused),
        revert_withMoved (l := l.withLegs _ _ _) post.found,
        revert_withLegs debitFound creditFound]
  | transferPendingVoided inOrder found pending reserved =>
      obtain ⟨debitFound, -, creditFound, -⟩ := reserved
      refine ⟨_, _, _, releasePreImages_eq_ok debitFound creditFound found, rfl, ?_⟩
      simp only [List.foldr_cons, List.foldr_nil]
      rw [revert_withMoved (l := l.withLegs _ _ _) found,
        revert_withLegs debitFound creditFound]

theorem covers_mark (l : Ledger) : Covers l.mark l :=
  Nat.le_refl _

theorem rollback_mark (l : Ledger) : rollback [] l.mark l = l := by
  simp only [rollback, mark, List.foldr_nil, List.take_length]

theorem Step.reverts (step : l.Step event l')
    : ∃ pre,
        preImages event l = .ok pre
        ∧ ∀ undo base, Covers base l
          → Covers base l' ∧ rollback (undo ++ pre) base l' = rollback undo base l := by
  obtain ⟨pre, changed, timestamp, captured, rfl, reverted⟩ := step.captured
  have sameJournal : changed.journal = l.journal := by
    rw [← foldr_revert_journal pre changed, reverted]
  refine ⟨pre, captured, fun undo base covered => ⟨?_, rollback_logged covered reverted⟩⟩
  simp only [Covers, logged, List.length_append, sameJournal]
  exact Nat.le_add_right_of_le covered

/-- An operation's pre-images are its event's, up to the existence check on a new account. -/
theorem opPreImages_eq_ok {op : BatchOp} (step : l.Step (op.event l) l')
    (captured : preImages (op.event l) l = .ok pre)
    : opPreImages op l = .ok pre := by
  cases op with
  | createAccount id accountType flags scale timestamp =>
      cases step with
      | accountCreated inOrder unused =>
          simpa [opPreImages, ensure, unused, BatchOp.event, preImages] using captured
  | _ => exact captured

theorem eventLog_lawful : eventLog.Lawful Covers where
  atomic := applyEvent_atomic
  covers_mark := covers_mark
  rollback_mark := rollback_mark
  captured ran := (applyEvent_ok_iff.mp ran).reverts

theorem opLog_lawful : opLog.Lawful Covers where
  atomic := applyBatchOp_atomic
  covers_mark := covers_mark
  rollback_mark := rollback_mark
  captured ran := by
    have step := applyBatchOp_ok_iff.mp ran
    obtain ⟨pre, captured, back⟩ := step.reverts
    exact ⟨pre, opPreImages_eq_ok step captured, back⟩

end Ledger

end TrustLedger.LedgerCore
