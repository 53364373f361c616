import TrustLedger.LedgerCore.Runs

/-! Which calls the ledger rejects as late: exactly those whose timestamp is behind its last one.
Every mutator looks at the timestamp first, and no later check reports lateness.
-/

namespace TrustLedger.LedgerCore

open Foundation

/-- The error of a call whose timestamp is behind the ledger's last one. -/
def LedgerError.IsLate (e : LedgerError) : Prop :=
  ∃ timestamp last, e = .timestampBehindPrior timestamp last

/-- A check that never reports lateness. -/
abbrev Timeless {α : Type} (x : Except LedgerError α) : Prop :=
  Avoids LedgerError.IsLate x

section Timeless

theorem timeless_map {α β : Type} {x : Except LedgerError α} (timeless : Timeless x) (f : α → β)
    : Timeless (x.map f) := by
  intro e failed
  cases x with
  | ok a => cases failed
  | error e' =>
      cases failed
      exact timeless e rfl

theorem timeless_checkedAdd (a b : Amount) : Timeless (a.checkedAdd b) :=
  .okOr nofun

theorem timeless_checkedSub (a b : Amount) : Timeless (a.checkedSub b) :=
  .okOr nofun

theorem timeless_availableWithin (posted pending limit : Amount)
    : Timeless (availableWithin posted pending limit) := by
  refine .bind (timeless_checkedAdd _ _) fun total => ?_
  split
  · exact .ok _
  · exact .ok _

theorem timeless_ensureRoom (a : Account) (limited : Bool) (posted pending limit : Amount)
    {available : Except LedgerError Amount} (timeless : Timeless available) (amount : Amount)
    : Timeless (a.ensureRoom limited posted pending limit available amount) := by
  refine .bind (.ensure nofun) fun _ => ?_
  split
  · refine .bind (timeless_checkedAdd _ _) fun reserved => ?_
    refine .bind (timeless_checkedAdd _ _) fun total => ?_
    split
    · exact .bind timeless fun left => .error nofun
    · exact .ok _
  · exact .ok _

namespace Ledger

variable (l : Ledger)

theorem timeless_getAccount (id : AccountId) : Timeless (l.getAccount id) :=
  .okOr nofun

theorem timeless_getTransfer (id : TransferId) : Timeless (l.getTransfer id) :=
  .okOr nofun

theorem timeless_validateNewTransfer (t : Transfer) : Timeless (l.validateNewTransfer t) := by
  refine .bind (.ensure nofun) fun _ => .bind (.ensure nofun) fun _ =>
    .bind (.ensure nofun) fun _ => ?_
  unfold Transfer.validateShape
  split
  · exact .error nofun
  · exact .ok _

theorem timeless_validatePendingLink (t : Transfer) : Timeless (l.validatePendingLink t) := by
  unfold validatePendingLink
  split
  · exact .ok _
  · exact .bind (.okOr nofun) fun _ => .ensure nofun

theorem timeless_admitLegs (t : Transfer) (debits credits : Balance → Amount)
    : Timeless (l.admitLegs t debits credits) := by
  refine .bind (l.timeless_getAccount _) fun debitAcc => ?_
  refine .bind (timeless_ensureRoom _ _ _ _ _ (timeless_availableWithin _ _ _) _) fun _ => ?_
  refine .bind (timeless_checkedAdd _ _) fun _ => ?_
  refine .bind (l.timeless_getAccount _) fun creditAcc => ?_
  refine .bind (timeless_ensureRoom _ _ _ _ _ (timeless_availableWithin _ _ _) _) fun _ => ?_
  exact .bind (timeless_checkedAdd _ _) fun _ => .ok _

theorem timeless_pendingHold (pendingId : TransferId) : Timeless (l.pendingHold pendingId) :=
  .bind (l.timeless_getTransfer _) fun _ => .bind (.ensure nofun) fun _ => .ok _

theorem timeless_legPreImages (t : Transfer) : Timeless (l.legPreImages t) := by
  have balance (id : AccountId) : Timeless (l.balanceBefore id) :=
    .bind (l.timeless_getAccount id) fun _ => .ok _
  exact .bind (balance _) fun _ => .bind (balance _) fun _ => .ok _

theorem timeless_releasePreImages (pendingId : TransferId)
    : Timeless (l.releasePreImages pendingId) :=
  .bind (l.timeless_getTransfer _) fun hold => .bind (l.timeless_legPreImages hold) fun _ => .ok _

/-- Capturing what an operation will change never reports lateness. -/
theorem timeless_opPreImages (op : BatchOp) : Timeless (opPreImages op l) := by
  cases op with
  | createAccount => exact .bind (.ensure nofun) fun _ => .ok _
  | closeAccount id => exact .bind (l.timeless_getAccount id) fun _ => .ok _
  | transfer t => exact .bind (l.timeless_legPreImages t) fun _ => .ok _
  | pending t => exact .bind (l.timeless_legPreImages t) fun _ => .ok _
  | postPending pendingId => exact .bind (l.timeless_releasePreImages pendingId) fun _ => .ok _
  | voidPending pendingId => exact l.timeless_releasePreImages pendingId

/-- A sequence of checks that looks at the timestamp first reports lateness exactly if the timestamp
is late, and then names it.
-/
theorem checkTimestamp_bind_error {α : Type} {timestamp : U64} {rest : Unit → Except LedgerError α}
    (timeless : ∀ u, Timeless (rest u)) {e : LedgerError}
    (failed : (l.checkTimestamp timestamp >>= rest) = .error e)
    : (e.IsLate ↔ timestamp < l.lastTimestamp)
      ∧ (e.IsLate → e = .timestampBehindPrior timestamp l.lastTimestamp) := by
  rcases bind_eq_error.mp failed with here | ⟨u, passed, there⟩
  · obtain ⟨late, rfl⟩ := ensure_eq_error.mp here
    exact ⟨iff_of_true ⟨_, _, rfl⟩ (not_not.mp late), fun _ => rfl⟩
  · have inOrder : ¬timestamp < l.lastTimestamp := not_lt.mpr (checkTimestamp_eq_ok.mp passed)
    have kind := timeless u e there
    exact ⟨iff_of_false kind inOrder, fun late => absurd late kind⟩

/-- An operation is rejected as late exactly if its timestamp is behind the ledger's last one. -/
theorem applyBatchOp_late {l l' : Ledger} {op : BatchOp} {e : LedgerError}
    (failed : applyBatchOp op l = .error e l')
    : (e.IsLate ↔ stampOf op < l.lastTimestamp)
      ∧ (e.IsLate → e = .timestampBehindPrior (stampOf op) l.lastTimestamp) := by
  cases op with
  | createAccount id accountType flags scale timestamp =>
      obtain ⟨rejected, -⟩ :=
        (createAccount_planned id accountType flags scale timestamp).error_iff.mp failed
      refine l.checkTimestamp_bind_error (fun _ => ?_) rejected
      exact .bind (.ensure nofun) fun _ => .ensure nofun
  | closeAccount id timestamp =>
      obtain ⟨rejected, -⟩ := (closeAccount_planned id timestamp).error_iff.mp failed
      refine l.checkTimestamp_bind_error (fun _ => ?_) rejected
      exact .bind (l.timeless_getAccount id) fun _ => .ensure nofun
  | transfer t =>
      obtain ⟨rejected, -⟩ := (createTransfer_planned t).error_iff.mp failed
      refine l.checkTimestamp_bind_error (fun _ => ?_) rejected
      exact .bind (.ensure nofun) fun _ => .bind (l.timeless_validateNewTransfer t) fun _ =>
        .bind (l.timeless_validatePendingLink t) fun _ => l.timeless_admitLegs t _ _
  | pending t =>
      obtain ⟨rejected, -⟩ := (createPending_planned t).error_iff.mp failed
      refine l.checkTimestamp_bind_error (fun _ => ?_) rejected
      exact .bind (.ensure nofun) fun _ => .bind (l.timeless_validateNewTransfer t) fun _ =>
        l.timeless_admitLegs t _ _
  | postPending pendingId postTransferId amount timestamp =>
      obtain ⟨rejected, -⟩ :=
        (postPending_planned pendingId postTransferId amount timestamp).error_iff.mp failed
      refine l.checkTimestamp_bind_error (fun _ => ?_) rejected
      refine .bind (.ensure nofun) fun _ => .bind (l.timeless_pendingHold pendingId) fun _ => ?_
      refine .bind (.ensure nofun) fun _ => .bind (.ensure nofun) fun _ => ?_
      refine .bind (l.timeless_getAccount _) fun _ => .bind (timeless_checkedSub _ _) fun _ => ?_
      refine .bind (timeless_checkedAdd _ _) fun _ => .bind (l.timeless_getAccount _) fun _ => ?_
      refine .bind (timeless_checkedSub _ _) fun _ => .bind (timeless_checkedAdd _ _) fun _ => ?_
      refine .bind (.bind ?_ fun _ => .ok _) fun _ => .ok _
      exact .bind (.ensure nofun) fun _ => .ensure nofun
  | voidPending pendingId timestamp =>
      obtain ⟨rejected, -⟩ := (voidPending_planned pendingId timestamp).error_iff.mp failed
      refine l.checkTimestamp_bind_error (fun _ => ?_) rejected
      exact .bind (l.timeless_pendingHold pendingId) fun _ =>
        .bind (l.timeless_getAccount _) fun _ => .bind (timeless_checkedSub _ _) fun _ =>
        .bind (l.timeless_getAccount _) fun _ => .bind (timeless_checkedSub _ _) fun _ => .ok _

/-- Behind a run rejected as late stands an operation that is late where it is tried. -/
theorem attempt_late {ops : List BatchOp} {l : Ledger} {e : LedgerError}
    (failed : opLog.attempt ops l = .error e) (late : e.IsLate)
    : ∃ done op rest reached,
        ops = done ++ op :: rest
        ∧ applyOps done l = some reached
        ∧ stampOf op < reached.lastTimestamp
        ∧ e = .timestampBehindPrior (stampOf op) reached.lastTimestamp := by
  obtain ⟨done, op, rest, reached, split, applied, blamed⟩ := opLog_lawful.attempt_error failed
  refine ⟨done, op, rest, reached, split, applied, ?_⟩
  simp only [UndoLog.attempt] at blamed
  split at blamed
  · rename_i captured
    cases blamed
    exact absurd late (reached.timeless_opPreImages op e captured)
  · split at blamed
    · rename_i ran
      cases blamed
      obtain ⟨behind, named⟩ := applyBatchOp_late ran
      exact ⟨behind.mp late, named late⟩
    · cases blamed

end Ledger

end Timeless

end TrustLedger.LedgerCore
