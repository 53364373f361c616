import TrustLedger.LedgerCore.Rollback

/-! Runs of the ledger. Whatever public calls are made, and whichever of them fail, the ledger
is the result of applying its own journal, event by event, to the empty ledger.
-/

namespace TrustLedger.LedgerCore

open Foundation

namespace Ledger

/-- Apply events in order, all or none. -/
def applyEvents (events : List LedgerEvent) (l : Ledger) : Option Ledger :=
  eventLog.execAll events l

/-- Apply operations through the ordinary mutators in order, all or none. -/
def applyOps (ops : List BatchOp) (l : Ledger) : Option Ledger :=
  opLog.execAll ops l

variable {event : LedgerEvent} {l l' : Ledger} {events : List LedgerEvent} {P : Ledger → Prop}
  {ops : List BatchOp} {scale : Scale}

theorem applyEvents_cons {rest : List LedgerEvent}
    : applyEvents (event :: rest) l = some l'
      ↔ ∃ mid, l.Step event mid ∧ applyEvents rest mid = some l' := by
  simp only [applyEvents, eventLog.execAll_cons_eq_some]
  exact exists_congr fun mid => and_congr_left fun _ => applyEvent_ok_iff

theorem applyEvents_append {left right : List LedgerEvent} {mid : Ledger}
    (first : applyEvents left l = some mid) (second : applyEvents right mid = some l')
    : applyEvents (left ++ right) l = some l' := by
  simp only [applyEvents] at *
  rw [eventLog.execAll_append, first, Option.bind_some, second]

theorem applyEvents_single (step : l.Step event l') : applyEvents [event] l = some l' :=
  applyEvents_cons.mpr ⟨l', step, rfl⟩

theorem Step.journal (step : l.Step event l') : l'.journal = l.journal ++ [event] := by
  cases step <;> rfl

theorem applyEvents_journal (ran : applyEvents events l = some l')
    : l'.journal = l.journal ++ events := by
  induction events generalizing l with
  | nil =>
      cases ran
      exact (List.append_nil _).symm
  | cons event rest ih =>
      obtain ⟨mid, step, later⟩ := applyEvents_cons.mp ran
      rw [ih later, step.journal, List.append_assoc, List.singleton_append]

/-- What holds of a ledger and survives every step holds after a run. -/
theorem applyEvents_preserves (preserved : ∀ {l event l'}, P l → l.Step event l' → P l')
    (holds : P l) (ran : applyEvents events l = some l')
    : P l' := by
  induction events generalizing l with
  | nil =>
      cases ran
      exact holds
  | cons event rest ih =>
      obtain ⟨mid, step, later⟩ := applyEvents_cons.mp ran
      exact ih (preserved holds step) later

/-- Operations that all succeed are the run of the events they append. -/
theorem applyOps_events (ran : applyOps ops l = some l')
    : ∃ events, applyEvents events l = some l' := by
  induction ops generalizing l with
  | nil =>
      cases ran
      exact ⟨[], rfl⟩
  | cons op rest ih =>
      obtain ⟨mid, first, later⟩ := opLog.execAll_cons_eq_some.mp ran
      obtain ⟨events, applied⟩ := ih later
      exact ⟨op.event l :: events,
        applyEvents_cons.mpr ⟨mid, applyBatchOp_ok_iff.mp first, applied⟩⟩

theorem applyEvents_appended (ran : applyOps ops l = some l')
    : applyEvents (l'.journal.drop l.journal.length) l = some l' := by
  obtain ⟨events, applied⟩ := applyOps_events ran
  rw [applyEvents_journal applied, List.drop_left]
  exact applied

theorem attempt_events : eventLog.attempt events l = .ok l' ↔ applyEvents events l = some l' := by
  rw [applyEvents, ← eventLog_lawful.attempt_toOption]
  cases eventLog.attempt events l <;> simp [Except.toOption]

theorem attempt_ops : opLog.attempt ops l = .ok l' ↔ applyOps ops l = some l' := by
  rw [applyOps, ← opLog_lawful.attempt_toOption]
  cases opLog.attempt ops l <;> simp [Except.toOption]

/-- Committing applies every event or changes nothing. -/
theorem commitEvents_eq (events : List LedgerEvent) (l : Ledger)
    : commitEvents events l
      = match eventLog.attempt events l with
        | .ok l' => .ok () l'
        | .error err => .error err l := by
  obtain ⟨succeeds, fails⟩ := eventLog_lawful.runWithUndo_mark events l
  simp only [commitEvents, applyWithUndo, get_bind]
  cases decided : eventLog.attempt events l with
  | ok l' =>
      obtain ⟨delta, ran, -⟩ := succeeds l' decided
      exact bind_run_of_ok ran
  | error err => exact bind_run_of_error (fails err decided)

theorem commitEvents_ok_iff
    : commitEvents events l = .ok () l' ↔ applyEvents events l = some l' := by
  rw [commitEvents_eq, ← attempt_events]
  cases eventLog.attempt events l <;> simp

/-- Preparing a batch reports what direct execution would append, and changes nothing. -/
theorem prepareBatch_eq (ops : List BatchOp) (l : Ledger)
    : prepareBatch ops l
      = match opLog.attempt ops l with
        | .ok l' => .ok (l'.journal.drop l.journal.length) l
        | .error err => .error err l := by
  obtain ⟨succeeds, fails⟩ := opLog_lawful.runWithUndo_mark ops l
  simp only [prepareBatch, get_bind]
  cases decided : opLog.attempt ops l with
  | ok l' =>
      obtain ⟨delta, ran, restored⟩ := succeeds l' decided
      refine (bind_run_of_ok ran).trans ?_
      simp only [get_bind, modify_bind]
      exact congrArg (EStateM.Result.ok _) restored
  | error err => exact bind_run_of_error (fails err decided)

/-- Preparing transactions gives the direct run's results, and changes nothing. -/
theorem prepareTransactions_eq (txs : List (List BatchOp)) (l : Ledger)
    : prepareTransactions txs l = ((opLog.attemptAll txs l).1, l) := by
  obtain ⟨delta, reverts, ran⟩ := opLog_lawful.runTransactions_spec txs [] l
  have restored := reverts.restores opLog_lawful
  simp only [prepareTransactions, ran, List.nil_append]
  exact congrArg (Prod.mk _) restored

theorem replay_ok_iff : replay scale events = .ok l ↔ applyEvents events (.new scale) = some l := by
  rw [applyEvents, ← eventLog.forM_exec_ok_iff, replay]
  change _ ↔ events.forM applyEvent (new scale) = .ok () l
  cases (events.forM applyEvent : LedgerM Unit) (new scale) <;> simp

/-- A call of a public mutator, with arbitrary arguments. -/
inductive Mutation where
  | createAccount (id : AccountId) (accountType : AccountType) (flags : AccountFlags)
    (scale : Scale) (timestamp : U64)
  | closeAccount (id : AccountId) (timestamp : U64)
  | createTransfer (transfer : Transfer)
  | createPending (transfer : Transfer)
  | postPending (pendingId postTransferId : TransferId) (amount : Amount) (timestamp : U64)
  | voidPending (pendingId : TransferId) (timestamp : U64)
  | applyBatch (transfers : List Transfer)
  | prepareTransfers (transfers : List Transfer)
  | prepareBatch (ops : List BatchOp)
  | prepareBatchResults (ops : List BatchOp)
  | prepareTransactions (txs : List (List BatchOp))
  | commitEvents (events : List LedgerEvent)

/-- The ledger a call leaves behind, whether it succeeds or fails. -/
def Mutation.run : Mutation → Ledger → Ledger
  | .createAccount id accountType flags scale timestamp, l =>
      stateAfter (Ledger.createAccount id accountType flags scale timestamp l)
  | .closeAccount id timestamp, l => stateAfter (Ledger.closeAccount id timestamp l)
  | .createTransfer t, l => stateAfter (Ledger.createTransfer t l)
  | .createPending t, l => stateAfter (Ledger.createPending t l)
  | .postPending pendingId postTransferId amount timestamp, l =>
      stateAfter (Ledger.postPending pendingId postTransferId amount timestamp l)
  | .voidPending pendingId timestamp, l =>
      stateAfter (Ledger.voidPending pendingId timestamp l)
  | .applyBatch transfers, l => stateAfter (Ledger.applyBatch transfers l)
  | .prepareTransfers transfers, l => stateAfter (Ledger.prepareTransfers transfers l)
  | .prepareBatch ops, l => stateAfter (Ledger.prepareBatch ops l)
  | .prepareBatchResults ops, l => (Ledger.prepareBatchResults ops l).2
  | .prepareTransactions txs, l => (Ledger.prepareTransactions txs l).2
  | .commitEvents events, l => stateAfter (Ledger.commitEvents events l)

/-- Ledgers obtained from the empty one by any finite sequence of public calls. -/
inductive Reachable (scale : Scale) : Ledger → Prop where
  | new : Reachable scale (.new scale)
  | call {l : Ledger} (reached : Reachable scale l) (mutation : Mutation)
    : Reachable scale (mutation.run l)

/-- The events a call tries to append; a preparation appends none. -/
def Mutation.submits (l : Ledger) : Mutation → List LedgerEvent
  | .createAccount id accountType flags scale timestamp =>
      [.accountCreated id accountType flags scale timestamp]
  | .closeAccount id timestamp => [.accountClosed id timestamp]
  | .createTransfer t => [.transferPosted t]
  | .createPending t => [.transferPendingCreated t]
  | .postPending pendingId postTransferId amount timestamp =>
      [.transferPendingPosted pendingId postTransferId amount timestamp]
  | .voidPending pendingId timestamp => [(BatchOp.voidPending pendingId timestamp).event l]
  | .applyBatch transfers => transfers.map .transferPosted
  | .commitEvents events => events
  | .prepareTransfers _ | .prepareBatch _ | .prepareBatchResults _ | .prepareTransactions _ => []

theorem stateAfter_applyBatchOp (op : BatchOp) (l : Ledger)
    : stateAfter (applyBatchOp op l) = l
      ∨ applyEvents [op.event l] l = some (stateAfter (applyBatchOp op l)) := by
  cases ran : applyBatchOp op l with
  | ok _ l' => exact .inr (applyEvents_single (applyBatchOp_ok_iff.mp ran))
  | error err l' => exact .inl (applyBatchOp_atomic op l err l' ran)

theorem stateAfter_commitEvents (events : List LedgerEvent) (l : Ledger)
    : stateAfter (commitEvents events l) = l
      ∨ applyEvents events l = some (stateAfter (commitEvents events l)) := by
  rw [commitEvents_eq]
  cases decided : eventLog.attempt events l with
  | ok l' => exact .inr (attempt_events.mp decided)
  | error err => exact .inl rfl

theorem stateAfter_prepareBatch (ops : List BatchOp) (l : Ledger)
    : stateAfter (prepareBatch ops l) = l := by
  rw [prepareBatch_eq]
  cases opLog.attempt ops l <;> rfl

/-- Every public call applies all it submits, or changes nothing. -/
theorem Mutation.run_submits (mutation : Mutation) (l : Ledger)
    : mutation.run l = l ∨ applyEvents (mutation.submits l) l = some (mutation.run l) := by
  cases mutation with
  | createAccount id accountType flags scale timestamp =>
      exact stateAfter_applyBatchOp (.createAccount id accountType flags scale timestamp) l
  | closeAccount id timestamp => exact stateAfter_applyBatchOp (.closeAccount id timestamp) l
  | createTransfer t => exact stateAfter_applyBatchOp (.transfer t) l
  | createPending t => exact stateAfter_applyBatchOp (.pending t) l
  | postPending pendingId postTransferId amount timestamp =>
      exact stateAfter_applyBatchOp (.postPending pendingId postTransferId amount timestamp) l
  | voidPending pendingId timestamp =>
      exact stateAfter_applyBatchOp (.voidPending pendingId timestamp) l
  | applyBatch transfers => exact stateAfter_commitEvents _ l
  | commitEvents events => exact stateAfter_commitEvents events l
  | prepareTransfers transfers => exact .inl (stateAfter_prepareBatch _ l)
  | prepareBatch ops => exact .inl (stateAfter_prepareBatch ops l)
  | prepareBatchResults ops => exact .inl (congrArg Prod.snd (prepareTransactions_eq _ l))
  | prepareTransactions txs => exact .inl (congrArg Prod.snd (prepareTransactions_eq txs l))

/-- Every public call leaves a ledger that some events lead to. -/
theorem Mutation.run_events (mutation : Mutation) (l : Ledger)
    : ∃ events, applyEvents events l = some (mutation.run l) := by
  rcases mutation.run_submits l with unchanged | applied
  · exact ⟨[], congrArg some unchanged.symm⟩
  · exact ⟨mutation.submits l, applied⟩

/-- A reachable ledger is the run of its own journal. -/
theorem Reachable.applyEvents (reached : Reachable scale l)
    : Ledger.applyEvents l.journal (.new scale) = some l := by
  -- some run leads to `l`, and a run from the empty ledger writes itself down as the journal
  suffices ∃ events, Ledger.applyEvents events (.new scale) = some l by
    obtain ⟨events, applied⟩ := this
    have same : l.journal = events := applyEvents_journal applied
    rwa [same]
  induction reached with
  | new => exact ⟨[], rfl⟩
  | call reached mutation ih =>
      obtain ⟨events, applied⟩ := ih
      obtain ⟨later, more⟩ := mutation.run_events _
      exact ⟨events ++ later, applyEvents_append applied more⟩

/-- An invariant of single steps that the empty ledger has holds of every reachable ledger. -/
theorem Reachable.invariant (preserved : ∀ {l event l'}, P l → l.Step event l' → P l')
    (reached : Reachable scale l) (initial : P (.new scale))
    : P l :=
  applyEvents_preserves preserved initial reached.applyEvents

theorem Step.scale_eq (step : l.Step event l') : l'.scale = l.scale := by
  cases step <;> rfl

theorem Reachable.scale_eq (reached : Reachable scale l) : l.scale = scale :=
  reached.invariant (P := fun l => l.scale = scale)
    (fun kept step => step.scale_eq.trans kept) rfl

/-- The ledger after a sequence of public calls. -/
def Mutation.runFrom (mutations : List Mutation) (l : Ledger) : Ledger :=
  mutations.foldl (fun l mutation => mutation.run l) l

theorem Reachable.runFrom (reached : Reachable scale l) (mutations : List Mutation)
    : Reachable scale (Mutation.runFrom mutations l) := by
  induction mutations generalizing l with
  | nil => exact reached
  | cons mutation rest ih => exact ih (reached.call mutation)

/-- Some events lead from a ledger to where a sequence of public calls leads. -/
theorem Mutation.runFrom_events (mutations : List Mutation) (l : Ledger)
    : ∃ events, applyEvents events l = some (Mutation.runFrom mutations l) := by
  induction mutations generalizing l with
  | nil => exact ⟨[], rfl⟩
  | cons mutation rest ih =>
      obtain ⟨first, ran⟩ := mutation.run_events l
      obtain ⟨later, more⟩ := ih (mutation.run l)
      exact ⟨first ++ later, applyEvents_append ran more⟩

/-- The ledger after a sequence of public calls on the empty one. -/
def Mutation.runAll (scale : Scale) (mutations : List Mutation) : Ledger :=
  runFrom mutations (.new scale)

theorem reachable_runAll (scale : Scale) (mutations : List Mutation)
    : Reachable scale (Mutation.runAll scale mutations) :=
  Reachable.new.runFrom mutations

/-- A customer is funded with 100, holds 50, is refused an overdraft, and 30 of the hold are
captured.
-/
def partialCapture : List Mutation :=
  [.createAccount ⟨1⟩ .asset .unrestricted ⟨2⟩ 10,
    .createAccount ⟨2⟩ .liability .customer ⟨2⟩ 10,
    .createTransfer ⟨⟨10⟩, ⟨1⟩, ⟨2⟩, ⟨100⟩, .posted, none, 11⟩,
    .createPending ⟨⟨11⟩, ⟨2⟩, ⟨1⟩, ⟨50⟩, .pending, none, 12⟩,
    .createTransfer ⟨⟨12⟩, ⟨2⟩, ⟨1⟩, ⟨80⟩, .posted, none, 13⟩,
    .postPending ⟨11⟩ ⟨13⟩ ⟨30⟩ 14]

/-- Replay rebuilds every reachable ledger from its journal, field by field, and accepts only
journals it would itself have written.
-/
theorem replay_journal (scale : Scale)
    : (∀ l, Reachable scale l → replay scale l.journal = .ok l)
      ∧ (∀ events l, replay scale events = .ok l → l.journal = events) :=
  ⟨fun _ reached => replay_ok_iff.mpr reached.applyEvents,
    fun _ _ replayed => applyEvents_journal (replay_ok_iff.mp replayed)⟩

/-- The refused overdraft is not in the journal, and replay rebuilds the rest. -/
theorem replay_partialCapture
    : (Mutation.runAll ⟨2⟩ partialCapture).journal.length = 5
      ∧ replay ⟨2⟩ (Mutation.runAll ⟨2⟩ partialCapture).journal
        = .ok (Mutation.runAll ⟨2⟩ partialCapture) :=
  ⟨by decide, (replay_journal ⟨2⟩).1 _ (reachable_runAll ⟨2⟩ partialCapture)⟩

end Ledger

end TrustLedger.LedgerCore
