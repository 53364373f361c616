import TrustLedger.LedgerCore.Runs

/-! Event batches apply atomically: a refused batch leaves the ledger as it was, whatever its
events are, and an accepted one does what the ordinary mutators do one event at a time.
-/

namespace TrustLedger.LedgerCore

open Foundation

namespace Ledger

/-- The call of an ordinary mutator that an event records. -/
def mutate : LedgerEvent → LedgerM Unit
  | .accountCreated id accountType flags scale timestamp =>
      createAccount id accountType flags scale timestamp
  | .accountClosed id timestamp => closeAccount id timestamp
  | .transferPosted t => createTransfer t
  | .transferPendingCreated t => createPending t
  | .transferPendingPosted pendingId postTransferId amount timestamp =>
      postPending pendingId postTransferId amount timestamp
  | .transferPendingVoided pendingId _ timestamp => voidPending pendingId timestamp

/-- An accepted event is an accepted call. Witness: only a void is checked further, for the amount
the mutator does not take.
-/
theorem mutate_of_step {l l' : Ledger} {event : LedgerEvent} (step : l.Step event l')
    : mutate event l = .ok () l' := by
  have ran := applyEvent_ok_iff.mpr step
  cases event with
  | transferPendingVoided pendingId amount timestamp => exact (applyEvent_voided_ok_iff.mp ran).2
  | _ => exact ran

theorem forM_mutate {events : List LedgerEvent} {l l' : Ledger}
    (ran : applyEvents events l = some l')
    : (events.forM mutate : LedgerM Unit) l = .ok () l' := by
  induction events generalizing l with
  | nil =>
      cases ran
      rfl
  | cons event rest ih =>
      obtain ⟨mid, step, later⟩ := applyEvents_cons.mp ran
      exact (bind_run_of_ok (mutate_of_step step)).trans (ih later)

/-- A batch call against the same items one by one: it changes nothing if it fails, it does what
the single calls do if it succeeds, and its error is that of the first item that is refused.
-/
structure AllOrNothing {α : Type} (batch : List α → LedgerM Unit) (single : α → LedgerM Unit)
    (l : Ledger) (items : List α)
    : Prop where
  refused : ∀ err l', batch items l = .error err l' → l' = l
  accepted : ∀ l', batch items l = .ok () l' → (items.forM single : LedgerM Unit) l = .ok () l'
  blamed
    : ∀ err l', batch items l = .error err l'
      → ∃ done item rest mid,
          items = done ++ item :: rest
          ∧ (done.forM single : LedgerM Unit) l = .ok () mid
          ∧ batch [item] mid = .error err mid

theorem commitEvents_error {events : List LedgerEvent} {l l' : Ledger} {err : LedgerError}
    (failed : commitEvents events l = .error err l')
    : l' = l ∧ eventLog.attempt events l = .error err := by
  rw [commitEvents_eq] at failed
  cases decided : eventLog.attempt events l with
  | ok after =>
      rw [decided] at failed
      cases failed
  | error reason =>
      rw [decided] at failed
      cases failed
      exact ⟨rfl, rfl⟩

theorem commitEvents_allOrNothing (l : Ledger) (events : List LedgerEvent)
    : AllOrNothing commitEvents mutate l events where
  refused err l' failed := (commitEvents_error failed).1
  accepted l' ran := forM_mutate (commitEvents_ok_iff.mp ran)
  blamed err l' failed := by
    obtain ⟨done, event, rest, mid, split, applied, blamed⟩ :=
      eventLog_lawful.attempt_error (commitEvents_error failed).2
    refine ⟨done, event, rest, mid, split, forM_mutate applied, ?_⟩
    rw [commitEvents_eq, blamed]

/-- Transfers are committed as the events that post them. -/
theorem applyBatch_allOrNothing (l : Ledger) (transfers : List Transfer)
    : AllOrNothing applyBatch createTransfer l transfers := by
  obtain ⟨refused, accepted, blamed⟩ :=
    commitEvents_allOrNothing l (transfers.map .transferPosted)
  have same (some : List Transfer)
      : ((some.map LedgerEvent.transferPosted).forM mutate : LedgerM Unit)
        = some.forM createTransfer := by
    induction some with
    | nil => rfl
    | cons t rest ih => exact congrArg (createTransfer t >>= fun _ => ·) ih
  refine ⟨refused, fun l' ran => same transfers ▸ accepted l' ran, fun err l' failed => ?_⟩
  obtain ⟨done, event, rest, mid, split, ran, alone⟩ := blamed err l' failed
  obtain ⟨front, back, rfl, rfl, ending⟩ := List.map_eq_append_iff.mp split
  obtain ⟨t, others, rfl, rfl, -⟩ := List.map_eq_cons_iff.mp ending
  exact ⟨front, t, others, mid, rfl, same front ▸ ran, alone⟩

/-- On every ledger, batches of arbitrary events and batches of arbitrary transfers apply
atomically.
-/
theorem batches_all_or_nothing (l : Ledger)
    : (∀ events, AllOrNothing commitEvents mutate l events)
      ∧ ∀ transfers, AllOrNothing applyBatch createTransfer l transfers :=
  ⟨commitEvents_allOrNothing l, applyBatch_allOrNothing l⟩

end Ledger

end TrustLedger.LedgerCore
