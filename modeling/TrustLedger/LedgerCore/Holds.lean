import TrustLedger.LedgerCore.Effects
import TrustLedger.Foundation.Lifecycle

/-! Holds as the journal tells them: which transfer was created as a hold, and whether it was
settled. The stored transfers of a reachable ledger agree with that history.
-/

namespace TrustLedger.LedgerCore

open Foundation

/-- The hold an event creates. -/
def LedgerEvent.hold? : LedgerEvent → Option Transfer
  | .transferPendingCreated t => some t
  | _ => none

/-- Holds are opened by their creation and closed by a capture or a void. -/
def holdLifecycle : Lifecycle LedgerEvent TransferId Transfer :=
  { opens := LedgerEvent.hold?
    key := Transfer.id
    closes := fun event => event.settles.map Prod.fst }

/-- The hold a journal creates under `id`. -/
def holdNamed (journal : List LedgerEvent) (id : TransferId) : Option Transfer :=
  holdLifecycle.opened journal id

/-- A journal captures or voids the hold under `id`. -/
def holdSettled (journal : List LedgerEvent) (id : TransferId) : Bool :=
  holdLifecycle.closed journal id

namespace Ledger

/-- The stored transfers agree with the holds of the journal. -/
structure HoldsJournalled (l : Ledger) : Prop where
  once : holdLifecycle.OpensOnce l.journal
  created
    : ∀ id hold, holdNamed l.journal id = some hold
      → ∃ t, l.transfers[id]? = some t ∧ t = { hold with state := t.state }
  pending
    : ∀ (id : TransferId) (t : Transfer), l.transfers[id]? = some t → t.state = .pending
      → holdNamed l.journal id = some t ∧ holdSettled l.journal id = false
  settled : ∀ id, holdSettled l.journal id = true → (holdNamed l.journal id).isSome

section Steps

variable {l l' : Ledger} {event : LedgerEvent} {id : TransferId} {hold : Transfer}
  {journal : List LedgerEvent}

theorem hold?_of_settles {target : TransferId × TransferState}
    (settles : event.settles = some target)
    : event.hold? = none := by
  cases event with
  | transferPendingCreated t => cases settles
  | _ => rfl

theorem HoldsJournalled.settling {state : TransferState} (journalled : l.HoldsJournalled)
    (step : l.Step event l') (settles : event.settles = some (id, state))
    : ∃ hold, l.transfers[id]? = some hold ∧ holdNamed l.journal id = some hold
        ∧ holdSettled l.journal id = false := by
  obtain ⟨hold, found, pending, -⟩ := step.settles_pending settles
  exact ⟨hold, found, journalled.pending id hold found pending⟩

theorem Step.hold?_pending (step : l.Step event l') (creates : event.hold? = some hold)
    : hold.state = .pending := by
  cases step with
  | transferPendingCreated inOrder pending fresh legs =>
      cases creates
      exact pending
  | _ => cases creates

theorem HoldsJournalled.unused (journalled : l.HoldsJournalled) (step : l.Step event l')
    (creates : event.hold? = some hold)
    : l.recorded event = some hold ∧ holdNamed l.journal hold.id = none := by
  have records : l.recorded event = some hold := by
    cases event with
    | transferPendingCreated t => exact creates
    | _ => cases creates
  refine ⟨records, ?_⟩
  cases named : holdNamed l.journal hold.id with
  | none => rfl
  | some other =>
      obtain ⟨t, found, -⟩ := journalled.created hold.id other named
      rw [step.recorded_unused records] at found
      cases found

theorem holdNamed_append_of_some (event : LedgerEvent) (there : holdNamed journal id = some hold)
    : holdNamed (journal ++ [event]) id = some hold :=
  Lifecycle.opened_append_of_some _ there

/-- A hold named after an event was named before, or the event creates it. -/
theorem holdNamed_append (named : holdNamed (journal ++ [event]) id = some hold)
    : holdNamed journal id = some hold ∨ event.hold? = some hold ∧ hold.id = id := by
  rw [holdNamed, Lifecycle.opened_append] at named
  rcases Option.or_eq_some_iff.mp named with before | ⟨-, now⟩
  · exact .inl before
  · cases creates : event.hold? with
    | none =>
        rw [Lifecycle.opened_cons_of_none creates] at now
        cases now
    | some other =>
        rw [Lifecycle.opened_single creates] at now
        split at now
        · rename_i same
          cases now
          exact .inr ⟨rfl, same⟩
        · cases now

theorem holdSettled_append
    : holdSettled (journal ++ [event]) id = true
      ↔ holdSettled journal id = true ∨ ∃ state, event.settles = some (id, state) := by
  rw [holdSettled, Lifecycle.closed_append_single]
  simp [holdSettled, holdLifecycle]

theorem holdNamed_created (unused : holdNamed journal hold.id = none)
    (creates : event.hold? = some hold)
    : holdNamed (journal ++ [event]) hold.id = some hold := by
  rw [holdNamed] at unused
  rw [holdNamed, Lifecycle.opened_append, unused, Option.none_or,
    Lifecycle.opened_single creates]
  exact if_pos rfl

/-- Every accepted event keeps the stored transfers in agreement with the journal. -/
theorem HoldsJournalled.step (journalled : l.HoldsJournalled) (step : l.Step event l')
    : l'.HoldsJournalled := by
  refine { once := ?_, created := ?_, pending := ?_, settled := ?_ }
  · rw [step.journal]
    cases creates : event.hold? with
    | none => exact journalled.once.append_silent creates
    | some hold =>
        exact journalled.once.append_open creates (journalled.unused step creates).2
  · intro id hold named
    rw [step.journal] at named
    rcases holdNamed_append named with before | ⟨creates, rfl⟩
    · obtain ⟨t, found, same⟩ := journalled.created id hold before
      refine ⟨_, step.transfer_kept found, ?_⟩
      rw [event.restate_eq, same]
    · exact ⟨hold, step.recorded_stored (journalled.unused step creates).1, rfl⟩
  · intro id t found pending
    rw [step.journal]
    rcases step.transfer_origin found with ⟨records, rfl⟩ | ⟨before, there, rfl⟩
    · obtain rfl := step.recorded_pending records pending
      have unused := (journalled.unused step rfl).2
      refine ⟨holdNamed_created unused rfl, Bool.eq_false_iff.mpr fun settled => ?_⟩
      rcases holdSettled_append.mp settled with earlier | ⟨state, settles⟩
      · have named := journalled.settled t.id earlier
        rw [unused] at named
        cases named
      · cases settles
    · obtain ⟨same, unsettled⟩ := step.restate_pending pending
      rw [same] at pending ⊢
      obtain ⟨named, isOpen⟩ := journalled.pending id before there pending
      refine ⟨holdNamed_append_of_some event named, Bool.eq_false_iff.mpr fun settled => ?_⟩
      rcases holdSettled_append.mp settled with earlier | ⟨state, settles⟩
      · rw [isOpen] at earlier
        cases earlier
      · exact unsettled state settles
  · intro id settled
    rw [step.journal] at settled ⊢
    have named : (holdNamed l.journal id).isSome := by
      rcases holdSettled_append.mp settled with before | ⟨state, settles⟩
      · exact journalled.settled id before
      · obtain ⟨hold, -, named, -⟩ := journalled.settling step settles
        rw [named, Option.isSome_some]
    obtain ⟨hold, there⟩ := Option.isSome_iff_exists.mp named
    rw [holdNamed_append_of_some event there, Option.isSome_some]

end Steps

theorem holdsJournalled_new (scale : Scale) : (new scale).HoldsJournalled := by
  refine { once := List.nodup_nil, created := ?_, pending := ?_, settled := ?_ }
  · intro id hold named
    cases named
  · intro id t found
    simp [new] at found
  · intro id settled
    cases settled

variable {scale : Scale} {l : Ledger}

theorem Reachable.holdsJournalled (reached : Reachable scale l) : l.HoldsJournalled :=
  reached.invariant HoldsJournalled.step (holdsJournalled_new scale)

/-- What steps from backed ledgers with journalled holds preserve holds of every reachable
ledger.
-/
theorem Reachable.invariant_journalled {P : Ledger → Prop} (preserved
      : ∀ {l event l'}, l.Backed → l.HoldsJournalled → P l → l.Step event l' → P l')
    (reached : Reachable scale l) (initial : P (.new scale))
    : P l := by
  have both : l.HoldsJournalled ∧ P l := by
    refine reached.invariant_backed (P := fun l => l.HoldsJournalled ∧ P l) ?_
      ⟨holdsJournalled_new scale, initial⟩
    intro l event l' backed holds step
    exact ⟨holds.1.step step, preserved backed holds.1 holds.2 step⟩
  exact both.2

end Ledger

end TrustLedger.LedgerCore
