import TrustLedger.LedgerCore.Effects

/-! Events are applied at most once. Each event leaves something behind that refuses it from
then on: the account exists, the account is closed, the id is used, or the hold is settled.
-/

namespace TrustLedger.LedgerCore

open Foundation

namespace Ledger

/-- What an applied event leaves behind. -/
def Spent (l : Ledger) : LedgerEvent → Prop
  | .accountCreated id _ _ _ _ => l.accounts[id]?.isSome
  | .accountClosed id _ => ∃ account, l.accounts[id]? = some account ∧ account.flags.isClosed
  | .transferPosted t => l.transfers[t.id]?.isSome
  | .transferPendingCreated t => l.transfers[t.id]?.isSome
  | .transferPendingPosted _ postTransferId _ _ => l.transfers[postTransferId]?.isSome
  | .transferPendingVoided pendingId _ _ =>
      ∃ hold, l.transfers[pendingId]? = some hold ∧ hold.state ≠ .pending

section Steps

variable {l l' : Ledger} {event : LedgerEvent}

theorem Spent.not_step (spent : l.Spent event) : ¬ l.Step event l' := by
  intro step
  cases step with
  | accountCreated inOrder unused => simp [Spent, unused] at spent
  | accountClosed inOrder found isOpen =>
      obtain ⟨account, there, closed⟩ := spent
      cases found.symm.trans there
      rw [isOpen] at closed
      cases closed
  | transferPosted inOrder posted fresh linked legs => simp [Spent, fresh.unused] at spent
  | transferPendingCreated inOrder pending fresh legs => simp [Spent, fresh.unused] at spent
  | transferPendingPosted post => simp [Spent, post.unused] at spent
  | transferPendingVoided inOrder found pending reserved =>
      obtain ⟨hold, there, settled⟩ := spent
      cases found.symm.trans there
      exact settled pending

theorem Step.spends (step : l.Step event l') : l'.Spent event := by
  have stored {t : Transfer} (records : l.recorded event = some t)
      : l'.transfers[t.id]?.isSome := by
    rw [step.recorded_stored records, Option.isSome_some]
  cases event with
  | accountCreated id accountType flags scale timestamp =>
      cases step
      simp [Spent, logged]
  | accountClosed id timestamp =>
      cases step with
      | @accountClosed _ account _ inOrder found isOpen =>
          exact ⟨{ account with flags := { account.flags with isClosed := true } },
            by simp [logged, found], rfl⟩
  | transferPosted t => exact stored rfl
  | transferPendingCreated t => exact stored rfl
  | transferPendingPosted pendingId postTransferId amount timestamp =>
      obtain ⟨hold, found, -, -⟩ := step.settles_pending rfl
      exact stored (t := settlementOf hold pendingId postTransferId amount timestamp)
        (by simp [recorded, found])
  | transferPendingVoided pendingId amount timestamp =>
      obtain ⟨hold, found, -, -⟩ := step.settles_pending rfl
      refine ⟨_, step.transfer_kept found, ?_⟩
      simp [LedgerEvent.restate_settled (.transferPendingVoided _ _ _) rfl]

theorem Spent.step {other : LedgerEvent} (spent : l.Spent event) (backed : l.Backed)
    (step : l.Step other l')
    : l'.Spent event := by
  cases event with
  | accountCreated id accountType flags scale timestamp => exact step.account_isSome spent
  | accountClosed id timestamp =>
      obtain ⟨account, found, closed⟩ := spent
      obtain ⟨after, now, shifted⟩ := step.account_kept backed found
      exact ⟨after, now, shifted.closed closed⟩
  | transferPosted t => exact step.transfer_isSome spent
  | transferPendingCreated t => exact step.transfer_isSome spent
  | transferPendingPosted pendingId postTransferId amount timestamp =>
      exact step.transfer_isSome spent
  | transferPendingVoided pendingId amount timestamp =>
      obtain ⟨hold, found, settled⟩ := spent
      exact ⟨hold, step.settled_kept found settled, settled⟩

end Steps

variable {l : Ledger} {event : LedgerEvent} {events : List LedgerEvent} {scale : Scale}

/-- A run that reaches a spent event stops there. Witness: the events before it leave it
spent.
-/
theorem Spent.refuses (spent : l.Spent event) (backed : l.Backed) (mem : event ∈ events)
    : applyEvents events l = none := by
  rw [Option.eq_none_iff_forall_ne_some]
  intro l' ran
  induction events generalizing l with
  | nil => cases mem
  | cons first rest ih =>
      obtain ⟨mid, step, later⟩ := applyEvents_cons.mp ran
      rcases List.mem_cons.mp mem with here | there
      · subst here
        exact spent.not_step step
      · exact ih (spent.step backed step) (backed.step step) there later

theorem Spent.commit_fails (spent : l.Spent event) (backed : l.Backed) (mem : event ∈ events)
    : ∃ err, commitEvents events l = .error err l := by
  have refused := spent.refuses backed mem
  rw [commitEvents_eq]
  cases decided : eventLog.attempt events l with
  | ok l' =>
      rw [attempt_events.mp decided] at refused
      cases refused
  | error err => exact ⟨err, rfl⟩

/-- The whole journal of a ledger is spent, and no event stands in it twice. -/
structure OnceOnly (l : Ledger) : Prop where
  spent : ∀ event ∈ l.journal, l.Spent event
  once : l.journal.Nodup

theorem OnceOnly.step {l' : Ledger} (onceOnly : l.OnceOnly) (backed : l.Backed)
    (step : l.Step event l')
    : l'.OnceOnly := by
  refine ⟨?_, ?_⟩
  · intro earlier mem
    rw [step.journal, List.mem_append, List.mem_singleton] at mem
    rcases mem with before | now
    · exact (onceOnly.spent earlier before).step backed step
    · rw [now]
      exact step.spends
  · have absent : event ∉ l.journal := fun mem => (onceOnly.spent event mem).not_step step
    rw [step.journal, List.nodup_append]
    refine ⟨onceOnly.once, List.nodup_singleton event, ?_⟩
    intro earlier mem other last same
    rw [List.mem_singleton] at last
    rw [same, last] at mem
    exact absent mem

theorem Reachable.onceOnly (reached : Reachable scale l) : l.OnceOnly := by
  refine reached.invariant_backed (fun backed onceOnly step => onceOnly.step backed step)
    ⟨?_, List.nodup_nil⟩
  intro event mem
  cases mem

/-- Committing anything a reachable ledger has already applied fails and changes nothing. -/
theorem Reachable.commit_fails (reached : Reachable scale l) (mem : event ∈ l.journal)
    (given : event ∈ events)
    : ∃ err, commitEvents events l = .error err l :=
  (reached.onceOnly.spent event mem).commit_fails reached.backed given

/-- Every event is applied at most once: a commit of anything already in the journal fails and
changes nothing, no journal holds an event twice, and a batch that was committed, or any list
with one of its events, is refused unchanged after any later run.
-/
theorem events_applied_once {scale : Scale} {l : Ledger} (reached : Reachable scale l)
    : (∀ event ∈ l.journal, ∀ events, event ∈ events
        → ∃ err, commitEvents events l = .error err l)
      ∧ l.journal.Nodup
      ∧ ∀ batch committed, commitEvents batch l = .ok () committed → ∀ mutations,
          ∀ event ∈ batch, ∀ events, event ∈ events
            → ∃ err, commitEvents events (Mutation.runFrom mutations committed)
                = .error err (Mutation.runFrom mutations committed) := by
  refine ⟨?_, reached.onceOnly.once, ?_⟩
  · intro event mem events given
    exact reached.commit_fails mem given
  · intro batch committed commits mutations event mem events given
    have reachedNow : Reachable scale committed := by
      have called := reached.call (.commitEvents batch)
      rwa [Mutation.run, commits] at called
    obtain ⟨more, ran⟩ := Mutation.runFrom_events mutations committed
    have recorded : event ∈ (Mutation.runFrom mutations committed).journal := by
      rw [applyEvents_journal ran, applyEvents_journal (commitEvents_ok_iff.mp commits)]
      exact List.mem_append_left _ (List.mem_append_right _ mem)
    exact (reachedNow.runFrom mutations).commit_fails recorded given

/-- The journal of a partial capture cannot be committed again. -/
theorem events_applied_once_partialCapture
    : ∃ err, commitEvents (Mutation.runAll ⟨2⟩ partialCapture).journal
          (Mutation.runAll ⟨2⟩ partialCapture)
        = .error err (Mutation.runAll ⟨2⟩ partialCapture) :=
  (events_applied_once (reachable_runAll ⟨2⟩ partialCapture)).1
    (.transferPendingPosted ⟨11⟩ ⟨13⟩ ⟨30⟩ 14) (by decide) _ (by decide)

end Ledger

end TrustLedger.LedgerCore
