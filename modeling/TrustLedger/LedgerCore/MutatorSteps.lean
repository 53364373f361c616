import TrustLedger.LedgerCore.Transitions

/-! The six mutators, and with them journal events and batch operations, are accepted exactly
along `Step` and otherwise leave the ledger untouched.
-/

namespace TrustLedger.LedgerCore

open Foundation

namespace Ledger

variable {l l' : Ledger} {t : Transfer} {newDebits newCredits : Amount}

theorem updateBalance_run {id : AccountId} {a : Account} (f : Balance → Balance)
    (found : l.accounts[id]? = some a)
    : updateBalance id f l = .ok () (l.withBalance id f) := by
  simp only [updateBalance, get_bind, check_bind, getAccount_eq_ok.mpr found, modify_run,
    withBalance]

/-- Both balance writes succeed when both accounts exist; the first keeps the second's
account in place.
-/
theorem updateLegs_run {β : Type} {debit credit : Account} (f g : Balance → Balance)
    (k : Unit → LedgerM β) (debitFound : l.accounts[t.debitAccountId]? = some debit)
    (creditFound : l.accounts[t.creditAccountId]? = some credit)
    : (do updateBalance t.debitAccountId f; updateBalance t.creditAccountId g >>= k) l
      = k () (l.withLegs t f g) := by
  rw [bind_run_of_ok (updateBalance_run f debitFound)]
  have kept : ∃ a, (l.withBalance t.debitAccountId f).accounts[t.creditAccountId]? = some a := by
    simp only [withBalance, Std.ExtTreeMap.getElem?_modify]
    split <;> simp_all
  obtain ⟨a, kept⟩ := kept
  exact bind_run_of_ok (updateBalance_run g kept)

theorem transitionTransfer_run {id : TransferId} {target : TransferState}
    (found : l.transfers[id]? = some t) (pending : t.state = .pending) (moves : target ≠ .pending)
    : transitionTransfer id target l = .ok () (l.withMoved id { t with state := target }) := by
  simp only [transitionTransfer, get_bind, check_bind, getTransfer_eq_ok.mpr found,
    t.transitionTo_pending target pending moves, modify_run, withMoved]

theorem createAccount_planned (id : AccountId) (accountType : AccountType)
    (flags : AccountFlags) (scale : Scale) (timestamp : U64)
    : Planned (createAccount id accountType flags scale timestamp)
        (fun l => l.admitAccount id scale timestamp)
        (fun _ l =>
          logged { l with accounts := l.accounts.insert id (.new id accountType flags scale) }
            (.accountCreated id accountType flags scale timestamp) timestamp) where
  rejects rejected := by
    simp only [createAccount, get_bind, check_bind, rejected]
  accepts {l _} accepted := by
    have inOrder : l.lastTimestamp ≤ timestamp := by
      simp only [admitAccount, bind_eq_ok, checkTimestamp_eq_ok, exists_const] at accepted
      exact accepted.1
    simp only [createAccount, get_bind, check_bind, accepted, modify_bind, advanceTimestamp,
      pushEvent, modify_run, logged, max_eq_right inOrder]

theorem closeAccount_planned (id : AccountId) (timestamp : U64)
    : Planned (closeAccount id timestamp) (fun l => l.admitClosure id timestamp)
        (fun _ l =>
          logged
            { l with
              accounts := l.accounts.modify id fun a =>
                { a with flags := { a.flags with isClosed := true } } }
            (.accountClosed id timestamp) timestamp) where
  rejects rejected := by
    simp only [closeAccount, get_bind, check_bind, rejected]
  accepts {l _} accepted := by
    have inOrder : l.lastTimestamp ≤ timestamp := by
      simp only [admitClosure, bind_eq_ok, checkTimestamp_eq_ok, exists_const] at accepted
      exact accepted.1
    simp only [closeAccount, get_bind, check_bind, accepted, modify_bind, advanceTimestamp,
      pushEvent, modify_run, logged, max_eq_right inOrder]

theorem admitTransfer_eq_ok
    : l.admitTransfer t = .ok (newDebits, newCredits)
      ↔ l.lastTimestamp ≤ t.timestamp
        ∧ t.state = .posted
        ∧ l.Fresh t
        ∧ l.LinkPosted t
        ∧ l.Legs t Balance.debitsPosted Balance.creditsPosted newDebits newCredits := by
  simp only [admitTransfer, bind_eq_ok, checkTimestamp_eq_ok, ensure_eq_ok, exists_const,
    validateNewTransfer_eq_ok, validatePendingLink_eq_ok, admitLegs_eq_ok]

theorem admitPending_eq_ok
    : l.admitPending t = .ok (newDebits, newCredits)
      ↔ l.lastTimestamp ≤ t.timestamp
        ∧ t.state = .pending
        ∧ l.Fresh t
        ∧ l.Legs t Balance.debitsPending Balance.creditsPending newDebits newCredits := by
  simp only [admitPending, bind_eq_ok, checkTimestamp_eq_ok, ensure_eq_ok, exists_const,
    validateNewTransfer_eq_ok, admitLegs_eq_ok]

theorem createTransfer_planned (t : Transfer)
    : Planned (createTransfer t) (fun l => l.admitTransfer t)
        (fun raised l =>
          ((l.withLegs t (fun b => { b with debitsPosted := raised.1 })
            (fun b => { b with creditsPosted := raised.2 })).withTransfer t).logged
              (.transferPosted t) t.timestamp) where
  rejects rejected := by
    simp only [createTransfer, get_bind, check_bind, rejected]
  accepts {l raised} accepted := by
    obtain ⟨inOrder, -, -, -, ⟨debit, debitFound, -⟩, ⟨credit, creditFound, -⟩⟩ :=
      admitTransfer_eq_ok.mp accepted
    simp only [createTransfer, get_bind, check_bind, accepted]
    rw [updateLegs_run _ _ _ debitFound creditFound]
    simp only [advanceTimestamp, insertTransfer, pushEvent, modify_bind, modify_run, logged,
      withTransfer, withLegs, withBalance, max_eq_right inOrder]

theorem createPending_planned (t : Transfer)
    : Planned (createPending t) (fun l => l.admitPending t)
        (fun raised l =>
          ((l.withLegs t (fun b => { b with debitsPending := raised.1 })
            (fun b => { b with creditsPending := raised.2 })).withTransfer t).logged
              (.transferPendingCreated t) t.timestamp) where
  rejects rejected := by
    simp only [createPending, get_bind, check_bind, rejected]
  accepts {l raised} accepted := by
    obtain ⟨inOrder, -, -, ⟨debit, debitFound, -⟩, ⟨credit, creditFound, -⟩⟩ :=
      admitPending_eq_ok.mp accepted
    simp only [createPending, get_bind, check_bind, accepted]
    rw [updateLegs_run _ _ _ debitFound creditFound]
    simp only [advanceTimestamp, insertTransfer, pushEvent, modify_bind, modify_run, logged,
      withTransfer, withLegs, withBalance, max_eq_right inOrder]

theorem postPending_planned (pendingId postTransferId : TransferId) (amount : Amount)
    (timestamp : U64)
    : Planned (postPending pendingId postTransferId amount timestamp)
        (fun l => l.admitPost pendingId postTransferId amount timestamp)
        (fun plan l =>
          (((l.withLegs plan.hold
            (fun b =>
              { b with
                debitsPending := plan.debitsPending, debitsPosted := plan.debitsPosted })
            (fun b =>
              { b with
                creditsPending := plan.creditsPending, creditsPosted := plan.creditsPosted })
            ).withMoved pendingId { plan.hold with state := .posted }).withTransfer
              plan.settlement).logged
                (.transferPendingPosted pendingId postTransferId amount timestamp)
                timestamp) where
  rejects rejected := by
    simp only [postPending, get_bind, check_bind, rejected]
  accepts {l plan} accepted := by
    have post := admitPost_eq_ok.mp accepted
    obtain ⟨debit, credit, reserved, -⟩ := post.reserved
    simp only [postPending, get_bind, check_bind, accepted]
    rw [updateLegs_run _ _ _ reserved.debitFound reserved.creditFound,
      bind_run_of_ok (transitionTransfer_run (l := l.withLegs plan.hold _ _) post.found
        post.pending (by decide))]
    simp only [advanceTimestamp, insertTransfer, pushEvent, modify_bind, modify_run, logged,
      withTransfer, withMoved, withLegs, withBalance, max_eq_right post.inOrder]

theorem voidPending_planned (pendingId : TransferId) (timestamp : U64)
    : Planned (voidPending pendingId timestamp) (fun l => l.admitVoid pendingId timestamp)
        (fun released l =>
          ((l.withLegs released.1 (fun b => { b with debitsPending := released.2.1 })
            (fun b => { b with creditsPending := released.2.2 })).withMoved pendingId
              { released.1 with state := .voided }).logged
                (.transferPendingVoided pendingId released.1.amount timestamp) timestamp) where
  rejects rejected := by
    simp only [voidPending, get_bind, check_bind, rejected]
  accepts {l released} accepted := by
    obtain ⟨inOrder, found, pending, debit, credit, reserved⟩ := admitVoid_eq_ok.mp accepted
    simp only [voidPending, get_bind, check_bind, accepted]
    rw [updateLegs_run _ _ _ reserved.debitFound reserved.creditFound,
      bind_run_of_ok (transitionTransfer_run (l := l.withLegs released.1 _ _) found pending
        (by decide))]
    simp only [advanceTimestamp, pushEvent, modify_bind, modify_run, logged, withMoved,
      withLegs, withBalance, max_eq_right inOrder]

/-- The void branch of an event re-checks the amount and then runs the mutator. -/
theorem applyEvent_voided_ok_iff {pendingId : TransferId} {amount : Amount} {timestamp : U64}
    : applyEvent (.transferPendingVoided pendingId amount timestamp) l = .ok () l'
      ↔ (∃ hold, l.transfers[pendingId]? = some hold ∧ hold.amount = amount)
        ∧ voidPending pendingId timestamp l = .ok () l' := by
  simp only [applyEvent, get_bind, check_bind]
  cases decided : l.admitVoidedAmount pendingId amount with
  | error _ =>
      simp only [reduceCtorEq, false_iff, not_and]
      rintro ⟨hold, found, same⟩
      have accepted : l.admitVoidedAmount pendingId amount = .ok () := by
        simp [admitVoidedAmount, bind_eq_ok, found, same]
      rw [accepted] at decided
      cases decided
  | ok _ =>
      simp only [admitVoidedAmount, bind_eq_ok, getTransfer_eq_ok, ensure_eq_ok] at decided
      exact (and_iff_right decided).symm

/-- An event is accepted exactly along a `Step`. Witness: each mutator's checks are the
constructor's guards, and its writes the constructor's result.
-/
theorem applyEvent_ok_iff {event : LedgerEvent}
    : applyEvent event l = .ok () l' ↔ l.Step event l' := by
  cases event with
  | accountCreated id accountType flags scale timestamp =>
      simp only [applyEvent, (createAccount_planned _ _ _ _ _).ok_iff, admitAccount,
        bind_eq_ok, checkTimestamp_eq_ok, ensure_eq_ok, exists_const,
        Option.isNone_iff_eq_none]
      constructor
      · rintro ⟨⟨inOrder, unused, rfl⟩, rfl⟩
        exact .accountCreated inOrder unused
      · rintro ⟨inOrder, unused⟩
        exact ⟨⟨inOrder, unused, rfl⟩, rfl⟩
  | accountClosed id timestamp =>
      simp only [applyEvent, (closeAccount_planned _ _).ok_iff, admitClosure, bind_eq_ok,
        checkTimestamp_eq_ok, getAccount_eq_ok, ensure_eq_ok, exists_const]
      constructor
      · rintro ⟨⟨inOrder, account, found, isOpen⟩, rfl⟩
        exact .accountClosed inOrder found isOpen
      · intro step
        cases step with
        | accountClosed inOrder found isOpen => exact ⟨⟨inOrder, _, found, isOpen⟩, rfl⟩
  | transferPosted t =>
      simp only [applyEvent, (createTransfer_planned _).ok_iff, Prod.exists,
        admitTransfer_eq_ok]
      constructor
      · rintro ⟨_, _, ⟨inOrder, posted, fresh, linked, legs⟩, rfl⟩
        exact .transferPosted inOrder posted fresh linked legs
      · intro step
        cases step with
        | transferPosted inOrder posted fresh linked legs =>
            exact ⟨_, _, ⟨inOrder, posted, fresh, linked, legs⟩, rfl⟩
  | transferPendingCreated t =>
      simp only [applyEvent, (createPending_planned _).ok_iff, Prod.exists,
        admitPending_eq_ok]
      constructor
      · rintro ⟨_, _, ⟨inOrder, pending, fresh, legs⟩, rfl⟩
        exact .transferPendingCreated inOrder pending fresh legs
      · intro step
        cases step with
        | transferPendingCreated inOrder pending fresh legs =>
            exact ⟨_, _, ⟨inOrder, pending, fresh, legs⟩, rfl⟩
  | transferPendingPosted pendingId postTransferId amount timestamp =>
      simp only [applyEvent, (postPending_planned _ _ _ _).ok_iff, admitPost_eq_ok]
      constructor
      · rintro ⟨_, post, rfl⟩
        exact .transferPendingPosted post
      · intro step
        cases step with
        | transferPendingPosted post => exact ⟨_, post, rfl⟩
  | transferPendingVoided pendingId amount timestamp =>
      simp only [applyEvent_voided_ok_iff, (voidPending_planned _ _).ok_iff, Prod.exists,
        admitVoid_eq_ok]
      constructor
      · rintro ⟨⟨_, found, rfl⟩, hold, _, _, ⟨inOrder, found', pending, debit, credit, reserved⟩,
          rfl⟩
        obtain rfl : _ = hold := Option.some.inj (found.symm.trans found')
        exact .transferPendingVoided inOrder found pending reserved
      · intro step
        cases step with
        | transferPendingVoided inOrder found pending reserved =>
            exact ⟨⟨_, found, rfl⟩, _, _, _, ⟨inOrder, found, pending, _, _, reserved⟩, rfl⟩

theorem applyEvent_atomic (event : LedgerEvent) : Atomic (applyEvent event) := by
  cases event with
  | accountCreated => exact (createAccount_planned _ _ _ _ _).atomic
  | accountClosed => exact (closeAccount_planned _ _).atomic
  | transferPosted => exact (createTransfer_planned _).atomic
  | transferPendingCreated => exact (createPending_planned _).atomic
  | transferPendingPosted => exact (postPending_planned _ _ _ _).atomic
  | transferPendingVoided pendingId amount timestamp =>
      intro l e l' failed
      simp only [applyEvent, get_bind, check_bind] at failed
      split at failed
      · exact (voidPending_planned _ _).atomic l e l' failed
      · cases failed
        rfl

theorem applyBatchOp_atomic (op : BatchOp) : Atomic (applyBatchOp op) := by
  cases op with
  | createAccount => exact (createAccount_planned _ _ _ _ _).atomic
  | transfer => exact (createTransfer_planned _).atomic
  | pending => exact (createPending_planned _).atomic
  | postPending => exact (postPending_planned _ _ _ _).atomic
  | voidPending => exact (voidPending_planned _ _).atomic
  | closeAccount => exact (closeAccount_planned _ _).atomic

end Ledger

/-- The event an operation records when it is accepted on `l`. A void records the amount of
the hold it releases.
-/
def BatchOp.event (l : Ledger) : BatchOp → LedgerEvent
  | .createAccount id accountType flags scale timestamp =>
      .accountCreated id accountType flags scale timestamp
  | .transfer t => .transferPosted t
  | .pending t => .transferPendingCreated t
  | .postPending pendingId postTransferId amount timestamp =>
      .transferPendingPosted pendingId postTransferId amount timestamp
  | .voidPending pendingId timestamp =>
      .transferPendingVoided pendingId
        ((l.transfers[pendingId]?.map Transfer.amount).getD .zero) timestamp
  | .closeAccount id timestamp => .accountClosed id timestamp

namespace Ledger

/-- An operation is accepted exactly when the event it records is, with the same effect. -/
theorem applyBatchOp_ok_iff {l l' : Ledger} {op : BatchOp}
    : applyBatchOp op l = .ok () l' ↔ l.Step (op.event l) l' := by
  rw [← applyEvent_ok_iff]
  cases op with
  | voidPending pendingId timestamp =>
      simp only [BatchOp.event, applyBatchOp, applyEvent_voided_ok_iff]
      constructor
      · intro ran
        obtain ⟨released, accepted, -⟩ := (voidPending_planned _ _).ok_iff.mp ran
        obtain ⟨-, found, -⟩ := admitVoid_eq_ok.mp accepted
        exact ⟨⟨released.1, found, by simp [found]⟩, ran⟩
      · exact And.right
  | _ => rfl

end Ledger

/-- The timestamp an operation is recorded with. -/
def stampOf : BatchOp → U64
  | .createAccount _ _ _ _ timestamp => timestamp
  | .transfer t | .pending t => t.timestamp
  | .postPending _ _ _ timestamp => timestamp
  | .voidPending _ timestamp => timestamp
  | .closeAccount _ timestamp => timestamp

def eventStamp : LedgerEvent → U64
  | .accountCreated _ _ _ _ timestamp => timestamp
  | .accountClosed _ timestamp => timestamp
  | .transferPosted t | .transferPendingCreated t => t.timestamp
  | .transferPendingPosted _ _ _ timestamp => timestamp
  | .transferPendingVoided _ _ timestamp => timestamp

theorem step_lastTimestamp {l l' : Ledger} {event : LedgerEvent} (step : l.Step event l')
    : l'.lastTimestamp = eventStamp event := by
  cases step <;> rfl

theorem eventStamp_event (op : BatchOp) (l : Ledger) : eventStamp (op.event l) = stampOf op := by
  cases op <;> rfl

end TrustLedger.LedgerCore
