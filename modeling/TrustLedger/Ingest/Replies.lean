import TrustLedger.LedgerCore.Effects
import TrustLedger.Ingest.Durability
import TrustLedger.Ingest.Watermark

/-! What replies say. A call that succeeds answers every command of its micro-batch once, one that
fails answers some of them, and every answer is about the ledger that the call leaves.
-/

namespace TrustLedger.Ingest

open Foundation LedgerCore WriteAheadLog Ledger

section Shown

/-- What no event changes about an account: all but its balance and whether it is closed. -/
def accountIdentity (account : Account) : AccountId × AccountType × Scale × Bool × Bool :=
  (account.id, account.accountType, account.scale, account.flags.debitsMustNotExceedCredits,
    account.flags.creditsMustNotExceedDebits)

variable {id : AccountId} {account : Account} {l l' : Ledger} {event : LedgerEvent} {op : IngestOp}
  {built : BatchOp} {watermark next : U64}

theorem accountIdentity_modify {accounts : Std.ExtTreeMap AccountId Account} (other : AccountId)
    {f : Account → Account} (same : ∀ a, accountIdentity (f a) = accountIdentity a)
    (found : accounts[id]? = some account)
    : ∃ after, (accounts.modify other f)[id]? = some after
        ∧ accountIdentity after = accountIdentity account := by
  simp only [Std.ExtTreeMap.getElem?_modify, Std.LawfulEqCmp.compare_eq_iff_eq]
  split
  · rename_i here
    subst here
    rw [found]
    exact ⟨_, rfl, same account⟩
  · exact ⟨account, found, rfl⟩

theorem accountIdentity_withLegs (found : l.accounts[id]? = some account) (t : Transfer)
    (f g : Balance → Balance)
    : ∃ after, (l.withLegs t f g).accounts[id]? = some after
        ∧ accountIdentity after = accountIdentity account := by
  obtain ⟨mid, there, same⟩ := accountIdentity_modify t.debitAccountId
    (f := fun a => { a with balance := f a.balance }) (fun _ => rfl) found
  obtain ⟨after, now, same'⟩ := accountIdentity_modify t.creditAccountId
    (f := fun a => { a with balance := g a.balance }) (fun _ => rfl) there
  exact ⟨after, now, same'.trans same⟩

/-- No event changes an account's identity. -/
theorem accountIdentity_step (step : l.Step event l') (found : l.accounts[id]? = some account)
    : ∃ after, l'.accounts[id]? = some after
        ∧ accountIdentity after = accountIdentity account := by
  cases step with
  | @accountCreated new accountType flags timestamp inOrder unused =>
      refine ⟨account, ?_, rfl⟩
      have other : new ≠ id := by
        rintro rfl
        rw [found] at unused
        cases unused
      simpa [Ledger.logged, Std.ExtTreeMap.getElem?_insert, other] using found
  | accountClosed inOrder there isOpen =>
      simp only [logged_accounts]
      exact accountIdentity_modify _ (fun _ => rfl) found
  | transferPosted | transferPendingCreated | transferPendingPosted | transferPendingVoided =>
      simp only [logged_accounts, withTransfer_accounts, withMoved_accounts]
      exact accountIdentity_withLegs found _ _ _

/-- The ledger shows that an operation was carried out. A timestamp of zero is replaced by one of
the engine's choice.
-/
def IngestOp.Shown (l : Ledger) : IngestOp → Prop
  | .createAccount id accountType flags scale _ =>
      ∃ account, l.accounts[id]? = some account
        ∧ accountIdentity account
          = (id, accountType, scale, flags.debitsMustNotExceedCredits,
              flags.creditsMustNotExceedDebits)
  | .createTransfer id debit credit amount timestamp =>
      ∃ ts, (timestamp ≠ 0 → ts = timestamp)
        ∧ l.transfers[id]? = some ⟨id, debit, credit, amount, .posted, none, ts⟩
  | .createPending id debit credit amount timestamp =>
      ∃ state ts, (timestamp ≠ 0 → ts = timestamp)
        ∧ l.transfers[id]? = some ⟨id, debit, credit, amount, state, none, ts⟩
  | .postPending pendingId postTransferId amount timestamp =>
      ∃ hold ts, (timestamp ≠ 0 → ts = timestamp)
        ∧ l.transfers[pendingId]? = some hold ∧ hold.state = .posted
        ∧ l.transfers[postTransferId]?
          = some (settlementOf hold pendingId postTransferId amount ts)
  | .voidPending pendingId _ =>
      ∃ hold, l.transfers[pendingId]? = some hold ∧ hold.state = .voided

theorem IngestOp.Shown.step (shown : op.Shown l) (step : l.Step event l') : op.Shown l' := by
  cases op with
  | createAccount id accountType flags scale timestamp =>
      obtain ⟨account, found, same⟩ := shown
      obtain ⟨after, now, kept⟩ := accountIdentity_step step found
      exact ⟨after, now, kept.trans same⟩
  | createTransfer id debit credit amount timestamp =>
      obtain ⟨ts, chosen, found⟩ := shown
      exact ⟨ts, chosen, step.settled_kept found (by simp)⟩
  | createPending id debit credit amount timestamp =>
      obtain ⟨state, ts, chosen, found⟩ := shown
      have kept := step.transfer_kept found
      rw [event.restate_eq] at kept
      exact ⟨_, ts, chosen, kept⟩
  | postPending pendingId postTransferId amount timestamp =>
      obtain ⟨hold, ts, chosen, found, posted, settled⟩ := shown
      exact ⟨hold, ts, chosen, step.settled_kept found (by simp [posted]), posted,
        step.settled_kept settled (by simp [settlementOf])⟩
  | voidPending pendingId timestamp =>
      obtain ⟨hold, found, voided⟩ := shown
      exact ⟨hold, step.settled_kept found (by simp [voided]), voided⟩

theorem IngestOp.shown_of_step {ts : U64} (builds : op.build ts = .ok built)
    (chosen : op.timestamp ≠ 0 → ts = op.timestamp) (step : l.Step (built.event l) l')
    : op.Shown l' := by
  rw [IngestOp.build_ok builds] at step
  cases op with
  | createAccount id accountType flags scale timestamp =>
      cases step
      refine ⟨.new id accountType flags l.scale, ?_, rfl⟩
      simp [Ledger.logged]
  | createTransfer id debit credit amount timestamp =>
      exact ⟨ts, chosen, step.recorded_stored rfl⟩
  | createPending id debit credit amount timestamp =>
      exact ⟨.pending, ts, chosen, step.recorded_stored rfl⟩
  | postPending pendingId postTransferId amount timestamp =>
      have settles : LedgerEvent.settles (.transferPendingPosted pendingId postTransferId amount ts)
          = some (pendingId, .posted) :=
        rfl
      obtain ⟨hold, found, -, -⟩ := step.settles_pending settles
      have records : l.recorded (.transferPendingPosted pendingId postTransferId amount ts)
          = some (settlementOf hold pendingId postTransferId amount ts) := by
        rw [Ledger.recorded, found, Option.map_some]
      refine ⟨{ hold with state := .posted }, ts, chosen, ?_, rfl, step.recorded_stored records⟩
      rw [step.transfer_kept found]
      simp [LedgerEvent.restate, LedgerEvent.settles, BatchOp.event, IngestOp.built]
  | voidPending pendingId timestamp =>
      have settles (amount : Amount)
          : LedgerEvent.settles (.transferPendingVoided pendingId amount ts)
          = some (pendingId, .voided) :=
        rfl
      obtain ⟨hold, found, -, -⟩ := step.settles_pending (settles _)
      refine ⟨_, step.transfer_kept found, ?_⟩
      simp [LedgerEvent.restate, LedgerEvent.settles, BatchOp.event, IngestOp.built]

/-- An operation is converted at the timestamp it asks for, if it asks for one. -/
theorem TimedOp.intoBatchOp_chosen {timed : TimedOp}
    (converted : timed.intoBatchOp watermark = .ok built next)
    : ∃ ts, timed.op.build ts = .ok built
        ∧ (timed.op.timestamp ≠ 0 → ts = timed.op.timestamp) := by
  unfold TimedOp.intoBatchOp at converted
  simp only at converted
  split at converted
  · rename_i builds
    cases converted
    exact ⟨_, builds, fun chosen => by rw [allocateTimestamp_requested chosen]⟩
  · cases converted

theorem intoBatchOps_shown {ops : List TimedOp} {built : List BatchOp}
    (converted : intoBatchOps ops watermark = .ok built next) (applied : applyOps built l = some l')
    : ∀ timed ∈ ops, timed.op.Shown l' := by
  induction ops generalizing built watermark l with
  | nil => simp
  | cons first rest ih =>
      obtain ⟨op, mid, converts, later⟩ := bind_run_ok.mp converted
      obtain ⟨ops, last, convertsRest, returned⟩ := bind_run_ok.mp later
      cases returned
      obtain ⟨l₁, ran, ranRest⟩ := opLog.execAll_cons_eq_some.mp applied
      obtain ⟨ts, builds, chosen⟩ := TimedOp.intoBatchOp_chosen converts
      intro timed member
      rcases List.mem_cons.mp member with rfl | there
      · have shown := IngestOp.shown_of_step builds chosen (applyBatchOp_ok_iff.mp ran)
        obtain ⟨events, events_applied⟩ := applyOps_events ranRest
        exact applyEvents_preserves IngestOp.Shown.step shown events_applied
      · exact ih convertsRest ranRest timed there

theorem IngestCommand.shown {command : IngestCommand} {responder : Responder}
    {convert : WatermarkM (List BatchOp)} {built : List BatchOp}
    (mutation : command.mutation? = some (responder, convert))
    (converted : convert watermark = .ok built next) (applied : applyOps built l = some l')
    : ∀ timed ∈ command.ops, timed.op.Shown l' := by
  cases command with
  | mutate timed respondTo =>
      cases mutation
      have whole : intoBatchOps [timed] watermark = .ok built next := by
        obtain ⟨op, mid, converts, returned⟩ := bind_run_ok.mp converted
        cases returned
        exact bind_run_ok.mpr ⟨op, _, converts, rfl⟩
      exact intoBatchOps_shown whole applied
  | applyBatch ops respondTo =>
      cases mutation
      exact intoBatchOps_shown converted applied
  | getAccount => cases mutation
  | getTransfer => cases mutation

end Shown

section Outcomes

variable {batch : List IngestCommand} {io : AppendIo} {e : Engine} {l : Ledger}
  {responder : Responder}

/-- How a call ends: the accepted mutations are committed and everyone is answered, or an error
stops it after the refused ones, and perhaps the accepted ones, were told.
-/
inductive BatchOutcome (batch : List IngestCommand) (e : Engine) : Processed → Prop where
  | committed {refused wal} (permuted : refused.Perm (refusals (decisions batch e.ledger).1))
    : BatchOutcome batch e
        ⟨.ok (),
          refused
            ++ (successes (decisions batch e.ledger).1).map
              (fun s => s.1.respondOk (decisions batch e.ledger).2)
            ++ (batch.filterMap IngestCommand.query?).map
              (QueryCommand.answer (decisions batch e.ledger).2),
          ⟨(decisions batch e.ledger).2, wal⟩⟩
  | failed {refused answered err wal}
    (permuted : refused.Perm (refusals (decisions batch e.ledger).1))
    (answers : answered = []
      ∨ answered = (successes (decisions batch e.ledger).1).map fun s => s.1.respondErr err)
    : BatchOutcome batch e ⟨.error err, refused ++ answered, ⟨e.ledger, wal⟩⟩

theorem processBatch_outcome (batch : List IngestCommand) (io : AppendIo) (e : Engine)
    : BatchOutcome batch e (e.processBatch batch io) := by
  obtain ⟨refused, permuted, processed⟩ := processBatch_eq batch io e
  rw [processed]
  cases encoded : encodeAll (acceptedLists batch e.ledger) with
  | error err =>
      rw [persist_unencoded encoded]
      simp only [queryAnswers, List.append_nil]
      have outcome := @BatchOutcome.failed batch e refused [] (.codec err.text) e.wal permuted
        (.inl rfl)
      rwa [List.append_nil] at outcome
  | ok payloads =>
      cases appended : Wal.appendBatch payloads io e.wal with
      | ok range wal =>
          rw [persist_appended encoded appended]
          exact .committed permuted
      | error walErr wal =>
          rw [persist_failed encoded appended]
          simp only [queryAnswers, List.append_nil]
          exact .failed permuted (.inr rfl)

/-- The entity of a result is the one the operation is about. -/
def TargetEntity.Finds (l : Ledger) : TargetEntity → MutationResult → Prop
  | .account id, .account a => l.accounts[id]? = some a
  | .transfer id, .transfer t => l.transfers[id]? = some t
  | _, _ => False

/-- A reply to a command, as true of a ledger. -/
def IngestCommand.AnsweredBy (l : Ledger) : IngestCommand → Reply → Prop
  | .mutate timed _, .mutation (.ok result) => timed.op.Shown l ∧ timed.op.target.Finds l result
  | .mutate .., .mutation (.error _) => True
  | .applyBatch ops _, .batch (.ok count) =>
      count = Fin.ofNat _ ops.length ∧ ∀ timed ∈ ops, timed.op.Shown l
  | .applyBatch .., .batch (.error _) => True
  | .getAccount id _, .account result => result = (l.getAccount id).mapError .ledger
  | .getTransfer id _, .transfer result => result = (l.getTransfer id).mapError .ledger
  | _, _ => False

/-- Every mutation's responder is that of its command. -/
theorem mem_decisions {verdict : Except IngestError (List LedgerEvent)}
    (member : (responder, verdict) ∈ (decisions batch l).1)
    : ∃ command ∈ batch, ∃ convert, command.mutation? = some (responder, convert) := by
  have converted {conversion : Except IngestError (List BatchOp)}
      (there : (responder, conversion) ∈ (convertAll batch l.lastTimestamp).1)
      : ∃ command ∈ batch, ∃ convert, command.mutation? = some (responder, convert) := by
    obtain ⟨command, listed, convert, -, mutation, -⟩ := mem_convertAll there
    exact ⟨command, listed, convert, mutation⟩
  cases mem_decideAll member with
  | unconverted there => exact converted there
  | rejected there => exact converted there
  | applied there => exact converted there

theorem answeredBy_respondErr {command : IngestCommand} {convert : WatermarkM (List BatchOp)}
    (mutation : command.mutation? = some (responder, convert)) (err : IngestError) (l : Ledger)
    : command.AnsweredBy l (responder.respondErr err).2 := by
  cases command with
  | mutate timed respondTo =>
      cases mutation
      trivial
  | applyBatch ops respondTo =>
      cases mutation
      trivial
  | getAccount => cases mutation
  | getTransfer => cases mutation

theorem answeredBy_respondOk {events : List LedgerEvent}
    (accepted : (responder, events) ∈ successes (decisions batch l).1)
    : ∃ command ∈ batch, command.respondTo = responder.respondTo
        ∧ command.AnsweredBy (decisions batch l).2
            (responder.respondOk (decisions batch l).2).2 := by
  have success := respondOk_accepted accepted
  cases mem_decideAll (mem_successes.mp accepted) with
  | @applied ops reached next later there applied rest =>
      obtain ⟨command, listed, convert, watermark, mutation, converted⟩ := mem_convertAll there
      cases ran : convert watermark with
      | error err mark =>
          rw [ran] at converted
          cases converted
      | ok built mark =>
          rw [ran] at converted
          cases converted
          have shown (timed : TimedOp) (member : timed ∈ command.ops)
              : timed.op.Shown (decisions batch l).2 :=
            applyEvents_preserves IngestOp.Shown.step
              (command.shown mutation ran applied timed member) rest
          refine ⟨command, listed, (IngestCommand.mutation?_sender mutation).symm, ?_⟩
          cases command with
          | getAccount => cases mutation
          | getTransfer => cases mutation
          | applyBatch ops respondTo =>
              cases mutation
              exact ⟨rfl, shown⟩
          | mutate timed respondTo =>
              cases mutation
              have shownHere := shown timed (List.mem_singleton_self timed)
              generalize (decisions batch l).2 = final at success shownHere
              -- a success can only be the entity that was looked up
              cases target : timed.op.target with
              | account id =>
                  rw [target] at success
                  simp only [Responder.respondOk, getAccount] at success ⊢
                  cases found : final.accounts[id]? with
                  | none =>
                      rw [found] at success
                      cases success
                  | some account => exact ⟨shownHere, by rw [target]; exact found⟩
              | transfer id =>
                  rw [target] at success
                  simp only [Responder.respondOk, getTransfer] at success ⊢
                  cases found : final.transfers[id]? with
                  | none =>
                      rw [found] at success
                      cases success
                  | some transfer => exact ⟨shownHere, by rw [target]; exact found⟩

/-- Every reply answers a command of the micro-batch, truly of the ledger that the call leaves. -/
theorem mem_replies {answer : Sender × Reply} (sent : answer ∈ (e.processBatch batch io).replies)
    : ∃ command ∈ batch, command.respondTo = answer.1
        ∧ command.AnsweredBy (e.processBatch batch io).engine.ledger answer.2 := by
  have refusal {l : Ledger} {refused : List (Sender × Reply)}
      (permuted : refused.Perm (refusals (decisions batch e.ledger).1)) (there : answer ∈ refused)
      : ∃ command ∈ batch, command.respondTo = answer.1 ∧ command.AnsweredBy l answer.2 := by
    obtain ⟨⟨responder, err⟩, failed, rfl⟩ := List.mem_map.mp (permuted.mem_iff.mp there)
    obtain ⟨command, listed, convert, mutation⟩ := mem_decisions (mem_failures.mp failed)
    refine ⟨command, listed, ?_, answeredBy_respondErr mutation err l⟩
    rw [respondErr_sender, IngestCommand.mutation?_sender mutation]
  have outcome := processBatch_outcome batch io e
  generalize e.processBatch batch io = p at outcome sent ⊢
  cases outcome with
  | committed permuted =>
      rcases List.mem_append.mp sent with decided | asked
      · rcases List.mem_append.mp decided with refused | accepted
        · exact refusal permuted refused
        · obtain ⟨⟨responder, events⟩, there, rfl⟩ := List.mem_map.mp accepted
          obtain ⟨command, listed, sender, answered⟩ := answeredBy_respondOk there
          refine ⟨command, listed, ?_, answered⟩
          rw [respondOk_sender, sender]
      · obtain ⟨query, there, rfl⟩ := List.mem_map.mp asked
        obtain ⟨command, listed, asks⟩ := List.mem_filterMap.mp there
        refine ⟨command, listed, (IngestCommand.answer_sender asks _).symm, ?_⟩
        cases command <;> cases asks <;> rfl
  | failed permuted answers =>
      rcases List.mem_append.mp sent with refused | accepted
      · exact refusal permuted refused
      · rcases answers with rfl | rfl
        · cases accepted
        · obtain ⟨⟨responder, events⟩, there, rfl⟩ := List.mem_map.mp accepted
          obtain ⟨command, listed, convert, mutation⟩ := mem_decisions (mem_successes.mp there)
          refine ⟨command, listed, ?_, answeredBy_respondErr mutation _ _⟩
          rw [respondErr_sender, IngestCommand.mutation?_sender mutation]

theorem map_sender_verdicts (decided : List Decision)
    : ((failures decided).map (fun d => d.1.respondTo)
        ++ (successes decided).map (fun d => d.1.respondTo)).Perm
        (decided.map fun d => d.1.respondTo) := by
  induction decided with
  | nil => exact .nil
  | cons head rest ih =>
      obtain ⟨responder, verdict⟩ := head
      cases verdict with
      | error err => exact ih.cons _
      | ok events => exact List.perm_middle.trans (ih.cons _)

theorem refusals_senders {decided : List Decision}
    {refused : List (Sender × Reply)} (permuted : refused.Perm (refusals decided))
    : (refused.map Prod.fst).Perm ((failures decided).map fun d => d.1.respondTo) := by
  refine (permuted.map _).trans (.of_eq ?_)
  simp [refusals, Function.comp_def]

theorem queries_senders (batch : List IngestCommand) (l : Ledger)
    : (batch.filterMap IngestCommand.query?).map (fun query => (query.answer l).1)
      = (batch.filter fun c => !c.mutation?.isSome).map IngestCommand.respondTo := by
  induction batch with
  | nil => rfl
  | cons command rest ih =>
      cases command with
      | mutate timed respondTo => exact ih
      | applyBatch ops respondTo => exact ih
      | getAccount id respondTo => exact congrArg (respondTo :: ·) ih
      | getTransfer id respondTo => exact congrArg (respondTo :: ·) ih

/-- A call that succeeds answers every command of its micro-batch once. -/
theorem committed_senders (ok : (e.processBatch batch io).result = .ok ())
    : ((e.processBatch batch io).replies.map Prod.fst).Perm
        (batch.map IngestCommand.respondTo) := by
  have outcome := processBatch_outcome batch io e
  generalize e.processBatch batch io = p at outcome ok ⊢
  cases outcome with
  | failed permuted answers => cases ok
  | committed permuted =>
      have mutations := (map_sender_verdicts (decisions batch e.ledger).1).trans
        (.of_eq (decisions_senders batch e.ledger))
      simp only [List.map_append, List.map_map, Function.comp_def, respondOk_sender,
        queries_senders]
      have split := (List.filter_append_perm (fun c => c.mutation?.isSome) batch).map
        IngestCommand.respondTo
      rw [List.map_append] at split
      exact (((refusals_senders permuted).append_right _).trans mutations |>.append_right _).trans
        split

/-- A call answers no command twice, and none that is not in its micro-batch. -/
theorem replies_senders (distinct : (batch.map IngestCommand.respondTo).Nodup)
    : ((e.processBatch batch io).replies.map Prod.fst).Nodup := by
  cases ok : (e.processBatch batch io).result with
  | ok value => exact (committed_senders ok).nodup_iff.mpr distinct
  | error err =>
      have outcome := processBatch_outcome batch io e
      generalize e.processBatch batch io = p at outcome ok ⊢
      have decided : ((failures (decisions batch e.ledger).1).map (fun d => d.1.respondTo)
          ++ (successes (decisions batch e.ledger).1).map (fun d => d.1.respondTo)).Nodup := by
        rw [(map_sender_verdicts _).nodup_iff, decisions_senders]
        exact distinct.sublist (List.filter_sublist.map _)
      cases outcome with
      | committed permuted => cases ok
      | failed permuted answers =>
          have senders := refusals_senders permuted
          rw [List.map_append]
          rcases answers with rfl | rfl
          · rw [List.map_nil, List.append_nil, senders.nodup_iff]
            exact decided.of_append_left
          · simp only [List.map_map, Function.comp_def, respondErr_sender]
            exact (senders.append_right _).nodup_iff.mpr decided

end Outcomes

end TrustLedger.Ingest
