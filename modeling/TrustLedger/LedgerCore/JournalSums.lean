import TrustLedger.LedgerCore.Holds

/-! Balances are a fold of the journal. The sums below read only the journal; every balance of
a reachable ledger equals them, through partial captures, voids and rolled-back batches.
-/

namespace TrustLedger.LedgerCore

open Foundation Foundation.FiniteMap

/-- What an event of `journal` posts on `account`, seen from one side. A capture counts for the
accounts of the hold that the journal creates under its id.
-/
def postedBy (journal : List LedgerEvent) (side : Transfer → AccountId) (account : AccountId)
    : LedgerEvent → Nat
  | .transferPosted t => if side t = account then t.amount.toNat else 0
  | .transferPendingPosted pendingId _ amount _ =>
      match holdNamed journal pendingId with
      | some hold => if side hold = account then amount.toNat else 0
      | none => 0
  | _ => 0

/-- Everything a journal posts on `account`, seen from one side. -/
def postedTotal (side : Transfer → AccountId) (account : AccountId) (journal : List LedgerEvent)
    : Nat :=
  (journal.map (postedBy journal side account)).sum

/-- Amounts of the holds on `account` that no later event of the journal captures or voids. -/
def reservedTotal (side : Transfer → AccountId) (account : AccountId) (journal : List LedgerEvent)
    : Nat :=
  holdLifecycle.outstanding (fun hold => if side hold = account then hold.amount.toNat else 0)
    journal

/-- What an event captures of the hold `pendingId`. -/
def capturedBy (pendingId : TransferId) : LedgerEvent → Nat
  | .transferPendingPosted captured _ amount _ =>
      if captured = pendingId then amount.toNat else 0
  | _ => 0

/-- Everything a journal captures of the hold `pendingId`. -/
def capturedTotal (pendingId : TransferId) (journal : List LedgerEvent) : Nat :=
  (journal.map (capturedBy pendingId)).sum

/-- What a journal leaves reserved for the hold `pendingId`. -/
def reservedFor (pendingId : TransferId) (journal : List LedgerEvent) : Nat :=
  holdLifecycle.outstanding (fun hold => if hold.id = pendingId then hold.amount.toNat else 0)
    journal

/-- The four components of a balance are the journal's sums for its account. -/
structure Balance.FoldsJournal (balance : Balance) (account : AccountId)
    (journal : List LedgerEvent)
    : Prop where
  debitsPosted
    : balance.debitsPosted.toNat = postedTotal Transfer.debitAccountId account journal
  creditsPosted
    : balance.creditsPosted.toNat = postedTotal Transfer.creditAccountId account journal
  debitsPending
    : balance.debitsPending.toNat = reservedTotal Transfer.debitAccountId account journal
  creditsPending
    : balance.creditsPending.toNat = reservedTotal Transfer.creditAccountId account journal

namespace Ledger

/-- A balance component of an account, zero if there is no such account. -/
def balanceAt (component : Balance → Amount) (l : Ledger) (id : AccountId) : Nat :=
  match l.accounts[id]? with
  | some account => (component account.balance).toNat
  | none => 0

/-- Weight of the transfers that are pending. -/
def pendingTotal (weight : Transfer → Nat) (l : Ledger) : Nat :=
  total (fun _ t => if t.state = .pending then weight t else 0) l.transfers

/-- The balances, the stored holds and the captures agree with the journal. -/
structure Folded (l : Ledger) : Prop where
  posted
    : ∀ id, balanceAt Balance.debitsPosted l id
          = postedTotal Transfer.debitAccountId id l.journal
        ∧ balanceAt Balance.creditsPosted l id
          = postedTotal Transfer.creditAccountId id l.journal
  outstanding
    : ∀ weight, holdLifecycle.outstanding weight l.journal = pendingTotal weight l
  captured
    : ∀ pendingId postTransferId amount timestamp,
        .transferPendingPosted pendingId postTransferId amount timestamp ∈ l.journal
        → capturedTotal pendingId l.journal = amount.toNat

section Steps

variable {l l' : Ledger} {event : LedgerEvent} {pendingId postTransferId : TransferId}
  {amount : Amount} {timestamp : U64}

/-- Nothing is posted on an account that does not exist. -/
theorem Step.posts_absent {id : AccountId} (step : l.Step event l')
    (absent : l.accounts[id]? = none)
    : l.posts Transfer.debitAccountId id event = 0
      ∧ l.posts Transfer.creditAccountId id event = 0 := by
  have elsewhere {other : AccountId} {account : Account}
      (found : l.accounts[other]? = some account)
      : other ≠ id := by
    intro same
    rw [same, absent] at found
    cases found
  cases step with
  | transferPosted inOrder posted fresh linked legs =>
      obtain ⟨debit, debitFound, -⟩ := legs.debit
      obtain ⟨credit, creditFound, -⟩ := legs.credit
      exact ⟨if_neg (elsewhere debitFound), if_neg (elsewhere creditFound)⟩
  | transferPendingPosted post =>
      obtain ⟨debit, credit, reserved, -, -⟩ := post.reserved
      simp [posts, post.found, elsewhere reserved.debitFound, elsewhere reserved.creditFound]
  | _ => exact ⟨rfl, rfl⟩

/-- A capture in the journal names a hold of the journal. -/
theorem HoldsJournalled.captured_named (holds : l.HoldsJournalled)
    (mem : .transferPendingPosted pendingId postTransferId amount timestamp ∈ l.journal)
    : holdSettled l.journal pendingId = true
      ∧ ∃ hold, holdNamed l.journal pendingId = some hold := by
  have settled : holdSettled l.journal pendingId = true :=
    List.any_eq_true.mpr ⟨_, mem, by simp [holdLifecycle, LedgerEvent.settles]⟩
  exact ⟨settled, Option.isSome_iff_exists.mp (holds.settled pendingId settled)⟩

/-- A step adds to the posted total of the journal what it posts. Witness: holds named by the
journal stay named as they are, so earlier captures keep their accounts.
-/
theorem Step.postedTotal (holds : l.HoldsJournalled) (step : l.Step event l')
    (side : Transfer → AccountId) (account : AccountId)
    : LedgerCore.postedTotal side account l'.journal
      = LedgerCore.postedTotal side account l.journal + l.posts side account event := by
  have earlier : l.journal.map (postedBy (l.journal ++ [event]) side account)
      = l.journal.map (postedBy l.journal side account) := by
    apply List.map_congr_left
    intro e mem
    cases e with
    | transferPendingPosted pendingId postTransferId amount timestamp =>
        obtain ⟨-, hold, named⟩ := holds.captured_named mem
        simp only [postedBy, named, holdNamed_append_of_some event named]
    | _ => rfl
  have last : postedBy (l.journal ++ [event]) side account event
      = l.posts side account event := by
    cases event with
    | transferPendingPosted pendingId postTransferId amount timestamp =>
        obtain ⟨hold, found, named, -⟩ := holds.settling step rfl
        simp only [postedBy, posts, found, holdNamed_append_of_some _ named]
    | _ => rfl
  rw [LedgerCore.postedTotal, step.journal, List.map_append, List.sum_append, earlier,
    List.map_singleton, List.sum_singleton, last]
  rfl

/-- Weight of the hold an event creates. -/
def createdWeight (weight : Transfer → Nat) (event : LedgerEvent) : Nat :=
  (event.hold?.map weight).getD 0

/-- Weight of the stored hold an event settles. -/
def settledWeight (l : Ledger) (weight : Transfer → Nat) (event : LedgerEvent) : Nat :=
  match event.settles with
  | some (pendingId, _) => (l.transfers[pendingId]?.map weight).getD 0
  | none => 0

/-- A step moves what the journal leaves outstanding by the hold it creates or settles. -/
theorem Step.outstanding (holds : l.HoldsJournalled) (step : l.Step event l')
    (weight : Transfer → Nat)
    : holdLifecycle.outstanding weight l'.journal + l.settledWeight weight event
      = holdLifecycle.outstanding weight l.journal + createdWeight weight event := by
  rw [step.journal]
  cases settles : event.settles with
  | none =>
      have stays : holdLifecycle.closes event = none := by simp [holdLifecycle, settles]
      rw [Lifecycle.outstanding_append_open stays]
      simp only [settledWeight, settles]
      rfl
  | some target =>
      obtain ⟨pendingId, state⟩ := target
      have closes : holdLifecycle.closes event = some pendingId := by
        simp [holdLifecycle, settles]
      have silent : event.hold? = none := hold?_of_settles settles
      obtain ⟨hold, found, named, isOpen⟩ := holds.settling step settles
      simp only [settledWeight, settles, createdWeight, silent, found, Option.map_some,
        Option.map_none, Option.getD_some, Option.getD_none, Nat.add_zero]
      exact Lifecycle.outstanding_append_close closes silent holds.once named isOpen

theorem pendingTotal_withTransfer {t : Transfer} (weight : Transfer → Nat)
    (unused : l.transfers[t.id]? = none)
    : pendingTotal weight (l.withTransfer t)
      = (if t.state = .pending then weight t else 0) + pendingTotal weight l :=
  total_insert_new _ unused

theorem pendingTotal_settled {id : TransferId} {hold : Transfer} {state : TransferState}
    (weight : Transfer → Nat) (found : l.transfers[id]? = some hold)
    (pending : hold.state = .pending) (settled : state ≠ .pending)
    : pendingTotal weight (l.withMoved id { hold with state }) + weight hold
      = pendingTotal weight l := by
  have traded : pendingTotal weight (l.withMoved id { hold with state })
        + (if hold.state = .pending then weight hold else 0)
      = pendingTotal weight l
        + (if state = .pending then weight { hold with state } else 0) :=
    total_modify (fun _ (t : Transfer) => if t.state = .pending then weight t else 0)
      (f := fun _ => { hold with state }) found
  rw [if_pos pending, if_neg settled] at traded
  exact traded

/-- A step moves the pending transfers by the hold it creates or settles. -/
theorem Step.pendingTotal (step : l.Step event l') (weight : Transfer → Nat)
    : Ledger.pendingTotal weight l' + l.settledWeight weight event
      = Ledger.pendingTotal weight l + createdWeight weight event := by
  cases step with
  | accountCreated inOrder unused => rfl
  | accountClosed inOrder found isOpen => rfl
  | @transferPosted t newDebits newCredits inOrder posted fresh linked legs =>
      refine (pendingTotal_withTransfer (l := l.withLegs t _ _) weight fresh.unused).trans ?_
      rw [if_neg (by simp [posted]), Nat.zero_add]
      rfl
  | @transferPendingCreated t newDebits newCredits inOrder pending fresh legs =>
      refine (pendingTotal_withTransfer (l := l.withLegs t _ _) weight fresh.unused).trans ?_
      rw [if_pos pending, Nat.add_comm]
      rfl
  | @transferPendingPosted pendingId postTransferId amount timestamp plan post =>
      have settled : l.settledWeight weight
          (.transferPendingPosted pendingId postTransferId amount timestamp)
          = weight plan.hold := by
        simp [settledWeight, LedgerEvent.settles, post.found]
      have unused : l.transfers[plan.settlement.id]? = none := by
        rw [post.settlement]
        exact post.unused
      have posted : plan.settlement.state ≠ .pending := by simp [post.settlement]
      have stored (mid : Ledger) (absent : mid.transfers[plan.settlement.id]? = none)
          : Ledger.pendingTotal weight (mid.withTransfer plan.settlement)
            = Ledger.pendingTotal weight mid := by
        rw [pendingTotal_withTransfer weight absent, if_neg posted, Nat.zero_add]
      rw [settled]
      refine (congrArg (· + weight plan.hold)
        (stored _ (withMoved_absent (l := l.withLegs plan.hold _ _) unused))).trans ?_
      exact pendingTotal_settled (l := l.withLegs plan.hold _ _) weight post.found post.pending
        (by simp)
  | @transferPendingVoided pendingId timestamp hold debit credit debitsPending creditsPending
      inOrder found pending reserved =>
      have settled : l.settledWeight weight
          (.transferPendingVoided pendingId hold.amount timestamp) = weight hold := by
        simp [settledWeight, LedgerEvent.settles, found]
      rw [settled]
      exact pendingTotal_settled (l := l.withLegs hold _ _) weight found pending (by simp)

/-- A hold that no event settles has nothing captured. -/
theorem capturedTotal_unsettled {journal : List LedgerEvent}
    (isOpen : holdSettled journal pendingId = false)
    : capturedTotal pendingId journal = 0 := by
  apply List.sum_eq_zero
  intro amount listed
  obtain ⟨e, mem, rfl⟩ := List.mem_map.mp listed
  cases e with
  | transferPendingPosted captured postTransferId amount timestamp =>
      apply if_neg
      intro same
      have unsettled := List.any_eq_false.mp isOpen _ mem
      simp [holdLifecycle, LedgerEvent.settles, same] at unsettled
  | _ => rfl

theorem capturedTotal_append (pendingId : TransferId) (journal : List LedgerEvent)
    (event : LedgerEvent)
    : capturedTotal pendingId (journal ++ [event])
      = capturedTotal pendingId journal + capturedBy pendingId event := by
  simp [capturedTotal]

/-- A hold is captured at most once, so what is captured of it is that one amount. -/
theorem Folded.captured_step (folded : l.Folded) (holds : l.HoldsJournalled)
    (step : l.Step event l')
    (mem : .transferPendingPosted pendingId postTransferId amount timestamp ∈ l'.journal)
    : capturedTotal pendingId l'.journal = amount.toNat := by
  rw [step.journal, List.mem_append, List.mem_singleton] at mem
  rw [step.journal, capturedTotal_append]
  rcases mem with before | now
  · have settled := (holds.captured_named before).1
    have other : capturedBy pendingId event = 0 := by
      cases event with
      | transferPendingPosted captured post part at' =>
          apply if_neg
          intro same
          obtain ⟨hold, -, -, isOpen⟩ := holds.settling step rfl
          rw [same, settled] at isOpen
          cases isOpen
      | _ => rfl
    rw [folded.captured _ _ _ _ before, other, Nat.add_zero]
  · subst now
    obtain ⟨hold, -, -, isOpen⟩ := holds.settling step rfl
    rw [capturedTotal_unsettled isOpen, Nat.zero_add]
    exact if_pos rfl

/-- Posted balances follow the journal, also where there is no account yet. -/
theorem Folded.posted_step (folded : l.Folded) (backed : l.Backed)
    (holds : l.HoldsJournalled) (step : l.Step event l') (id : AccountId)
    : balanceAt Balance.debitsPosted l' id
        = LedgerCore.postedTotal Transfer.debitAccountId id l'.journal
      ∧ balanceAt Balance.creditsPosted l' id
        = LedgerCore.postedTotal Transfer.creditAccountId id l'.journal := by
  obtain ⟨debits, credits⟩ := folded.posted id
  rw [step.postedTotal holds, step.postedTotal holds, ← debits, ← credits]
  cases found : l'.accounts[id]? with
  | some after =>
      rcases step.account_origin backed found with
        ⟨before, there, shifted⟩ | ⟨absent, empty⟩
      · simp only [balanceAt, found, there]
        exact ⟨shifted.debitsPosted, shifted.creditsPosted⟩
      · obtain ⟨noDebit, noCredit⟩ := step.posts_absent absent
        rw [noDebit, noCredit]
        simp only [balanceAt, found, absent, empty]
        exact ⟨rfl, rfl⟩
  | none =>
      have absent : l.accounts[id]? = none := by
        cases before : l.accounts[id]? with
        | none => rfl
        | some account =>
            have there : l.accounts[id]?.isSome := by simp [before]
            have stays := step.account_isSome there
            rw [found] at stays
            cases stays
      obtain ⟨noDebit, noCredit⟩ := step.posts_absent absent
      simp [balanceAt, found, absent, noDebit, noCredit]

theorem Folded.step (folded : l.Folded) (backed : l.Backed) (holds : l.HoldsJournalled)
    (step : l.Step event l')
    : l'.Folded := by
  refine {
    posted := folded.posted_step backed holds step
    outstanding := ?_
    captured := fun _ _ _ _ mem => folded.captured_step holds step mem }
  intro weight
  have journal := step.outstanding holds weight
  have stored := step.pendingTotal weight
  have before := folded.outstanding weight
  omega

end Steps

theorem folded_new (scale : Scale) : (new scale).Folded := by
  refine {
    posted := ?_
    outstanding := fun _ => rfl
    captured := ?_ }
  · intro id
    simp [balanceAt, new, postedTotal]
  · intro pendingId postTransferId amount timestamp mem
    cases mem

variable {l : Ledger}

theorem Reachable.folded {scale : Scale} (reached : Reachable scale l) : l.Folded :=
  reached.invariant_journalled
    (fun backed holds folded step => folded.step backed holds step) (folded_new scale)

/-- The holds outstanding in the journal are the holds stored as pending. -/
theorem Folded.reservedTotal (folded : l.Folded) (side : Transfer → AccountId) (account : AccountId)
    : LedgerCore.reservedTotal side account l.journal = held side account l := by
  rw [LedgerCore.reservedTotal, folded.outstanding]
  simp only [pendingTotal, held, heldBy, ite_and]

/-- A captured hold has nothing left reserved. -/
theorem Folded.reservedFor (folded : l.Folded) (backed : l.Backed) (holds : l.HoldsJournalled)
    {pendingId : TransferId} (settled : holdSettled l.journal pendingId = true)
    : LedgerCore.reservedFor pendingId l.journal = 0 := by
  rw [LedgerCore.reservedFor, folded.outstanding]
  apply total_eq_zero
  intro id t found
  split
  · rename_i pending
    apply if_neg
    intro same
    have own := (backed.stored id t found).ownId
    have isOpen := (holds.pending id t found pending).2
    rw [← own, same, settled] at isOpen
    cases isOpen
  · rfl

/-- Every balance of every reachable ledger is the fold of its journal, and of a captured hold
the journal counts exactly the captured amount and leaves nothing reserved.
-/
theorem balances_fold_journal {scale : Scale} {l : Ledger} (reached : Reachable scale l)
    : (∀ (id : AccountId) (account : Account), l.accounts[id]? = some account
        → account.balance.FoldsJournal id l.journal)
      ∧ ∀ pendingId postTransferId amount timestamp,
          .transferPendingPosted pendingId postTransferId amount timestamp ∈ l.journal
          → capturedTotal pendingId l.journal = amount.toNat
            ∧ LedgerCore.reservedFor pendingId l.journal = 0
            ∧ (holdNamed l.journal pendingId).isSome := by
  have folded := reached.folded
  refine ⟨?_, ?_⟩
  · intro id account found
    obtain ⟨debits, credits⟩ := folded.posted id
    simp only [balanceAt, found] at debits credits
    refine ⟨debits, credits, ?_, ?_⟩
    · rw [folded.reservedTotal]
      exact reached.backed.debitsHeld id account found
    · rw [folded.reservedTotal]
      exact reached.backed.creditsHeld id account found
  · intro pendingId postTransferId amount timestamp mem
    have holds := reached.holdsJournalled
    obtain ⟨settled, hold, named⟩ := holds.captured_named mem
    exact ⟨folded.captured _ _ _ _ mem, folded.reservedFor reached.backed holds settled,
      by simp [named]⟩

/-- The customer's 100 credited and 30 captured are the journal's sums; the hold is gone. -/
theorem balances_fold_partialCapture
    : postedTotal Transfer.creditAccountId ⟨2⟩ (Mutation.runAll ⟨2⟩ partialCapture).journal = 100
      ∧ postedTotal Transfer.debitAccountId ⟨2⟩ (Mutation.runAll ⟨2⟩ partialCapture).journal = 30
      ∧ capturedTotal ⟨11⟩ (Mutation.runAll ⟨2⟩ partialCapture).journal = 30
      ∧ LedgerCore.reservedFor ⟨11⟩ (Mutation.runAll ⟨2⟩ partialCapture).journal = 0 := by
  have captured := (balances_fold_journal (reachable_runAll ⟨2⟩ partialCapture)).2
    ⟨11⟩ ⟨13⟩ ⟨30⟩ 14 (by decide)
  exact ⟨by decide, by decide, captured.1, captured.2.1⟩

end Ledger

end TrustLedger.LedgerCore
