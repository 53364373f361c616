import TrustLedger.Demo.Commits
import TrustLedger.Demo.Drift

/-! Settlement batches against the books. A batch is submitted with the posted transfers of exactly
the captured payments that no batch has settled, and an accepted one marks all of them.
-/

namespace TrustLedger.Demo

open Foundation LedgerCore FiniteMap SolanaSettle

/-- What a payment has captured and no batch has settled. -/
def Payment.unsettledAmount (p : Payment) : Nat :=
  if p.isUnsettled then p.amount.val else 0

/-- What a payment has captured and a batch has settled. -/
def Payment.settledAmount (p : Payment) : Nat :=
  if p.state = .captured ∧ p.settlementBatchSeq.isSome then p.amount.val else 0

def unsettledTotal (payments : Payments) : Nat :=
  total (fun _ p => p.unsettledAmount) payments

def settledTotal (payments : Payments) : Nat :=
  total (fun _ p => p.settledAmount) payments

theorem Payment.isUnsettled_iff {p : Payment}
    : p.isUnsettled ↔ p.state = .captured ∧ p.settlementBatchSeq = none := by
  simp [Payment.isUnsettled]

section Selection

variable {s : AppState} {p p' : Payment} {key key' : U128}

theorem Books.Lockstep.posted_apart (lockstep : s.books.Lockstep)
    (stored : s.payments[key]? = some p) (stored' : s.payments[key']? = some p')
    (captured : p.state = .captured) (captured' : p'.state = .captured)
    (same : p.postedTransferId = p'.postedTransferId)
    : key = key' := by
  obtain ⟨pendingId, hold, inStep⟩ := lockstep.inStep key p stored
  obtain ⟨pendingId', hold', inStep'⟩ := lockstep.inStep key' p' stored'
  obtain ⟨postedId, t, posted, found, -, linked, -⟩ := inStep.settled captured
  obtain ⟨postedId', t', posted', found', -, linked', -⟩ := inStep'.settled captured'
  obtain rfl : postedId = postedId' :=
    Option.some.inj (posted.symm.trans (same.trans posted'))
  obtain rfl : t = t' := Option.some.inj (found.symm.trans found')
  have holds : pendingId = pendingId' := by simpa using linked.symm.trans linked'
  refine lockstep.apart key key' p p' stored stored' ?_
  rw [inStep.named, inStep'.named, holds]

/-- The ids a batch is selected by. -/
def AppState.unsettledIds (s : AppState) : List U128 :=
  ((values s.payments).filter Payment.isUnsettled).filterMap Payment.postedTransferId

theorem mem_unsettledIds {id : U128}
    : id ∈ s.unsettledIds
      ↔ ∃ (key : U128) (p : Payment),
          s.payments[key]? = some p ∧ p.isUnsettled ∧ p.postedTransferId = some id := by
  simp only [AppState.unsettledIds, values, List.mem_filterMap, List.mem_filter, List.mem_map,
    Prod.exists, Std.ExtTreeMap.mem_toList_iff_getElem?_eq_some]
  grind

theorem Books.Lockstep.nodup_unsettledIds (lockstep : s.books.Lockstep) : s.unsettledIds.Nodup := by
  rw [AppState.unsettledIds, List.Nodup, List.pairwise_filterMap, List.pairwise_filter, values,
    List.pairwise_map]
  refine List.Pairwise.imp_of_mem (fun {entry entry'} there there' distinct => ?_)
    s.payments.distinct_keys_toList
  intro unsettled unsettled' id posted id' posted' same
  rw [Std.ExtTreeMap.mem_toList_iff_getElem?_eq_some] at there there'
  have captured := (Payment.isUnsettled_iff.mp unsettled).1
  have captured' := (Payment.isUnsettled_iff.mp unsettled').1
  have keys := lockstep.posted_apart there there' captured captured'
    (posted.trans (same ▸ posted'.symm))
  exact distinct (by rw [keys]; exact Std.ReflCmp.compare_self)

theorem Books.Lockstep.posted (lockstep : s.books.Lockstep) (stored : s.payments[key]? = some p)
    (unsettled : p.isUnsettled)
    : ∃ id t, p.postedTransferId = some id
        ∧ s.ledger.transfers[(⟨id⟩ : TransferId)]? = some t
        ∧ t.amount = ⟨p.amount⟩ := by
  obtain ⟨pendingId, hold, inStep⟩ := lockstep.inStep key p stored
  obtain ⟨id, t, posted, found, -, -, amount⟩ :=
    inStep.settled (Payment.isUnsettled_iff.mp unsettled).1
  exact ⟨id, t, posted, found, amount⟩

theorem mem_unsettledTransfers (backed : s.ledger.Backed) {t : Transfer}
    : t ∈ s.unsettledTransfers
      ↔ s.ledger.transfers[t.id]? = some t ∧ t.id.raw ∈ s.unsettledIds := by
  have listed : t ∈ values s.ledger.transfers ↔ s.ledger.transfers[t.id]? = some t := by
    simp only [values, List.mem_map, Prod.exists, exists_eq_right,
      Std.ExtTreeMap.mem_toList_iff_getElem?_eq_some]
    constructor
    · rintro ⟨id, found⟩
      rwa [(backed.stored id t found).ownId]
    · exact fun found => ⟨t.id, found⟩
  rw [← listed]
  simp [AppState.unsettledTransfers, AppState.unsettledIds]

/-- Values found for every element, each with the element's weight, add up to the weights. -/
theorem sum_filterMap {α β : Type} {find : α → Option β} {weight : α → Nat} {amount : β → Nat}
    {elements : List α} (each : ∀ a ∈ elements, ∃ b, find a = some b ∧ amount b = weight a)
    : ((elements.filterMap find).map amount).sum = (elements.map weight).sum := by
  induction elements with
  | nil => rfl
  | cons a rest ih =>
      obtain ⟨b, found, same⟩ := each a List.mem_cons_self
      rw [List.filterMap_cons_some found, List.map_cons, List.sum_cons, List.map_cons,
        List.sum_cons, same, ih fun other listed => each other (List.mem_cons_of_mem _ listed)]

theorem unsettledTotal_eq (payments : Payments)
    : unsettledTotal payments
      = (((values payments).filter Payment.isUnsettled).map fun p => p.amount.val).sum := by
  have weights : ((values payments).map Payment.unsettledAmount).sum = unsettledTotal payments := by
    simp [values, unsettledTotal, total, Function.comp_def]
  have split := List.sum_map_ite (fun p : Payment => p.isUnsettled = true) (fun p => p.amount.val)
    (fun _ => 0) (values payments)
  rw [← weights]
  refine split.trans ?_
  simp

theorem Books.Lockstep.amountSum_unsettled (lockstep : s.books.Lockstep) (backed : s.ledger.Backed)
    : amountSum s.unsettledTransfers = unsettledTotal s.payments := by
  have distinct : (s.unsettledIds.map TransferId.mk).Nodup :=
    lockstep.nodup_unsettledIds.map fun _ _ same => congrArg TransferId.raw same
  have stored : ∀ id ∈ s.unsettledIds.map TransferId.mk,
      ∃ t, s.ledger.transfers[id]? = some t := by
    intro id listed
    obtain ⟨raw, there, rfl⟩ := List.mem_map.mp listed
    obtain ⟨key, p, found, unsettled, posted⟩ := mem_unsettledIds.mp there
    obtain ⟨raw', t, posted', transfer, -⟩ := lockstep.posted found unsettled
    obtain rfl : raw = raw' := Option.some.inj (posted.symm.trans posted')
    exact ⟨t, transfer⟩
  have selects : ∀ id t, s.ledger.transfers[id]? = some t →
      (decide (t.id.raw ∈ s.unsettledIds) ↔ id ∈ s.unsettledIds.map TransferId.mk) := by
    intro id t found
    rw [(backed.stored id t found).ownId, decide_eq_true_eq, List.mem_map]
    exact ⟨fun listed => ⟨id.raw, listed, rfl⟩, fun ⟨raw, listed, same⟩ => same ▸ listed⟩
  rw [amountSum, AppState.unsettledTransfers]
  refine (sum_values_filter distinct (fun t => t.amount.toNat) stored selects).trans ?_
  rw [unsettledTotal_eq, List.map_map, AppState.unsettledIds]
  refine sum_filterMap fun p listed => ?_
  obtain ⟨inside, unsettled⟩ := List.mem_filter.mp listed
  obtain ⟨⟨key, stored⟩, there, rfl⟩ := List.mem_map.mp inside
  rw [Std.ExtTreeMap.mem_toList_iff_getElem?_eq_some] at there
  obtain ⟨id, t, posted, found, amount⟩ := lockstep.posted there unsettled
  exact ⟨id, posted, by simp [found, amount, Amount.toNat]⟩

end Selection

section Marking

variable {s : AppState} {p : Payment} {payments : Payments} {key : U128}

theorem Payment.capturedAmount_eq (p : Payment)
    : p.capturedAmount = p.unsettledAmount + p.settledAmount := by
  by_cases captured : p.state = .captured <;> cases marked : p.settlementBatchSeq <;>
    simp [Payment.capturedAmount, Payment.unsettledAmount, Payment.settledAmount,
      Payment.isUnsettled, *]

/-- The payments after an accepted batch. -/
def AppState.marked (s : AppState) (batchSeq : U64) : Payments :=
  s.payments.map fun _ p => p.markSettled (s.unsettledTransfers.map fun t => t.id.raw) batchSeq

/-- An accepted batch settles whatever has been captured. -/
theorem Books.Lockstep.settledTotal_marked (lockstep : s.books.Lockstep) (backed : s.ledger.Backed)
    (batchSeq : U64)
    : settledTotal (s.marked batchSeq) = capturedTotal s.payments := by
  refine total_map _ fun key p stored => ?_
  unfold Payment.markSettled
  by_cases unsettled : p.isUnsettled
  · obtain ⟨id, t, posted, found, -⟩ := lockstep.posted stored unsettled
    have own : t.id = ⟨id⟩ := (backed.stored _ t found).ownId
    have selected : t ∈ s.unsettledTransfers := by
      rw [mem_unsettledTransfers backed, own]
      exact ⟨found, mem_unsettledIds.mpr ⟨key, p, stored, unsettled, posted⟩⟩
    have named : id ∈ s.unsettledTransfers.map fun t => t.id.raw :=
      List.mem_map.mpr ⟨t, selected, by rw [own]⟩
    rw [if_pos (by simp only [unsettled, posted, Option.any_some, named, decide_true,
      Bool.and_self])]
    simp [Payment.settledAmount, Payment.capturedAmount, (Payment.isUnsettled_iff.mp unsettled).1]
  · rw [if_neg (by simp [unsettled]), p.capturedAmount_eq]
    simp [Payment.unsettledAmount, unsettled]

theorem capturedTotal_eq (payments : Payments)
    : capturedTotal payments = unsettledTotal payments + settledTotal payments := by
  rw [unsettledTotal, settledTotal, ← total_add, capturedTotal]
  congr 1
  funext key p
  exact p.capturedAmount_eq

/-- Only captured payments are marked with a batch. -/
def OnlyCapturedMarked (payments : Payments) : Prop :=
  ∀ (key : U128) (p : Payment), payments[key]? = some p → p.state ≠ .captured →
    p.settlementBatchSeq = none

theorem Payment.settledAmount_of_ne (other : p.state ≠ .captured) : p.settledAmount = 0 :=
  if_neg fun settled => other settled.1

theorem Payment.settledAmount_of_unmarked (unmarked : p.settlementBatchSeq = none)
    : p.settledAmount = 0 := by
  simp [Payment.settledAmount, unmarked]

theorem settledTotal_insert (p : Payment) (old : ∀ q, payments[key]? = some q → q.state ≠ .captured)
    (unmarked : p.settlementBatchSeq = none)
    : settledTotal (payments.insert key p) = settledTotal payments := by
  have grown : settledTotal (payments.insert key p) = settledTotal payments + p.settledAmount :=
    total_insert_weightless _ p fun q found => q.settledAmount_of_ne (old q found)
  rw [grown, Payment.settledAmount_of_unmarked unmarked, Nat.add_zero]

theorem OnlyCapturedMarked.insert (only : OnlyCapturedMarked payments) (p : Payment)
    (unmarked : p.settlementBatchSeq = none)
    : OnlyCapturedMarked (payments.insert key p) := by
  intro key' q stored other
  rw [Std.ExtTreeMap.getElem?_insert] at stored
  split at stored
  · cases stored
    exact unmarked
  · exact only key' q stored other

theorem OnlyCapturedMarked.marked (only : OnlyCapturedMarked s.payments) (batchSeq : U64)
    : OnlyCapturedMarked (s.marked batchSeq) := by
  intro key p stored other
  simp only [AppState.marked, Std.ExtTreeMap.getElem?_map, Option.map_eq_some_iff] at stored
  obtain ⟨q, there, rfl⟩ := stored
  unfold Payment.markSettled at other ⊢
  split
  · rename_i settled
    rw [if_pos settled] at other
    exact absurd (Payment.isUnsettled_iff.mp (Bool.and_eq_true_iff.mp settled).1).1 other
  · rename_i kept
    rw [if_neg kept] at other
    exact only key q there other

/-- Movements other than a batch settle nothing and mark nothing. -/
theorem OnlyCapturedMarked.moves {books books' : Books} {movement : Movement}
    (only : OnlyCapturedMarked books.payments) (lockstep : books.Lockstep)
    (moves : books.Moves movement books') (fair : books.Fair movement) (pays : ¬ movement.Marks)
    : OnlyCapturedMarked books'.payments
      ∧ settledTotal books'.payments = settledTotal books.payments := by
  cases moves with
  | deposit step unlinked => exact ⟨only, rfl⟩
  | reserve step => exact ⟨only, rfl⟩
  | authorize step reserves =>
      exact ⟨only.insert _ reserves.unmarked, settledTotal_insert _ fair reserves.unmarked⟩
  | capture found named step =>
      -- a payment whose hold is settled was authorized, so it carries no mark
      obtain ⟨-, -, authorized, old⟩ := lockstep.settling found named step rfl
      have unmarked := only _ _ found (by simp [authorized])
      rw [Payment.transitionToCaptured_eq_ok.mpr ⟨authorized, rfl⟩]
      exact ⟨only.insert _ unmarked, settledTotal_insert _ old unmarked⟩
  | void found named step =>
      obtain ⟨-, -, authorized, old⟩ := lockstep.settling found named step rfl
      have unmarked := only _ _ found (by simp [authorized])
      rw [Payment.transitionToVoided_eq_ok.mpr ⟨authorized, rfl⟩]
      exact ⟨only.insert _ unmarked, settledTotal_insert _ old unmarked⟩
  | mark => exact absurd trivial pays

end Marking

section Rails

variable {sv : Services} {s s' : AppState}

/-- What a batch request does: it is refused, the clearing house takes the batch, or the chain
commits it. An accepted batch is marked.
-/
inductive Settles (sv : Services) (railChoice : String) (s s' : AppState) : Prop where
  | refused (books : s'.books = s.books) (rail : s'.solanaRail = s.solanaRail)
  | ach (chosen : railChoice = MockAchRail.name) (due : s.unsettledTransfers ≠ []) (batchSeq : U64)
    (books : s'.books = ⟨s.ledger, s.marked batchSeq⟩) (rail : s'.solanaRail = s.solanaRail)
  | solana (chosen : railChoice ≠ MockAchRail.name) (railBatchSeq : U64)
    (submission : RailSubmission)
    (submitted : SolanaUsdcRail.submitBatch sv.chain railBatchSeq s.unsettledTransfers s.solanaRail
      = .ok submission s'.solanaRail)
    (books : s'.books = ⟨s.ledger, s.marked submission.batchSeq⟩)

theorem submitToAch_kept (transfers : List Transfer)
    : (submitToAch transfers).Yields s fun _ s' =>
        s'.books = s.books ∧ s'.solanaRail = s.solanaRail := by
  rw [submitToAch, Task.yields_bind, Task.yields_update]
  dsimp only
  split
  · exact ⟨rfl, rfl⟩
  · split
    · exact ⟨rfl, rfl⟩
    · exact ⟨rfl, rfl⟩

theorem submitToSolana_commits (transfers : List Transfer)
    : (submitToSolana sv transfers).Yields s fun result s' =>
        s'.books = s.books
        ∧ match result with
          | .error _ => s'.solanaRail = s.solanaRail
          | .ok submission => ∃ railBatchSeq,
              SolanaUsdcRail.submitBatch sv.chain railBatchSeq transfers s.solanaRail
                = .ok submission s'.solanaRail := by
  rw [submitToSolana, Task.yields_bind, Task.yields_update]
  dsimp only
  cases nextChainBatch s.solanaRail with
  | none => exact ⟨rfl, rfl⟩
  | some railBatchSeq =>
      rw [Task.yields_bind, Task.yields_update]
      cases submitted : SolanaUsdcRail.submitBatch sv.chain railBatchSeq transfers s.solanaRail with
      | error failure rail' => exact ⟨rfl, SolanaUsdcRail.submitBatch_error submitted⟩
      | ok submission rail' => exact ⟨rfl, railBatchSeq, submitted⟩

theorem handleSettlementBatch_settles (rail : Option String)
    : (handleSettlementBatch sv rail).Yields s fun _ s' =>
        Settles sv (rail.getD SolanaUsdcRail.name) s s' := by
  rw [handleSettlementBatch, Task.yields_holding, Task.yields_bind, Task.yields_update]
  dsimp only
  have marked {mid : AppState} {batchSeq : U64} (books : mid.books = s.books)
      : Books.mk mid.ledger (mid.payments.map fun _ p =>
          p.markSettled (s.unsettledTransfers.map fun t => t.id.raw) batchSeq)
        = ⟨s.ledger, s.marked batchSeq⟩ := by
    have ledger : mid.ledger = s.ledger := congrArg Books.ledger books
    have payments : mid.payments = s.payments := congrArg Books.payments books
    rw [ledger, payments, AppState.marked]
  split
  · exact .refused rfl rfl
  · rename_i due
    rw [Task.yields_bind, submitTo]
    split
    · rename_i chosen
      refine (submitToAch_kept _).mono fun r mid kept => ?_
      obtain ⟨books, unchanged⟩ := kept
      cases r with
      | error failure => exact .refused books unchanged
      | ok submission => exact .ach chosen due submission.batchSeq (marked books) unchanged
    · rename_i chosen
      refine (submitToSolana_commits _).mono fun r mid committed => ?_
      obtain ⟨books, answer⟩ := committed
      cases r with
      | error failure => exact .refused books answer
      | ok submission =>
          obtain ⟨railBatchSeq, submitted⟩ := answer
          exact .solana chosen railBatchSeq submission submitted (marked books)

end Rails

section Audits

variable {sv : Services} {s s' : AppState} {request : Request}

/-- What the registry shows as settled. -/
def AppState.chainTotal (s : AppState) : U128 :=
  (s.solanaRail.currentSettlementRoot.map SettlementRoot.totalSettledAmount).getD 0

/-- The requests that make payments and settle them. -/
def Request.PaysOrSettles : Request → Prop
  | .authorize _ | .capture _ | .void _ | .settlementBatch _ => True
  | _ => False

/-- A batch, if there is one to settle, goes to the rail that everything settled was settled on: to
the clearing house while the registry shows no batch, to the chain while it shows one or no captured
payment is marked.
-/
def Request.KeepsRail (s : AppState) : Request → Prop
  | .settlementBatch rail =>
      s.unsettledTransfers ≠ [] →
        if rail.getD SolanaUsdcRail.name = MockAchRail.name then
          s.solanaRail.currentSettlementRoot = none
        else
          s.solanaRail.currentSettlementRoot ≠ none
          ∨ ∀ p ∈ values s.payments, p.state = .captured → p.settlementBatchSeq = none
  | _ => True

instance Request.decidableKeepsRail (s : AppState) (request : Request)
    : Decidable (request.KeepsRail s) := by
  unfold Request.KeepsRail
  split <;> infer_instance

/-- Every captured payment is marked with a batch. -/
def AppState.AllSettled (s : AppState) : Prop :=
  ∀ p ∈ values s.payments, p.state = .captured → p.settlementBatchSeq.isSome

/-- Once everything is settled, the audit reports no discrepancy. -/
def AppState.NoFalseAlarm (s : AppState) : Prop :=
  s.AllSettled → ∀ timestamp, ∃ report, s.audit timestamp = .ok report ∧ report.status = .clean

/-- Books that agree with the registry, unless it shows no batch. -/
structure AppState.OnRail (s : AppState) : Prop where
  even : s.books.Even
  only : OnlyCapturedMarked s.payments
  registry : ∃ root, s.solanaRail.Holds root
    ∧ if root.batchSeq = 0 then root.totalSettledAmount = 0
      else root.totalSettledAmount.val = settledTotal s.payments

theorem settledTotal_unmarked
    (unmarked : ∀ p ∈ values s.payments, p.state = .captured → p.settlementBatchSeq = none)
    : settledTotal s.payments = 0 := by
  refine total_eq_zero _ fun key p stored => if_neg fun settled => ?_
  rw [unmarked p (mem_values_of_getElem? stored) settled.1] at settled
  cases settled.2

theorem chainTotal_of_holds {root : SettlementRoot} (holds : s.solanaRail.Holds root)
    (empty : root.batchSeq = 0 → root.totalSettledAmount = 0)
    : s.chainTotal = root.totalSettledAmount := by
  rw [AppState.chainTotal, holds.currentSettlementRoot]
  split
  · rename_i none
    exact (empty none).symm
  · rfl

theorem AppState.OnRail.pays {keys : List U128} (onRail : s.OnRail) (even : s'.books.Even)
    (pays : Pays keys s s')
    (fair : ∀ movement, Writes [] keys s.payments s.books movement → s.books.Fair movement)
    : s'.OnRail := by
  have settled : OnlyCapturedMarked s'.payments
      ∧ settledTotal s'.payments = settledTotal s.payments := by
    rcases pays.books with same | ⟨movement, moves, writes, marks⟩
    · have payments : s'.payments = s.payments := congrArg Books.payments same
      rw [payments]
      exact ⟨onRail.only, rfl⟩
    · have only : OnlyCapturedMarked s.books.payments := onRail.only
      exact only.moves onRail.even.lockstep moves (fair movement writes) marks
  obtain ⟨only, total⟩ := settled
  exact ⟨even, only, by rw [pays.rail, total]; exact onRail.registry⟩

theorem AppState.OnRail.settles {rail : Option String} (onRail : s.OnRail) (even : s'.books.Even)
    (settles : Settles sv (rail.getD SolanaUsdcRail.name) s s')
    (keepsRail : (Request.settlementBatch rail).KeepsRail s)
    : s'.OnRail := by
  have backed := onRail.even.charted.backed
  have lockstep := onRail.even.lockstep
  obtain ⟨root, holds, agrees⟩ := onRail.registry
  have empty : root.batchSeq = 0 → root.totalSettledAmount = 0 := by
    intro none
    rwa [if_pos none] at agrees
  cases settles with
  | refused books rail =>
      have payments : s'.payments = s.payments := congrArg Books.payments books
      exact ⟨even, payments ▸ onRail.only, by rw [rail, payments]; exact onRail.registry⟩
  | ach chosen due batchSeq books rail =>
      have payments : s'.payments = s.marked batchSeq := congrArg Books.payments books
      have unshown := keepsRail due
      rw [if_pos chosen, holds.currentSettlementRoot] at unshown
      have none : root.batchSeq = 0 := by
        by_contra some
        simp [some] at unshown
      refine ⟨even, payments ▸ onRail.only.marked batchSeq, root, rail ▸ holds, ?_⟩
      rw [if_pos none]
      exact empty none
  | solana chosen railBatchSeq submission submitted books =>
      have payments : s'.payments = s.marked submission.batchSeq := congrArg Books.payments books
      obtain ⟨next, commits, -, -⟩ := SolanaUsdcRail.submitBatch_ok holds submitted
      have some : next.batchSeq ≠ 0 := by
        rw [commits.numbered, Ne, Fin.ext_iff, commits.sequence]
        exact Nat.succ_ne_zero _
      have total : root.totalSettledAmount.val = settledTotal s.payments := by
        by_cases first : root.batchSeq = 0
        · have shown := keepsRail commits.nonempty
          rw [if_neg chosen, holds.currentSettlementRoot, if_pos first] at shown
          rw [empty first, settledTotal_unmarked (shown.resolve_left (absurd rfl))]
          rfl
        · rwa [if_neg first] at agrees
      refine ⟨even, payments ▸ onRail.only.marked _, next, commits.holds, ?_⟩
      rw [if_neg some, commits.total, total, lockstep.amountSum_unsettled backed, payments,
        lockstep.settledTotal_marked backed, capturedTotal_eq, Nat.add_comm]

theorem AppState.OnRail.step (onRail : s.OnRail) (ordinary : request.PaysOrSettles)
    (reconciles : request.Reconciles sv s) (keepsRail : request.KeepsRail s)
    : (request.step sv s).OnRail := by
  have even : (request.step sv s).books.Even := onRail.even.step reconciles
  have paid {keys : List U128} (within : keys = request.keys sv s) (unpaid : request.credits = [])
      (pays : Pays keys s (request.step sv s))
      : (request.step sv s).OnRail := by
    refine onRail.pays even pays fun movement writes => reconciles.fair ?_
    rw [unpaid, ← within]
    exact writes
  cases request with
  | authorize request => exact paid rfl rfl (yields_reply (handleAuthorize_pays request))
  | capture paymentId => exact paid rfl rfl (yields_reply (handleCapture_pays paymentId))
  | void paymentId => exact paid rfl rfl (yields_reply (handleVoid_pays paymentId))
  | settlementBatch rail =>
      have settles : Settles sv (rail.getD SolanaUsdcRail.name) s
          ((Request.settlementBatch rail).step sv s) :=
        yields_reply (handleSettlementBatch_settles rail)
      exact onRail.settles even settles keepsRail
  | _ => cases ordinary

theorem AppState.AllSettled.settledTotal (settled : s.AllSettled)
    : settledTotal s.payments = capturedTotal s.payments := by
  have none : unsettledTotal s.payments = 0 := by
    refine total_eq_zero _ fun key p stored => ?_
    refine if_neg fun unsettled => ?_
    obtain ⟨captured, unmarked⟩ := Payment.isUnsettled_iff.mp unsettled
    simpa [unmarked] using settled p (mem_values_of_getElem? stored) captured
  rw [capturedTotal_eq, none, Nat.zero_add]

theorem AppState.OnRail.noFalseAlarm (onRail : s.OnRail) (fits : creditedTotal s.ledger < 2 ^ 127)
    : s.NoFalseAlarm := by
  intro settled timestamp
  have totals : capturedTotal s.payments = creditedTotal s.ledger := onRail.even.totals
  obtain ⟨report, answered⟩ :=
    (audit_drift onRail.even.charted timestamp).2.mpr ⟨fits, totals ▸ fits⟩
  refine ⟨report, answered, ?_⟩
  obtain ⟨app, ledger, ⟨captured, -⟩, ⟨credited, -⟩, rfl⟩ :=
    (audit_eq_ok onRail.even.charted).mp answered
  obtain ⟨root, holds, agrees⟩ := onRail.registry
  have drift : (ledger.val : Int) - app.val = 0 := by
    rw [credited, captured, totals, sub_self]
  rw [holds.currentSettlementRoot]
  dsimp only [ReconciliationEngine.reportOn]
  by_cases none : root.batchSeq = 0
  · rw [if_pos none, if_pos ⟨drift, .inl rfl⟩]
  · rw [if_neg none] at agrees ⊢
    have same : root.totalSettledAmount = ledger := by
      rw [Fin.ext_iff, agrees, settled.settledTotal, totals, credited]
    rw [if_pos ⟨drift, .inr same⟩]

theorem onRail_of_new {webhookSecret : Bytes} {programId authority : Pubkey}
    (started : AppState.new sv.chain webhookSecret programId authority = .ok s)
    : s.OnRail := by
  have payments : s.payments = ∅ := congrArg Books.payments (books_of_new started)
  obtain ⟨bump, holds⟩ := SolanaUsdcRail.new_holds (fresh_of_new started).rail
  refine ⟨even_of_new started, ?_, _, holds, rfl⟩
  intro key p stored
  simp [payments] at stored

end Audits

/-- Requests that make payments and settle them, each batch on the rail that everything settled was
settled on, raise no false alarm, as long as the audit's totals fit.
-/
theorem settled_on_one_rail_audits_clean {sv : Services} {webhookSecret : Bytes}
    {programId authority : Pubkey} {s : AppState}
    (started : AppState.new sv.chain webhookSecret programId authority = .ok s)
    {requests : List Request} (ordinary : ∀ request ∈ requests, request.PaysOrSettles)
    (guarded : Guarded (Request.step sv)
      (fun s request => request.Reconciles sv s ∧ request.KeepsRail s) s requests)
    : Throughout (Request.step sv)
        (fun s => creditedTotal s.ledger < 2 ^ 127 → s.NoFalseAlarm) s requests := by
  have both : Guarded (Request.step sv)
      (fun s request => request.PaysOrSettles
        ∧ request.Reconciles sv s ∧ request.KeepsRail s) s requests := by
    intro done request rest split
    exact ⟨ordinary request (by simp [split]), guarded done request rest split⟩
  have onRail : Throughout (Request.step sv) AppState.OnRail s requests :=
    both.throughout
      (fun s request holds allowed => holds.step allowed.1 allowed.2.1 allowed.2.2)
      (onRail_of_new started)
  exact fun done early fits => (onRail done early).noFalseAlarm fits

/-- A payment captured and settled on chain, and another one that is not captured. -/
def exampleOnChain : List Request :=
  [exampleAuthorization 101 "first", .capture 5000, .settlementBatch none,
    exampleAuthorization 101 "second"]

/-- Witness: one payment settled on chain. -/
theorem settled_on_one_rail_audits_clean_chain
    : ∃ s, exampleStart = .ok s
        ∧ Throughout (Request.step exampleServices)
            (fun s => creditedTotal s.ledger < 2 ^ 127 → s.NoFalseAlarm) s exampleOnChain := by
  have allowed : okAnd exampleStart fun s =>
      decide (Guarded (Request.step exampleServices)
        (fun s request => request.Reconciles exampleServices s ∧ request.KeepsRail s) s
        exampleOnChain) := by
    decide +kernel
  obtain ⟨s, started, guarded⟩ := exists_ok_of_okAnd allowed
  refine ⟨s, started, settled_on_one_rail_audits_clean started ?_ (of_decide_eq_true guarded)⟩
  simp [exampleOnChain, exampleAuthorization, Request.PaysOrSettles]

/-- A payment settled with the clearing house, then one settled on chain. -/
def exampleSplit : List Request :=
  [exampleAuthorization 101 "first", .capture 5000, .settlementBatch (some MockAchRail.name),
    exampleAuthorization 101 "second", .capture 5001, .settlementBatch none]

/-- Both payments are settled and the books agree, but the registry only knows of the second: the
audit reports a discrepancy, of zero.
-/
theorem split_settlement_raises_alarm
    : ∃ s, exampleStart = .ok s
        ∧ (∀ request ∈ exampleSplit, request.PaysOrSettles)
        ∧ (s.after exampleServices exampleSplit).AllSettled
        ∧ ((s.after exampleServices exampleSplit).audit 0).map
            (fun report => (report.status, report.drift)) = .ok (.driftDetected, 0)
        ∧ ¬ Throughout (Request.step exampleServices) AppState.NoFalseAlarm s exampleSplit := by
  have alarmed : okAnd exampleStart fun s =>
      let s' := s.after exampleServices exampleSplit
      decide ((∀ p ∈ values s'.payments, p.state = .captured → p.settlementBatchSeq.isSome)
        ∧ (s'.audit 0).map (fun report => (report.status, report.drift))
          = .ok (.driftDetected, 0)) := by
    decide +kernel
  obtain ⟨s, started, both⟩ := exists_ok_of_okAnd alarmed
  obtain ⟨settled, reported⟩ := of_decide_eq_true both
  refine ⟨s, started, ?_, settled, reported, fun silent => ?_⟩
  · simp [exampleSplit, exampleAuthorization, Request.PaysOrSettles]
  · obtain ⟨report, answered, clean⟩ := silent exampleSplit (List.prefix_refl _) settled 0
    have answered' : (s.after exampleServices exampleSplit).audit 0 = .ok report := answered
    rw [answered'] at reported
    simp [Except.map, clean] at reported

end TrustLedger.Demo
