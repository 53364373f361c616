import TrustLedger.Demo.Receipts
import TrustLedger.Merkle.Soundness

/-! Receipts requested while batches are submitted. A receipt can be put together from two batches,
but only from neighbours: the list it is read from stays locked, so at most one more tree is
published meanwhile. Such a receipt does not verify, unless both batches have the same transfer
there. None is issued if no batch is being published while the list is read.
-/

namespace TrustLedger.Demo

open Foundation LedgerCore Merkle SolanaSettle

/-- What a receipt is put together from, and the number of the batch each part is of. -/
structure ReceiptView where
  transfers : List Transfer
  transfersAt : Nat
  batchSeq : U64
  seqAt : Nat
  mmr : MerkleMountainRange
  mmrAt : Nat

/-- How far a call of the rail has come. -/
inductive RailStage where
  | idle
  /-- The registry has accepted the batch. -/
  | committed (batch : CommittedBatch)
  | treeWritten (batch : CommittedBatch)
  | listWritten (batch : CommittedBatch)
  | numberWritten
  | listed (transfers : List Transfer) (transfersAt : Nat)
  | numbered (transfers : List Transfer) (transfersAt : Nat) (batchSeq : U64) (seqAt : Nat)
  | proven (view : ReceiptView)
  /-- The receipt is on its way, and no lock is held any more. -/
  | issued (view : ReceiptView)

/-- What an access of a call does, from one stage to the next. -/
inductive RailStep (chain : Chain) (request : RailRequest)
    : List RailLock → (SharedRail → SharedRail) → SharedRail → RailStage → RailStage → Prop where
  | quiet {locks update s stage} (same : update s = s)
    : RailStep chain request locks update s stage stage
  | commit {locks update s} (batchSeq : U64) (transfers : List Transfer)
    (submission : RailSubmission) (rail' : SolanaUsdcRail)
    (ran : SolanaUsdcRail.submitBatch chain batchSeq transfers s.rail = .ok submission rail')
    (now : update s
      = {
          s with
          rail := { s.rail with pdaData := rail'.pdaData }
          committed := s.committed ++ [⟨batchSeq, transfers, rail'.latestMmr, rail'.pdaData⟩]
        })
    : RailStep chain request locks update s .idle
        (.committed ⟨batchSeq, transfers, rail'.latestMmr, rail'.pdaData⟩)
  | writeTree {locks update s batch} (now : update s = s.writeTree batch.mmr)
    : RailStep chain request locks update s (.committed batch) (.treeWritten batch)
  | writeList {locks update s batch} (locked : .write .settledTransfers ∈ locks)
    (now : update s = s.writeList batch.transfers)
    : RailStep chain request locks update s (.treeWritten batch) (.listWritten batch)
  | writeSeq {locks update s batch} (now : update s = s.writeSeq batch.batchSeq)
    : RailStep chain request locks update s (.listWritten batch) .numberWritten
  | readList {locks update s} (same : update s = s)
    : RailStep chain request locks update s .idle (.listed s.rail.settledTransfers s.transfersAt)
  | readSeq {locks update s transfers transfersAt} (same : update s = s)
    : RailStep chain request locks update s (.listed transfers transfersAt)
        (.numbered transfers transfersAt s.rail.batchSeq s.seqAt)
  | readTree {locks update s transfers transfersAt batchSeq seqAt} (same : update s = s)
    : RailStep chain request locks update s (.numbered transfers transfersAt batchSeq seqAt)
        (.proven ⟨transfers, transfersAt, batchSeq, seqAt, s.rail.latestMmr, s.mmrAt⟩)

/-- The registry is locked until a batch is published, the list while a receipt is made. -/
def RailStage.needs : RailStage → RailLock → Prop
  | .committed _, lock | .treeWritten _, lock | .listWritten _, lock | .numberWritten, lock =>
      lock = .write .pdaData
  | .listed .., lock | .numbered .., lock | .proven _, lock => lock = .read .settledTransfers
  | .idle, _ | .issued _, _ => False

/-- A call is over, or given up, when its locks are given back. -/
inductive RailStage.Ends : RailStage → RailStage → Prop where
  | kept {stage} : Ends stage stage
  | closed : Ends .numberWritten .idle
  | issued {view} : Ends (.proven view) (.issued view)
  | refused {transfers transfersAt batchSeq seqAt}
    : Ends (.numbered transfers transfersAt batchSeq seqAt) .idle
  | unproven {view} : Ends (.proven view) .idle

def railProtocol (chain : Chain) : Protocol RailLock SharedRail RailRequest RailStage where
  act := RailStep chain
  needs := RailStage.needs
  abandon := RailStage.Ends

/-- A receipt made from a view. -/
def ReceiptView.Makes (chain : Chain) (view : ReceiptView) (transferId : U128)
    (receipt : TransferReceipt)
    : Prop :=
  view.batchSeq ≠ 0
  ∧ ∃ transfer index proof, view.transfers[index]? = some transfer ∧ transfer.id.raw = transferId
    ∧ view.mmr.generateProof index = some (.ok proof)
    ∧ receipt = SolanaUsdcRail.receiptOf chain view.batchSeq transfer view.mmr proof

/-- What is answered at a stage. -/
def AnswersFrom (chain : Chain) : RailRequest → Except RailCallFailure RailReply → RailStage → Prop
  | .receiptForTransfer transferId, .ok (.receipt receipt), stage =>
      ∃ view, stage = .issued view ∧ view.Makes chain transferId receipt
  | .receiptForTransfer _, .ok (.submission _), _ => False
  | _, _, _ => True

section Follows

variable {chain : Chain} {request : RailRequest} {α : Type}

theorem submitBatchSteps_follows (batchSeq : U64) (transfers : List Transfer)
    : (SolanaUsdcRail.submitBatchSteps chain batchSeq transfers).Follows (railProtocol chain)
        request [] .idle fun _ _ _ => True := by
  unfold SolanaUsdcRail.submitBatchSteps
  cases made : SolanaUsdcRail.batchLeaves chain transfers with
  | error failure => trivial
  | ok leaves =>
      obtain ⟨mmr, totalAmount⟩ := leaves
      refine Task.Follows.holding (Task.follows_bind.mpr (Task.follows_update.mpr fun s => ?_))
      rcases commitRegistry_cases s batchSeq made with ⟨failure, step, -⟩
        | ⟨params, pdaData, step, whole⟩
      · refine ⟨.idle, .quiet (by rw [step]), fun _ needed => needed.elim, ?_⟩
        rw [step]
        exact ⟨rfl, .idle, .kept, fun _ needed => needed.elim, trivial⟩
      · refine ⟨_, .commit batchSeq transfers _ _ whole (by rw [step]),
          fun _ needed => needed ▸ List.mem_cons_self, ?_⟩
        rw [step]
        -- the registry's lock is held while tree, list and number are written
        have locked (held : List RailLock) (lock : RailLock) (needed : lock = .write .pdaData)
            : lock ∈ held ++ [.write .pdaData] := by
          simp [needed]
        refine Task.follows_bind.mpr (Task.Follows.holding (Task.follows_update.mpr fun s₁ => ?_))
        refine ⟨_, .writeTree rfl, locked [.write .latestMmr], rfl, _, .kept,
          locked [], ?_⟩
        refine Task.follows_bind.mpr (Task.Follows.holding (Task.follows_update.mpr fun s₂ => ?_))
        refine ⟨_, .writeList (List.mem_singleton_self _) rfl,
          locked [.write .settledTransfers], rfl, _, .kept,
          locked [], ?_⟩
        refine Task.follows_bind.mpr (Task.follows_update.mpr fun s₃ => ?_)
        exact ⟨_, .writeSeq rfl, locked [], rfl, .idle, .closed, fun _ needed => needed.elim,
          trivial⟩

theorem receiptForTransfer_follows (transferId : U128)
    : (SolanaUsdcRail.receiptForTransfer chain transferId).Follows (railProtocol chain) request
        [] .idle fun result _ stage =>
          ∀ receipt, result = .ok receipt
            → ∃ view, stage = .issued view ∧ view.Makes chain transferId receipt := by
  refine Task.Follows.holding (Task.follows_bind.mpr (Task.follows_update.mpr fun s => ?_))
  refine ⟨_, .readList rfl, fun _ needed => needed ▸ List.mem_cons_self, ?_⟩
  refine Task.follows_bind.mpr (Task.follows_update.mpr fun s₁ => ?_)
  refine ⟨_, .readSeq rfl, fun _ needed => needed ▸ List.mem_cons_self, ?_⟩
  dsimp only
  split
  · exact ⟨rfl, _, .refused, fun _ needed => needed.elim, fun _ answered => by cases answered⟩
  · rename_i counted
    split
    · exact ⟨rfl, _, .refused, fun _ needed => needed.elim, fun _ answered => by cases answered⟩
    · rename_i transfer index search
      have there := List.mk_mem_zipIdx_iff_getElem?.mp (List.mem_of_find?_eq_some search)
      have named : transfer.id.raw = transferId := by
        simpa using List.find?_some search
      refine Task.Follows.holding (Task.follows_bind.mpr (Task.follows_update.mpr fun s₂ => ?_))
      have locked (lock : RailLock) (needed : lock = .read .settledTransfers)
          : lock ∈ [.read .latestMmr, .read .settledTransfers] := by
        simp [needed]
      refine ⟨_, .readTree rfl, locked, ?_⟩
      dsimp only
      split
      · exact ⟨rfl, _, .kept, fun _ needed => needed ▸ List.mem_cons_self, rfl, _, .unproven,
          fun _ needed => needed.elim, fun _ answered => by cases answered⟩
      · exact ⟨rfl, _, .kept, fun _ needed => needed ▸ List.mem_cons_self, rfl, _, .unproven,
          fun _ needed => needed.elim, fun _ answered => by cases answered⟩
      · rename_i proof generated
        refine ⟨rfl, _, .kept, fun _ needed => needed ▸ List.mem_cons_self, rfl, _, .issued,
          fun _ needed => needed.elim, fun receipt answered => ⟨_, rfl, ?_, ?_⟩⟩
        · exact (not_or.mp counted).2
        · cases answered
          exact ⟨transfer, index, proof, there, named, generated, rfl⟩

theorem RailRequest.enters (chain : Chain) (request : RailRequest)
    : Pool.At (railProtocol chain) (AnswersFrom chain)
        (⟨request, request.handle chain, []⟩
          : Thread RailLock SharedRail RailCallFailure RailReply RailRequest)
        (request, .idle) := by
  refine ⟨rfl, ?_, fun _ needed => needed.elim⟩
  cases request with
  | submitBatch batchSeq transfers =>
      refine Task.follows_bind.mpr ((submitBatchSteps_follows batchSeq transfers).mono ?_)
      intro r held stage _
      cases r <;> trivial
  | receiptForTransfer transferId =>
      refine Task.follows_bind.mpr ((receiptForTransfer_follows transferId).mono ?_)
      intro r held stage answers
      cases r with
      | error failure => trivial
      | ok receipt => exact answers receipt rfl

end Follows

section Neighbours

variable {chain : Chain} {s s' : SharedRail} {committed committed' : List CommittedBatch}

theorem batchAt_mono {α : Type} {f : CommittedBatch → α} {number : Nat} {value : α}
    (grows : committed <+: committed') (found : (batchAt committed number).map f = some value)
    : (batchAt committed' number).map f = some value := by
  cases number with
  | zero => exact found
  | succ number =>
      obtain ⟨batch, there, rfl⟩ := Option.map_eq_some_iff.mp found
      obtain ⟨more, rfl⟩ := grows
      have early := (List.getElem?_eq_some_iff.mp there).1
      exact Option.map_eq_some_iff.mpr ⟨batch, (List.getElem?_append_left early).trans there, rfl⟩

theorem batchAt_length {batch : CommittedBatch} (last : committed.getLast? = some batch)
    : batchAt committed committed.length = some batch := by
  obtain ⟨before, rfl⟩ := List.getLast?_eq_some_iff.mp last
  simp [batchAt]

/-- The parts of a view are of the batches they are said to be of, and these are neighbours. -/
structure ReceiptView.Neighbours (committed : List CommittedBatch) (view : ReceiptView)
    : Prop where
  transfers : (batchAt committed view.transfersAt).map CommittedBatch.transfers
    = some view.transfers
  batchSeq : (batchAt committed view.seqAt).map CommittedBatch.batchSeq = some view.batchSeq
  mmr : (batchAt committed view.mmrAt).map CommittedBatch.mmr = some view.mmr
  number : view.seqAt ≤ view.transfersAt ∧ view.transfersAt ≤ view.seqAt + 1
  tree : view.transfersAt ≤ view.mmrAt ∧ view.mmrAt ≤ view.transfersAt + 1

/-- A batch is committed, but its number is not yet published. -/
def SharedRail.Publishing (s : SharedRail) (batch : CommittedBatch) : Prop :=
  s.committed.getLast? = some batch ∧ s.seqAt + 1 = s.committed.length

/-- What a call at a stage knows of the rail. -/
def RailStage.Holds (s : SharedRail) : RailStage → Prop
  | .idle => True
  | .committed batch => s.Publishing batch
  | .treeWritten batch => s.Publishing batch ∧ s.mmrAt = s.committed.length
  | .listWritten batch => s.Publishing batch ∧ s.transfersAt = s.committed.length
  | .numberWritten => s.seqAt = s.committed.length
  | .listed transfers transfersAt =>
      transfers = s.rail.settledTransfers ∧ transfersAt = s.transfersAt
  | .numbered transfers transfersAt batchSeq seqAt =>
      transfers = s.rail.settledTransfers ∧ transfersAt = s.transfersAt
      ∧ (batchAt s.committed seqAt).map CommittedBatch.batchSeq = some batchSeq
      ∧ seqAt ≤ transfersAt ∧ transfersAt ≤ seqAt + 1
  | .proven view | .issued view => view.Neighbours s.committed

/-- A call is publishing a batch. -/
abbrev RailStage.Writes (stage : RailStage) : Prop :=
  stage.needs (.write .pdaData)

/-- A call is reading the list. -/
abbrev RailStage.Reads (stage : RailStage) : Prop :=
  stage.needs (.read .settledTransfers)

theorem ReceiptView.Neighbours.mono {view : ReceiptView} (near : view.Neighbours committed)
    (grows : committed <+: committed')
    : view.Neighbours committed' :=
  {
    near with
    transfers := batchAt_mono grows near.transfers
    batchSeq := batchAt_mono grows near.batchSeq
    mmr := batchAt_mono grows near.mmr
  }

/-- A call that is not publishing is not disturbed by one that is. -/
theorem RailStage.Holds.kept {stage : RailStage} (holds : stage.Holds s) (quiet : ¬ stage.Writes)
    (grows : s.committed <+: s'.committed) (list : stage.Reads
      → s'.rail.settledTransfers = s.rail.settledTransfers ∧ s'.transfersAt = s.transfersAt)
    : stage.Holds s' := by
  cases stage with
  | idle => trivial
  | committed | treeWritten | listWritten | numberWritten => exact absurd rfl quiet
  | listed transfers transfersAt =>
      obtain ⟨sameList, sameAt⟩ := list rfl
      exact ⟨holds.1.trans sameList.symm, holds.2.trans sameAt.symm⟩
  | numbered transfers transfersAt batchSeq seqAt =>
      obtain ⟨sameList, sameAt⟩ := list rfl
      obtain ⟨listed, listedAt, numbered, near⟩ := holds
      exact ⟨listed.trans sameList.symm, listedAt.trans sameAt.symm, batchAt_mono grows numbered,
        near⟩
  | proven view | issued view => exact holds.mono grows

/-- Batches are published one at a time, and in order: the tree, the list, the number. -/
structure Published (chain : Chain) (s : SharedRail) (stages : List RailStage) : Prop where
  history : History chain s.rail.pdaData s.committed
  shows : s.Shows
  order
    : s.seqAt ≤ s.transfersAt ∧ s.transfersAt ≤ s.mmrAt ∧ s.mmrAt ≤ s.committed.length
      ∧ s.committed.length ≤ s.seqAt + 1
  rest : (∀ stage ∈ stages, ¬ stage.Writes) → s.seqAt = s.committed.length
  holds : ∀ stage ∈ stages, stage.Holds s

variable {stages : List RailStage} {i : Nat} {stage stage' : RailStage} {request : RailRequest}
  {locks : List RailLock} {update : SharedRail → SharedRail}

/-- The stages of the other calls. -/
def Others (stages : List RailStage) (i : Nat) (P : RailStage → Prop) : Prop :=
  ∀ (j : Nat) (other : RailStage), j ≠ i → stages[j]? = some other → P other

/-- While no other call is publishing a batch, and this one has no number to write, all is
published.
-/
theorem Published.current (published : Published chain s stages) (here : stages[i]? = some stage)
    (quiet : Others stages i fun other => ¬ other.Writes)
    (done : stage.Writes → s.seqAt = s.committed.length)
    : s.seqAt = s.committed.length := by
  by_cases writes : stage.Writes
  · exact done writes
  · refine published.rest fun other listed => ?_
    obtain ⟨j, found⟩ := List.mem_iff_getElem?.mp listed
    by_cases same : j = i
    · subst same
      rw [here] at found
      cases found
      exact writes
    · exact quiet j other same found

/-- One call moves to another stage, and the rail with it. -/
theorem Published.move (here : stages[i]? = some stage)
    (history : History chain s'.rail.pdaData s'.committed) (shows : s'.Shows)
    (order : s'.seqAt ≤ s'.transfersAt ∧ s'.transfersAt ≤ s'.mmrAt
      ∧ s'.mmrAt ≤ s'.committed.length ∧ s'.committed.length ≤ s'.seqAt + 1)
    (rest : (Others stages i fun other => ¬ other.Writes) → ¬ stage'.Writes
      → s'.seqAt = s'.committed.length)
    (others : Others stages i fun other => other.Holds s') (holds : stage'.Holds s')
    : Published chain s' (stages.set i stage') := by
  have there : (stages.set i stage')[i]? = some stage' :=
    List.getElem?_set_self (List.getElem?_eq_some_iff.mp here).1
  refine ⟨history, shows, order, fun quiet => ?_, fun other listed => ?_⟩
  · refine rest (fun j other differs found => ?_) (quiet stage' (List.mem_of_getElem? there))
    exact quiet other (List.mem_of_getElem? ((List.getElem?_set_ne differs.symm).trans found))
  · obtain ⟨j, found⟩ := List.mem_iff_getElem?.mp listed
    rcases Pool.getElem?_set_cases found with ⟨-, rfl⟩ | ⟨differs, old⟩
    · exact holds
    · exact others j other differs old

/-- A call moves on by itself. -/
theorem Published.pass (published : Published chain s stages) (here : stages[i]? = some stage)
    (holds : stage'.Holds s) (done : stage.Writes → s.seqAt = s.committed.length)
    : Published chain s (stages.set i stage') :=
  .move here published.history published.shows published.order
    (fun quiet _ => published.current here quiet done)
    (fun _ other _ found => published.holds other (List.mem_of_getElem? found)) holds

theorem Published.step (published : Published chain s stages) (here : stages[i]? = some stage)
    (step : RailStep chain request locks update s stage stage')
    (alone : stage'.Writes → Others stages i fun other => ¬ other.Writes)
    (unread : .write .settledTransfers ∈ locks → Others stages i fun other => ¬ other.Reads)
    : Published chain (update s) (stages.set i stage') := by
  obtain ⟨number, list, tree, last⟩ := published.order
  have known := published.holds stage (List.mem_of_getElem? here)
  -- what the others know survives, as only one call is publishing
  have kept {s' : SharedRail} (quiet : Others stages i fun other => ¬ other.Writes)
      (grows : s.committed <+: s'.committed)
      (same : s'.rail.settledTransfers = s.rail.settledTransfers ∧ s'.transfersAt = s.transfersAt)
      : Others stages i fun other => other.Holds s' :=
    fun j other differs found => (published.holds other (List.mem_of_getElem? found)).kept
      (quiet j other differs found) grows fun _ => same
  cases step with
  | quiet same =>
      rw [same, Pool.set_of_getElem? here]
      exact published
  | commit batchSeq transfers submission rail' ran now =>
      have quiet := alone rfl
      have current := published.current here quiet fun writes => writes.elim
      have grows
          : s.committed
            <+: s.committed ++ [⟨batchSeq, transfers, rail'.latestMmr, rail'.pdaData⟩] :=
        List.prefix_append ..
      rw [now]
      refine .move here (published.history.commit ran)
        ⟨batchAt_mono grows published.shows.mmr, batchAt_mono grows published.shows.transfers,
          batchAt_mono grows published.shows.batchSeq⟩
        ?_ (fun _ writes => absurd rfl writes) (kept quiet grows ⟨rfl, rfl⟩) ?_
      · simp only [List.length_append, List.length_singleton]
        omega
      · exact ⟨List.getLast?_concat .., by simp [current]⟩
  | @writeTree batch now =>
      have quiet := alone rfl
      obtain ⟨latest, behind⟩ := known
      rw [now]
      exact .move here published.history
        ⟨by simp [SharedRail.writeTree, batchAt_length latest], published.shows.transfers,
          published.shows.batchSeq⟩
        ⟨number, list.trans tree, le_rfl, last⟩ (fun _ writes => absurd rfl writes)
        (kept quiet (List.prefix_refl _) ⟨rfl, rfl⟩) ⟨⟨latest, behind⟩, rfl⟩
  | @writeList batch locked now =>
      have quiet := alone rfl
      obtain ⟨⟨latest, behind⟩, treeAt⟩ := known
      rw [now]
      refine .move here published.history
        ⟨published.shows.mmr, by simp [SharedRail.writeList, batchAt_length latest],
          published.shows.batchSeq⟩
        ⟨number.trans (list.trans tree), treeAt.ge, tree, last⟩ (fun _ writes => absurd rfl writes)
        (fun j other differs found => ?_) ⟨⟨latest, behind⟩, rfl⟩
      exact (published.holds other (List.mem_of_getElem? found)).kept (quiet j other differs found)
        (List.prefix_refl _) fun reads => absurd reads (unread locked j other differs found)
  | @writeSeq batch now =>
      obtain ⟨⟨latest, behind⟩, listAt⟩ := known
      rw [now]
      exact .move here published.history
        ⟨published.shows.mmr, published.shows.transfers,
          by simp [SharedRail.writeSeq, batchAt_length latest]⟩
        ⟨listAt.ge, list, tree, Nat.le_succ _⟩ (fun _ _ => rfl)
        (kept (alone rfl) (List.prefix_refl _) ⟨rfl, rfl⟩) rfl
  | readList same =>
      rw [same]
      exact published.pass here ⟨rfl, rfl⟩ (by rintro ⟨⟩)
  | readSeq same =>
      obtain ⟨listed, listedAt⟩ := known
      rw [same]
      exact published.pass here ⟨listed, listedAt, published.shows.batchSeq, by omega, by omega⟩
        (by rintro ⟨⟩)
  | readTree same =>
      obtain ⟨listed, listedAt, numbered, after, before⟩ := known
      rw [same]
      refine published.pass here ⟨?_, numbered, published.shows.mmr, ⟨after, before⟩, ?_, ?_⟩
        (by rintro ⟨⟩)
      · rw [listed, listedAt]
        exact published.shows.transfers
      · exact listedAt.le.trans list
      · simp only
        omega

/-- The parts read so far are of one batch. -/
def RailStage.Aligned : RailStage → Prop
  | .numbered _ transfersAt _ seqAt => seqAt = transfersAt
  | .proven view | .issued view => view.seqAt = view.transfersAt ∧ view.mmrAt = view.transfersAt
  | _ => True

theorem RailStep.aligned (step : RailStep chain request locks update s stage stage')
    (aligned : stage.Aligned) (holds : stage.Holds s)
    (settled : stage.Reads → s.seqAt = s.transfersAt ∧ s.mmrAt = s.transfersAt)
    : stage'.Aligned := by
  cases step with
  | quiet => exact aligned
  | commit | writeTree | writeList | writeSeq | readList => trivial
  | readSeq => exact (settled rfl).1.trans holds.2.symm
  | readTree => exact ⟨aligned, (settled rfl).2.trans holds.2.1.symm⟩

theorem RailStage.Ends.aligned (ends : stage.Ends stage') (aligned : stage.Aligned)
    : stage'.Aligned := by
  cases ends with
  | kept | issued => exact aligned
  | closed | refused | unproven => trivial

end Neighbours

section Pools

variable {chain : Chain}

/-- The rail, with the calls that are being served. -/
abbrev RailPool := Pool RailLock SharedRail RailCallFailure RailReply RailRequest

/-- A rail serving calls in an order of arrivals and steps. -/
def SolanaUsdcRail.serve (chain : Chain) (rail : SolanaUsdcRail) (events : List (Event RailRequest))
    : RailPool :=
  (Pool.start (.start rail)).run (Locking.readWrite RailField) (RailRequest.handle chain) events

/-- The receipt that a call has been answered with, and the transfer it asked for. -/
def RailPool.issued (p : RailPool) (i : Nat) : Option (U128 × TransferReceipt) :=
  match p.threads[i]? with
  | some ⟨.receiptForTransfer transferId, .done (.receipt receipt), _⟩ => some (transferId, receipt)
  | _ => none

/-- The stages that the calls have come to. -/
def stagesOf (rows : List (RailRequest × RailStage)) : List RailStage :=
  rows.map Prod.snd

theorem published_preserved (chain : Chain)
    : Pool.Preserved (Locking.readWrite RailField) (railProtocol chain) (RailRequest.handle chain)
        (fun _ => .idle) (fun _ _ => True)
        fun (p : RailPool) rows => Published chain p.state (stagesOf rows) where
  arrive {p rows} request length published _ := by
    rw [stagesOf, List.map_append]
    refine ⟨published.history, published.shows, published.order, fun quiet => ?_,
      fun stage listed => ?_⟩
    · exact published.rest fun stage listed => quiet stage (List.mem_append_left _ listed)
    · rcases List.mem_append.mp listed with old | new
      · exact published.holds stage old
      · rw [List.mem_singleton.mp new]
        trivial
  access {p rows i t locks update next stage stage'} published _ _ _ there step apart _ := by
    have here : (stagesOf rows)[i]? = some stage := by
      rw [stagesOf, List.getElem?_map, there, Option.map_some]
    -- no other call needs a lock that this one excludes
    have apart {lock : RailLock} {field : RailField} (excludes : lock.field = field)
        (taken : .write field ∈ locks ∨ stage'.needs (.write field))
        : Others (stagesOf rows) i fun other => ¬ other.needs lock := by
      intro j other differs found needed
      rw [stagesOf, List.getElem?_map, Option.map_eq_some_iff] at found
      obtain ⟨row, at_row, rfl⟩ := found
      obtain ⟨access, stage⟩ := apart j row differs at_row lock needed
      have free := taken.elim (access _) (stage _)
      simp [Locking.readWrite, RwLock.field, RwLock.isWrite, ← excludes] at free
    rw [stagesOf, List.map_set]
    exact published.step here step (fun writes => apart rfl (.inr writes))
      fun locked => apart rfl (.inl locked)
  lock {p rows i t rest held stage stage'} published _ _ there abandons := by
    have here : (stagesOf rows)[i]? = some stage := by
      rw [stagesOf, List.getElem?_map, there, Option.map_some]
    have known := published.holds stage (List.mem_of_getElem? here)
    rw [stagesOf, List.map_set]
    rcases abandons with rfl | ends
    · rw [show (rows.map Prod.snd).set i stage' = stagesOf rows from Pool.set_of_getElem? here]
      exact published
    · cases ends with
      | kept =>
          rw [show (rows.map Prod.snd).set i stage = stagesOf rows from Pool.set_of_getElem? here]
          exact published
      | closed => exact published.pass here trivial fun _ => known
      | issued => exact published.pass here known (by rintro ⟨⟩)
      | refused => exact published.pass here trivial (by rintro ⟨⟩)
      | unproven => exact published.pass here trivial (by rintro ⟨⟩)

/-- No batch is being published while a list is read for a receipt. -/
def RailPool.Separate (p : RailPool) : Prop :=
  ∀ t ∈ p.threads, .read .settledTransfers ∈ t.held → ∀ u ∈ p.threads, .write .pdaData ∉ u.held

instance : DecidablePred RailPool.Separate :=
  fun p => inferInstanceAs (Decidable (∀ t ∈ p.threads, _ → ∀ u ∈ p.threads, _ ∉ u.held))

theorem aligned_set {rows : List (RailRequest × RailStage)} {i : Nat} {request : RailRequest}
    {stage' : RailStage} (aligned : ∀ stage ∈ stagesOf rows, stage.Aligned) (now : stage'.Aligned)
    : ∀ stage ∈ stagesOf (rows.set i (request, stage')), stage.Aligned := by
  intro stage listed
  rw [stagesOf, List.map_set] at listed
  rcases List.mem_or_eq_of_mem_set listed with old | rfl
  · exact aligned stage old
  · exact now

/-- While reading and publishing are kept apart, a receipt is made from parts of one batch. -/
theorem aligned_preserved (chain : Chain)
    : Pool.Preserved (Locking.readWrite RailField) (railProtocol chain) (RailRequest.handle chain)
        (fun _ => .idle) (fun p _ => RailPool.Separate p)
        fun (p : RailPool) rows =>
          Published chain p.state (stagesOf rows) ∧ ∀ stage ∈ stagesOf rows, stage.Aligned where
  arrive request length known _ := by
    refine ⟨(published_preserved chain).arrive request length known.1 trivial,
      fun stage listed => ?_⟩
    rw [stagesOf, List.map_append] at listed
    rcases List.mem_append.mp listed with old | new
    · exact known.2 stage old
    · rw [List.mem_singleton.mp new]
      trivial
  access {p rows i t locks update next stage stage'} known separate found rest there step apart
      held := by
    refine ⟨(published_preserved chain).access known.1 trivial found rest there step apart held, ?_⟩
    have listed : stage ∈ stagesOf rows := List.mem_map_of_mem (List.mem_of_getElem? there)
    refine aligned_set known.2 (RailStep.aligned step (known.2 stage listed)
      (known.1.holds stage listed) fun reads => ?_)
    -- the list is locked here, so no call is publishing a batch
    have settled : p.state.seqAt = p.state.committed.length := by
      refine known.1.rest fun other among writes => ?_
      obtain ⟨row, mem, rfl⟩ := List.mem_map.mp among
      obtain ⟨j, at_row⟩ := List.mem_iff_getElem?.mp mem
      obtain ⟨reader, atReader, reading⟩ := held i _ there
      obtain ⟨writer, atWriter, writing⟩ := held j row at_row
      exact separate reader (List.mem_of_getElem? atReader) (reading _ reads) writer
        (List.mem_of_getElem? atWriter) (writing _ writes)
    obtain ⟨number, list, tree, -⟩ := known.1.order
    omega
  lock {p rows i t rest held stage stage'} known found unfinished there abandons := by
    refine ⟨(published_preserved chain).lock known.1 found unfinished there abandons, ?_⟩
    have before := known.2 stage (List.mem_map_of_mem (List.mem_of_getElem? there))
    refine aligned_set known.2 ?_
    rcases abandons with rfl | ends
    · exact before
    · exact RailStage.Ends.aligned ends before

section Issued

variable {programId authority : Pubkey} {rail : SolanaUsdcRail} {i : Nat} {transferId : U128}
  {receipt : TransferReceipt}

theorem start_published (made : SolanaUsdcRail.new chain programId authority = .ok rail)
    : Published chain (SharedRail.start rail) (stagesOf []) := by
  obtain ⟨history, shows⟩ := start_shows made
  exact ⟨history, shows, ⟨le_rfl, le_rfl, le_rfl, Nat.zero_le _⟩, fun _ => rfl,
    fun stage listed => (by cases listed)⟩

theorem issued_stage {p : RailPool} {rows : List (RailRequest × RailStage)}
    (tracked : p.Tracked (Locking.readWrite RailField) (railProtocol chain) (AnswersFrom chain)
      rows)
    (issued : p.issued i = some (transferId, receipt))
    : ∃ view, .issued view ∈ stagesOf rows ∧ view.Makes chain transferId receipt := by
  unfold RailPool.issued at issued
  split at issued
  · rename_i held found
    cases issued
    obtain ⟨stage, there, located⟩ := tracked.stage found
    obtain ⟨view, rfl, makes⟩ := located.follows
    exact ⟨view, List.mem_map_of_mem (List.mem_of_getElem? there), makes⟩
  · cases issued

/-- Every issued receipt was made from parts of neighbouring batches. -/
theorem issued_view (made : SolanaUsdcRail.new chain programId authority = .ok rail)
    (events : List (Event RailRequest))
    (issued : (rail.serve chain events).issued i = some (transferId, receipt))
    : ∃ view : ReceiptView,
        view.Neighbours (rail.serve chain events).state.committed
        ∧ view.Makes chain transferId receipt
        ∧ ∀ (number : Nat) (batch : CommittedBatch),
            (rail.serve chain events).state.committed[number]? = some batch
            → batch.Sound chain (number + 1) := by
  have unguarded : Guarded (Pool.step (Locking.readWrite RailField) (RailRequest.handle chain))
      (fun _ _ => True) (Pool.start (SharedRail.start rail)) events :=
    fun _ _ _ _ => trivial
  obtain ⟨rows, tracked, published⟩ := (published_preserved chain).throughout
    (RailRequest.enters chain) (Pool.tracked_start (SharedRail.start rail)) (start_published made)
    unguarded events (List.prefix_refl events)
  obtain ⟨view, listed, makes⟩ := issued_stage tracked issued
  exact ⟨view, published.holds _ listed, makes, fun _ _ => published.history.sound⟩

end Issued

end Pools

/-- A receipt of a transfer of one batch, with a tree of that batch or the next. -/
structure AssembledFrom (chain : Chain) (committed : List CommittedBatch) (transferId : U128)
    (receipt : TransferReceipt) (number : Nat) (batch source : CommittedBatch) (index : Nat)
    (transfer : Transfer)
    : Prop where
  listed : committed[number]? = some batch
  tree : source = batch ∨ committed[number + 1]? = some source
  settled : batch.transfers[index]? = some transfer
  named : transfer.id.raw = transferId
  states : receipt.States transfer
  leafHash : receipt.leafHash = (hashTransfer chain.runtime.sha256 transfer).toHex
  merkleRoot : receipt.merkleRoot = (source.mmr.root chain.runtime.sha256).toHex
  proof : source.mmr.generateProof index = some (.ok receipt.proof)
  /-- The number is that of the batch, or of the one before. -/
  batchSeq : receipt.batchSeq = batch.batchSeq ∨ receipt.batchSeq.val + 1 = batch.batchSeq.val
  verifies : source = batch → receipt.verify chain.runtime.sha256 = .ok ()

section Assembled

variable {chain : Chain} {committed : List CommittedBatch} {transferId : U128}
  {receipt : TransferReceipt}

theorem ReceiptView.Neighbours.assembled {view : ReceiptView} (near : view.Neighbours committed)
    (makes : view.Makes chain transferId receipt)
    (sound : ∀ (number : Nat) (batch : CommittedBatch), committed[number]? = some batch
      → batch.Sound chain (number + 1))
    : ∃ number batch source index transfer,
        AssembledFrom chain committed transferId receipt number batch source index transfer
        ∧ (view.mmrAt = view.transfersAt → source = batch)
        ∧ (view.seqAt = view.transfersAt → receipt.batchSeq = batch.batchSeq) := by
  obtain ⟨counted, transfer, index, proof, there, named, generated, rfl⟩ := makes
  obtain ⟨transfers, transfersAt, batchSeq, seqAt, mmr, mmrAt⟩ := view
  obtain ⟨fromList, fromSeq, fromTree, ⟨numberLow, numberHigh⟩, treeLow, treeHigh⟩ := near
  simp only at *
  obtain ⟨batch, listed, rfl⟩ := Option.map_eq_some_iff.mp fromList
  obtain ⟨numbered, listedSeq, rfl⟩ := Option.map_eq_some_iff.mp fromSeq
  obtain ⟨source, listedTree, rfl⟩ := Option.map_eq_some_iff.mp fromTree
  -- an empty list has no receipt, and neither has a rail without a number
  cases transfersAt with
  | zero =>
      obtain rfl := Option.some.inj listed
      cases there
  | succ number =>
      cases seqAt with
      | zero =>
          obtain rfl := Option.some.inj listedSeq
          exact absurd rfl counted
      | succ earlier =>
          have soundHere := sound number batch listed
          have sameTree (same : mmrAt = number + 1) : source = batch := by
            subst same
            exact Option.some.inj (listedTree.symm.trans listed)
          have sameSeq (same : earlier + 1 = number + 1) : numbered.batchSeq = batch.batchSeq := by
            cases same
            exact congrArg CommittedBatch.batchSeq (Option.some.inj (listedSeq.symm.trans listed))
          refine ⟨number, batch, source, index, transfer, ⟨listed, ?_, there, named,
            receiptOf_states .., rfl, rfl, generated, ?_, ?_⟩, sameTree, sameSeq⟩
          · rcases Nat.le_or_eq_of_le_succ treeHigh with same | next
            · exact .inl (sameTree (le_antisymm same treeLow))
            · subst next
              exact .inr listedTree
          · rcases Nat.le_or_eq_of_le_succ numberHigh with same | next
            · exact .inl (sameSeq (le_antisymm numberLow same))
            · refine .inr ?_
              rw [soundHere.numbered]
              exact (congrArg Nat.succ (sound earlier numbered listedSeq).numbered).trans
                next.symm
          · rintro rfl
            obtain ⟨own, generated', verified⟩ := soundHere.provable there
            obtain rfl : own = proof := by
              rw [generated] at generated'
              exact (Except.ok.inj (Option.some.inj generated')).symm
            rw [← verified]
            exact TransferReceipt.verify_of_proof rfl rfl

/-- The strings hashed for the committed batches, and those hashed to verify a receipt of one of
their transfers.
-/
def hashedStrings (sha256 : Bytes → Hash32) (committed : List CommittedBatch)
    (receipt : TransferReceipt)
    : List Bytes :=
  committed.flatMap fun batch =>
    committedStrings sha256 (batchItems batch.transfers) batch.mmr
    ++ batch.transfers.flatMap fun transfer =>
        receipt.proof.verifiedStrings sha256 (Transfer.codec.encode transfer)

/-- Where the hash function has no collision, a receipt that verifies is of a transfer in the batch
whose root it shows.
-/
theorem AssembledFrom.truthful {number index : Nat} {batch source : CommittedBatch}
    {transfer : Transfer}
    (assembled : AssembledFrom chain committed transferId receipt number batch source index
      transfer)
    (sound : ∀ (number : Nat) (batch : CommittedBatch), committed[number]? = some batch
      → batch.Sound chain (number + 1)) (free : CollisionFree chain.runtime.sha256
      { string | string ∈ hashedStrings chain.runtime.sha256 committed receipt })
    (verifies : receipt.verify chain.runtime.sha256 = .ok ())
    : source ∈ committed ∧ transfer ∈ source.transfers := by
  have here := List.mem_of_getElem? assembled.listed
  have listed : ∃ number : Nat, committed[number]? = some source := by
    rcases assembled.tree with rfl | next
    · exact ⟨number, assembled.listed⟩
    · exact ⟨number + 1, next⟩
  obtain ⟨at_source, there⟩ := listed
  have mem := List.mem_of_getElem? there
  rw [TransferReceipt.verify_of_proof assembled.merkleRoot assembled.leafHash] at verifies
  have committedHashed : ∀ s ∈ committedStrings chain.runtime.sha256 (batchItems source.transfers)
      source.mmr, s ∈ hashedStrings chain.runtime.sha256 committed receipt := fun s hashed =>
    List.mem_flatMap.mpr ⟨source, mem, List.mem_append_left _ hashed⟩
  obtain ⟨range, commits⟩ := commits_of_built (sound _ _ there).leaves committedHashed
  obtain ⟨target, accepted⟩ := MmrProof.verify_eq_ok.mp verifies
  have item := commits.mem_of_accepted free (fun s hashed => ?_) accepted
  · obtain ⟨other, listed, same⟩ := List.mem_map.mp item
    rw [← Transfer.codec.encode_injective same]
    exact ⟨mem, listed⟩
  · exact List.mem_flatMap.mpr ⟨batch, here, List.mem_append_right _
      (List.mem_flatMap.mpr ⟨transfer, List.mem_of_getElem? assembled.settled, hashed⟩)⟩

end Assembled

variable {chain : Chain} {programId authority : Pubkey} {rail : SolanaUsdcRail}

/-- However calls of the rail interleave, every issued receipt states a transfer of a committed
batch. Its tree is of that batch or the next, and its number of that batch or the one before; with
the batch's own tree it verifies.
-/
theorem receipts_assembled_from_neighbours
    (made : SolanaUsdcRail.new chain programId authority = .ok rail)
    (events : List (Event RailRequest)) (i : Nat) (transferId : U128) (receipt : TransferReceipt)
    (issued : (rail.serve chain events).issued i = some (transferId, receipt))
    : ∃ number batch source index transfer,
        AssembledFrom chain (rail.serve chain events).state.committed transferId receipt number
          batch source index transfer := by
  obtain ⟨view, near, makes, sound⟩ := issued_view made events issued
  obtain ⟨number, batch, source, index, transfer, assembled, -⟩ := near.assembled makes sound
  exact ⟨number, batch, source, index, transfer, assembled⟩

/-- A batch is submitted. A call for a receipt reads its list, and before it reads the tree the next
batch's is published. Then the second batch is finished, and another receipt is requested.
-/
def exampleRaces : List (Event RailRequest) :=
  List.flatten [
    [.arrive (.submitBatch 1 [exampleTransfer 7 500])], List.replicate 16 (.advance 0),
    [.arrive (.receiptForTransfer 7)], List.replicate 3 (.advance 1),
    [.arrive (.submitBatch 2 [exampleTransfer 9 700])], List.replicate 5 (.advance 2),
    List.replicate 8 (.advance 1), List.replicate 16 (.advance 2),
    [.arrive (.receiptForTransfer 9)], List.replicate 8 (.advance 3)]

theorem exampleRaces_mixed
    : ∃ rail receipt, exampleRail = .ok rail
        ∧ (rail.serve exampleChain exampleRaces).issued 1 = some (7, receipt)
        ∧ receipt.verify polynomialHash ≠ .ok () := by
  have facts : okAnd exampleRail fun rail =>
      ((rail.serve exampleChain exampleRaces).issued 1).any fun (transferId, receipt) =>
        decide (transferId = 7 ∧ receipt.verify polynomialHash ≠ .ok ()) := by
    decide +kernel
  obtain ⟨rail, made, answered⟩ := exists_ok_of_okAnd facts
  obtain ⟨⟨transferId, receipt⟩, issued, holds⟩ := Option.any_eq_true .. |>.mp answered
  obtain ⟨rfl, mixed⟩ := of_decide_eq_true holds
  exact ⟨rail, receipt, made, issued, mixed⟩

/-- Witness: the first receipt is put together from both batches, and does not verify. -/
theorem receipts_assembled_from_neighbours_two
    : ∃ rail receipt, exampleRail = .ok rail
        ∧ (rail.serve exampleChain exampleRaces).issued 1 = some (7, receipt)
        ∧ receipt.verify polynomialHash ≠ .ok ()
        ∧ ∃ number batch source index transfer,
            AssembledFrom exampleChain (rail.serve exampleChain exampleRaces).state.committed 7
              receipt number batch source index transfer := by
  obtain ⟨rail, receipt, made, issued, mixed⟩ := exampleRaces_mixed
  exact ⟨rail, receipt, made, issued, mixed,
    receipts_assembled_from_neighbours made exampleRaces 1 7 receipt issued⟩

/-- However calls of the rail interleave, a receipt that was issued and verifies states a transfer
of the committed batch whose root it shows, unless the hash function has a collision.
-/
theorem verified_receipts_truthful
    (made : SolanaUsdcRail.new chain programId authority = .ok rail)
    (events : List (Event RailRequest)) (i : Nat) (transferId : U128) (receipt : TransferReceipt)
    (issued : (rail.serve chain events).issued i = some (transferId, receipt))
    (free : CollisionFree chain.runtime.sha256
      { string | string ∈ hashedStrings chain.runtime.sha256
          (rail.serve chain events).state.committed receipt })
    (verifies : receipt.verify chain.runtime.sha256 = .ok ())
    : ∃ batch ∈ (rail.serve chain events).state.committed,
        receipt.merkleRoot = (batch.mmr.root chain.runtime.sha256).toHex
        ∧ ∃ transfer ∈ batch.transfers, transfer.id.raw = transferId ∧ receipt.States transfer := by
  obtain ⟨view, near, makes, sound⟩ := issued_view made events issued
  obtain ⟨number, batch, source, index, transfer, assembled, -⟩ := near.assembled makes sound
  obtain ⟨listed, settled⟩ := assembled.truthful sound free verifies
  exact ⟨source, listed, assembled.merkleRoot, transfer, settled, assembled.named, assembled.states⟩

/-- Witness: the receipt that is requested last verifies. -/
theorem verified_receipts_truthful_last
    : ∃ rail receipt, exampleRail = .ok rail
        ∧ (rail.serve exampleChain exampleRaces).issued 3 = some (9, receipt)
        ∧ receipt.verify polynomialHash = .ok ()
        ∧ ∃ batch ∈ (rail.serve exampleChain exampleRaces).state.committed,
            receipt.merkleRoot = (batch.mmr.root polynomialHash).toHex
            ∧ ∃ transfer ∈ batch.transfers,
                transfer.id.raw = 9 ∧ receipt.States transfer := by
  have facts : okAnd exampleRail fun rail =>
      ((rail.serve exampleChain exampleRaces).issued 3).any fun (transferId, receipt) =>
        decide (transferId = 9 ∧ receipt.verify polynomialHash = .ok ()
          ∧ CollisionFree polynomialHash
              { string | string ∈ hashedStrings polynomialHash
                  (rail.serve exampleChain exampleRaces).state.committed receipt }) := by
    decide +kernel
  obtain ⟨rail, made, answered⟩ := exists_ok_of_okAnd facts
  obtain ⟨⟨transferId, receipt⟩, issued, holds⟩ := Option.any_eq_true .. |>.mp answered
  obtain ⟨rfl, verifies, free⟩ := of_decide_eq_true holds
  exact ⟨rail, receipt, made, issued, verifies,
    verified_receipts_truthful made exampleRaces 3 9 receipt issued free verifies⟩

/-- A receipt verifies, and the batch of its number contains the transfer. The root it shows is the
one that this batch was committed to the registry with.
-/
structure ValidReceipt (chain : Chain) (committed : List CommittedBatch) (transferId : U128)
    (receipt : TransferReceipt)
    : Prop where
  verifies : receipt.verify chain.runtime.sha256 = .ok ()
  backed
    : ∃ batch ∈ committed, batch.batchSeq = receipt.batchSeq
      ∧ (∃ root, batch.registry = SettlementRoot.codec.encode root
          ∧ root.batchSeq = receipt.batchSeq ∧ receipt.merkleRoot = root.merkleRoot.toHex)
      ∧ ∃ transfer ∈ batch.transfers, transfer.id.raw = transferId ∧ receipt.States transfer

/-- A receipt that was issued does not verify. -/
theorem mixed_receipt_issued
    : ∃ rail receipt, exampleRail = .ok rail
        ∧ (rail.serve exampleChain exampleRaces).issued 1 = some (7, receipt)
        ∧ ¬ ValidReceipt exampleChain (rail.serve exampleChain exampleRaces).state.committed 7
            receipt := by
  obtain ⟨rail, receipt, made, issued, mixed⟩ := exampleRaces_mixed
  exact ⟨rail, receipt, made, issued, fun valid => mixed valid.verifies⟩

/-- In every schedule in which no call holds the list while another holds the registry, every issued
receipt is valid.
-/
theorem separate_receipts_valid (made : SolanaUsdcRail.new chain programId authority = .ok rail)
    (events : List (Event RailRequest))
    (separate : Guarded (Pool.step (Locking.readWrite RailField) (RailRequest.handle chain))
      (fun p _ => RailPool.Separate p) (Pool.start (.start rail)) events)
    (i : Nat) (transferId : U128) (receipt : TransferReceipt)
    (issued : (rail.serve chain events).issued i = some (transferId, receipt))
    : ValidReceipt chain (rail.serve chain events).state.committed transferId receipt := by
  obtain ⟨rows, tracked, published, aligned⟩ := (aligned_preserved chain).throughout
    (RailRequest.enters chain) (Pool.tracked_start (SharedRail.start rail))
    ⟨start_published made, fun stage listed => (by cases listed)⟩ separate events
    (List.prefix_refl events)
  obtain ⟨view, listed, makes⟩ := issued_stage tracked issued
  have near : view.Neighbours (rail.serve chain events).state.committed := published.holds _ listed
  obtain ⟨number, atNumber⟩ := aligned _ listed
  obtain ⟨_, batch, source, index, transfer, assembled, tree, seq⟩ :=
    near.assembled makes fun _ _ => published.history.sound
  obtain rfl := tree atNumber
  have sameSeq := seq number
  obtain ⟨root, registry, numbered, shown⟩ := (published.history.sound assembled.listed).registered
  refine ⟨assembled.verifies rfl, source, List.mem_of_getElem? assembled.listed, sameSeq.symm,
    ⟨root, registry, numbered.trans sameSeq.symm, ?_⟩, transfer,
    List.mem_of_getElem? assembled.settled, assembled.named, assembled.states⟩
  rw [shown, assembled.merkleRoot]

/-- Two batches are submitted, and a receipt is requested after each. -/
def receiptTurns : List (Event RailRequest) :=
  List.flatten [
    [.arrive (.submitBatch 1 [exampleTransfer 7 500])], List.replicate 16 (.advance 0),
    [.arrive (.receiptForTransfer 7)], List.replicate 8 (.advance 1),
    [.arrive (.submitBatch 2 [exampleTransfer 9 700])], List.replicate 16 (.advance 2),
    [.arrive (.receiptForTransfer 9)], List.replicate 8 (.advance 3)]

/-- Witness: calls that take turns. The first receipt stays valid when the second batch is in. -/
theorem separate_receipts_valid_inTurn
    : ∃ rail receipt, exampleRail = .ok rail
        ∧ (rail.serve exampleChain receiptTurns).issued 1 = some (7, receipt)
        ∧ ValidReceipt exampleChain (rail.serve exampleChain receiptTurns).state.committed 7
            receipt := by
  have facts : okAnd exampleRail fun rail =>
      decide (Guarded (Pool.step (Locking.readWrite RailField) (RailRequest.handle exampleChain))
          (fun p _ => RailPool.Separate p) (Pool.start (.start rail)) receiptTurns)
      && ((rail.serve exampleChain receiptTurns).issued 1).any fun (transferId, _) =>
          transferId = 7 := by
    decide +kernel
  obtain ⟨rail, made, holds⟩ := exists_ok_of_okAnd facts
  rw [Bool.and_eq_true] at holds
  obtain ⟨⟨transferId, receipt⟩, issued, named⟩ := Option.any_eq_true .. |>.mp holds.2
  obtain rfl := of_decide_eq_true named
  exact ⟨rail, receipt, made, issued, separate_receipts_valid made receiptTurns
    (of_decide_eq_true holds.1) 1 7 receipt issued⟩

end TrustLedger.Demo
