import TrustLedger.Demo.Commits
import TrustLedger.Demo.Lockstep
import TrustLedger.Foundation.Interleaving
import TrustLedger.SolanaSettle.Receipt

/-! Receipts of the Solana rail, step by step. The registry's data, the tree, the list of transfers
and the batch number of the last batch are published one after the other, each under a lock of its
own, and a receipt is put together from three of them.
-/

namespace TrustLedger.Demo

open Foundation LedgerCore Merkle SolanaSettle

/-- What the rail's locks protect. -/
inductive RailField where
  | pdaData
  | latestMmr
  | settledTransfers
  deriving DecidableEq, Repr

abbrev RailLock := RwLock RailField

/-- A batch that the registry has accepted, its tree, and the registry's data from then on. -/
structure CommittedBatch where
  batchSeq : U64
  transfers : List Transfer
  mmr : MerkleMountainRange
  registry : Bytes

/-- The rail, and its history: the batches committed, and how many they were when the tree, the list
and the number were last written. No call reads the history.
-/
structure SharedRail where
  rail : SolanaUsdcRail
  committed : List CommittedBatch
  mmrAt : Nat
  transfersAt : Nat
  seqAt : Nat

inductive RailRequest where
  | submitBatch (batchSeq : U64) (transfers : List Transfer)
  | receiptForTransfer (transferId : U128)
  deriving DecidableEq, Repr

inductive RailReply where
  | submission (submission : RailSubmission)
  | receipt (receipt : TransferReceipt)
  deriving DecidableEq

/-- How a call of the rail fails. -/
inductive RailCallFailure where
  | rail (failure : RailFailure)
  | merkle (error : MmrError)
  deriving DecidableEq

abbrev RailTask := Task RailLock SharedRail RailCallFailure

namespace SharedRail

def writeTree (mmr : MerkleMountainRange) (s : SharedRail) : SharedRail :=
  { s with rail := { s.rail with latestMmr := mmr }, mmrAt := s.committed.length }

def writeList (transfers : List Transfer) (s : SharedRail) : SharedRail :=
  {
    s with
    rail := { s.rail with settledTransfers := transfers }
    transfersAt := s.committed.length
  }

def writeSeq (batchSeq : U64) (s : SharedRail) : SharedRail :=
  { s with rail := { s.rail with batchSeq }, seqAt := s.committed.length }

/-- Nothing has been submitted yet. -/
def start (rail : SolanaUsdcRail) : SharedRail :=
  ⟨rail, [], 0, 0, 0⟩

end SharedRail

namespace SolanaUsdcRail

section Calls

variable (chain : Chain)

/-- The tree and the total of a batch, made before any lock is taken. -/
def batchLeaves (transfers : List Transfer) : Except RailFailure (MerkleMountainRange × U128) := do
  ensure (transfers ≠ []) (.returned (.submissionFailed "cannot settle empty batch"))
  transfers.foldlM (addLeaf chain) (.new, 0)

/-- Commit a batch on top of the registry. -/
def commitRegistry (batchSeq : U64) (transfers : List Transfer) (mmr : MerkleMountainRange)
    (totalAmount : U128) (s : SharedRail)
    : Except RailFailure CommitParams × SharedRail :=
  match SettlementRoot.deserializeFrom s.rail.pdaData with
  | .error error => (.error (.returned (.submissionFailed error.text)), s)
  | .ok current =>
      let params :=
        commitParams current (mmr.root chain.runtime.sha256) batchSeq transfers.length totalAmount
      match send chain s.rail.programId s.rail.authority [] (fun _ _ => .commitSettlement params)
        "on-chain commit error: " s.rail.pdaData with
      | .error failure pdaData => (.error failure, { s with rail := { s.rail with pdaData } })
      | .ok _ pdaData =>
          (.ok params, {
            s with
            rail := { s.rail with pdaData }
            committed := s.committed ++ [⟨batchSeq, transfers, mmr, pdaData⟩]
          })

/-- What is answered for a committed batch. -/
def submissionOf (batchSeq : U64) (transfers : List Transfer) (params : CommitParams)
    : RailSubmission :=
  {
    railName := name
    batchSeq
    transferCount := transfers.length
    totalAmount := params.totalSettledAmount
    reference := s!"solana:tx:batch-{batchSeq.val}:root:{params.merkleRoot.toHex}"
    merkleRoot := some params.merkleRoot.toHex
  }

/-- Submit a batch, step by step. The registry stays locked until everything is published. -/
def submitBatchSteps (batchSeq : U64) (transfers : List Transfer) : RailTask RailSubmission :=
  match batchLeaves chain transfers with
  | .error failure => .fail (.rail failure)
  | .ok (mmr, totalAmount) =>
      .holding (.write .pdaData) do
        match ← .update [.write .pdaData] (commitRegistry chain batchSeq transfers mmr totalAmount)
        with
        | .error failure => .fail (.rail failure)
        | .ok params => do
            .holding (.write .latestMmr)
              (.update [.write .latestMmr] fun s => ((), s.writeTree mmr))
            .holding (.write .settledTransfers)
              (.update [.write .settledTransfers] fun s => ((), s.writeList transfers))
            .update [] fun s => ((), s.writeSeq batchSeq)
            return submissionOf batchSeq transfers params

/-- The receipt of a transfer, with a proof at its index. -/
def receiptOf (batchSeq : U64) (transfer : Transfer) (mmr : MerkleMountainRange) (proof : MmrProof)
    : TransferReceipt :=
  {
    transferId := transfer.id.raw
    amount := transfer.amount.units
    debitAccount := transfer.debitAccountId.raw
    creditAccount := transfer.creditAccountId.raw
    leafHash := (hashTransfer chain.runtime.sha256 transfer).toHex
    batchSeq
    merkleRoot := (mmr.root chain.runtime.sha256).toHex
    proof
  }

def generateReceipt (batchSeq : U64) (transferIndex : Nat) (transfer : Transfer)
    : RailTask TransferReceipt :=
  .holding (.read .latestMmr) do
    let mmr ← .update [.read .latestMmr] fun s => (s.rail.latestMmr, s)
    match mmr.generateProof transferIndex with
    | none => .fail (.rail .panicked)
    | some (.error error) => .fail (.merkle error)
    | some (.ok proof) => return receiptOf chain batchSeq transfer mmr proof

/-- The receipt of a transfer settled in the last batch. The list stays locked throughout. -/
def receiptForTransfer (transferId : U128) : RailTask TransferReceipt :=
  .holding (.read .settledTransfers) do
    let transfers ← .update [.read .settledTransfers] fun s => (s.rail.settledTransfers, s)
    let batchSeq ← .update [] fun s => (s.rail.batchSeq, s)
    if transfers = [] ∨ batchSeq = 0 then
      .fail (.rail (.returned (.submissionFailed
        "No settlement batch has been committed to Solana yet")))
    else
      match transfers.zipIdx.find? fun entry => entry.1.id.raw = transferId with
      | none =>
          .fail (.rail (.returned (.submissionFailed
            s!"Transfer {transferId.val} not found in latest Solana settlement batch")))
      | some (transfer, index) => generateReceipt chain batchSeq index transfer

end Calls

end SolanaUsdcRail

def RailRequest.handle (chain : Chain) : RailRequest → RailTask RailReply
  | .submitBatch batchSeq transfers =>
      return .submission (← SolanaUsdcRail.submitBatchSteps chain batchSeq transfers)
  | .receiptForTransfer transferId =>
      return .receipt (← SolanaUsdcRail.receiptForTransfer chain transferId)

section Whole

variable {chain : Chain} {s : SharedRail} {batchSeq : U64} {transfers : List Transfer}

theorem prepareBatch_eq (rail : SolanaUsdcRail)
    : SolanaUsdcRail.prepareBatch chain rail batchSeq transfers
      = (do
          let (mmr, totalAmount) ← SolanaUsdcRail.batchLeaves chain transfers
          let current ←
            (SettlementRoot.deserializeFrom rail.pdaData).mapError fun error =>
              .returned (.submissionFailed error.text)
          return (mmr, SolanaUsdcRail.commitParams current (mmr.root chain.runtime.sha256) batchSeq
            transfers.length totalAmount)) := by
  simp only [SolanaUsdcRail.prepareBatch, SolanaUsdcRail.batchLeaves, bind_assoc]

/-- The step that commits a batch does to the registry what the whole call does. -/
theorem commitRegistry_cases (s : SharedRail) (batchSeq : U64) {mmr : MerkleMountainRange}
    {totalAmount : U128}
    (made : SolanaUsdcRail.batchLeaves chain transfers = .ok (mmr, totalAmount))
    : (∃ failure,
        SolanaUsdcRail.commitRegistry chain batchSeq transfers mmr totalAmount s
          = (.error failure, s)
        ∧ SolanaUsdcRail.submitBatch chain batchSeq transfers s.rail = .error failure s.rail)
      ∨ ∃ params pdaData,
        SolanaUsdcRail.commitRegistry chain batchSeq transfers mmr totalAmount s
          = (.ok params, {
              s with
              rail := { s.rail with pdaData }
              committed := s.committed ++ [⟨batchSeq, transfers, mmr, pdaData⟩]
            })
        ∧ SolanaUsdcRail.submitBatch chain batchSeq transfers s.rail
          = .ok (SolanaUsdcRail.submissionOf batchSeq transfers params) {
              s.rail with
              pdaData, latestMmr := mmr, settledTransfers := transfers, batchSeq
            } := by
  have prepared := @prepareBatch_eq chain batchSeq transfers s.rail
  rw [made] at prepared
  unfold SolanaUsdcRail.submitBatch SolanaUsdcRail.commitRegistry
  rw [get_bind, check_bind, prepared]
  cases SettlementRoot.deserializeFrom s.rail.pdaData with
  | error error => exact .inl ⟨_, rfl, rfl⟩
  | ok current =>
      cases sent : SolanaUsdcRail.send chain s.rail.programId s.rail.authority []
        (fun _ _ => .commitSettlement (SolanaUsdcRail.commitParams current
          (mmr.root chain.runtime.sha256) batchSeq transfers.length totalAmount))
        "on-chain commit error: " s.rail.pdaData with
      | error failure pdaData =>
          obtain rfl := SolanaUsdcRail.send_error sent
          refine .inl ⟨failure, ?_, ?_⟩
          · simp only [sent]
          · simp only [Bind.bind, Except.bind, Except.mapError, Pure.pure, Except.pure, sent]
            rfl
      | ok _ pdaData =>
          refine .inr ⟨SolanaUsdcRail.commitParams current (mmr.root chain.runtime.sha256) batchSeq
            transfers.length totalAmount, pdaData, ?_, ?_⟩
          · simp only [sent]
          · simp only [Bind.bind, Except.bind, Except.mapError, Pure.pure, Except.pure, sent]
            rfl

end Whole

section History

variable {chain : Chain} {s : SharedRail}

/-- The batch of a number; before the first there is an empty one. -/
def batchAt (committed : List CommittedBatch) : Nat → Option CommittedBatch
  | 0 => some ⟨0, [], .new, []⟩
  | number + 1 => committed[number]?

/-- A batch was committed under its number, with the tree of its transfers. The registry then shows
the number and the root.
-/
structure CommittedBatch.Sound (chain : Chain) (batch : CommittedBatch) (number : Nat) : Prop where
  numbered : batch.batchSeq.val = number
  nonempty : batch.transfers ≠ []
  leaves : MerkleMountainRange.new.appendLeaves chain.runtime.sha256 (batchItems batch.transfers)
    = some batch.mmr
  registered : ∃ root, batch.registry = SettlementRoot.codec.encode root
    ∧ root.batchSeq = batch.batchSeq ∧ root.merkleRoot = batch.mmr.root chain.runtime.sha256

/-- The batches committed, and a registry that has counted them. -/
structure History (chain : Chain) (pdaData : Bytes) (committed : List CommittedBatch) : Prop where
  sound
    : ∀ {number : Nat} {batch : CommittedBatch}, committed[number]? = some batch
      → batch.Sound chain (number + 1)
  registry : ∃ root, pdaData = SettlementRoot.codec.encode root
    ∧ root.batchSeq.val = committed.length

theorem History.commit (history : History chain s.rail.pdaData s.committed) {batchSeq : U64}
    {transfers : List Transfer} {submission : RailSubmission} {rail' : SolanaUsdcRail}
    (ran : SolanaUsdcRail.submitBatch chain batchSeq transfers s.rail = .ok submission rail')
    : History chain rail'.pdaData
        (s.committed ++ [⟨batchSeq, transfers, rail'.latestMmr, rail'.pdaData⟩]) := by
  obtain ⟨root, holds, count⟩ := history.registry
  obtain ⟨next, commits, -, -⟩ := SolanaUsdcRail.submitBatch_ok holds ran
  have numbered : batchSeq.val = s.committed.length + 1 := by rw [commits.sequence, count]
  constructor
  · intro number batch found
    rcases Pool.getElem?_snoc_cases found with ⟨-, old⟩ | ⟨rfl, rfl⟩
    · exact history.sound old
    · exact ⟨numbered, commits.nonempty, commits.leaves, next, commits.holds, commits.numbered,
        commits.merkleRoot⟩
  · refine ⟨next, commits.holds, ?_⟩
    rw [commits.numbered, numbered, List.length_append, List.length_singleton]

/-- What is published is of the batches it is said to be of. -/
structure SharedRail.Shows (s : SharedRail) : Prop where
  mmr : (batchAt s.committed s.mmrAt).map CommittedBatch.mmr = some s.rail.latestMmr
  transfers
    : (batchAt s.committed s.transfersAt).map CommittedBatch.transfers
      = some s.rail.settledTransfers
  batchSeq : (batchAt s.committed s.seqAt).map CommittedBatch.batchSeq = some s.rail.batchSeq

theorem start_shows {programId authority : Pubkey} {rail : SolanaUsdcRail}
    (made : SolanaUsdcRail.new chain programId authority = .ok rail)
    : History chain rail.pdaData [] ∧ (SharedRail.start rail).Shows := by
  obtain ⟨bump, holds⟩ := SolanaUsdcRail.new_holds made
  have empty : rail.latestMmr = .new ∧ rail.settledTransfers = [] ∧ rail.batchSeq = 0 := by
    unfold SolanaUsdcRail.new at made
    dsimp only at made
    split at made
    · cases made
    · cases made
      exact ⟨rfl, rfl, rfl⟩
  obtain ⟨mmr, transfers, batchSeq⟩ := empty
  refine ⟨⟨fun found => ?_, _, holds, rfl⟩, ?_, ?_, ?_⟩
  · cases found
  · simp [SharedRail.start, batchAt, mmr]
  · simp [SharedRail.start, batchAt, transfers]
  · simp [SharedRail.start, batchAt, batchSeq]

/-- Every transfer of a committed batch has a proof that verifies. -/
theorem CommittedBatch.Sound.provable {batch : CommittedBatch} {number index : Nat}
    {transfer : Transfer} (sound : batch.Sound chain number)
    (found : batch.transfers[index]? = some transfer)
    : ∃ proof, batch.mmr.generateProof index = some (.ok proof)
        ∧ proof.verify chain.runtime.sha256 (batch.mmr.root chain.runtime.sha256)
            (hashTransfer chain.runtime.sha256 transfer)
          = .ok () := by
  have built := sound.leaves
  rw [MerkleMountainRange.appendLeaves_eq] at built
  obtain ⟨mmr, range, built', stores, leaves⟩ :=
    stores_new.appendLeafHashes
      ((batchItems batch.transfers).map (hashLeaf chain.runtime.sha256))
  obtain rfl : mmr = batch.mmr := Option.some.inj (built'.symm.trans built)
  have there
      : (MountainRange.rangeLeaves range)[index]?
        = some (hashTransfer chain.runtime.sha256 transfer) := by
    have list : MountainRange.rangeLeaves range
        = (batchItems batch.transfers).map (hashLeaf chain.runtime.sha256) :=
      leaves
    simp [list, batchItems, found, hashTransfer]
  have stored : index < batch.mmr.leafPositions.length := by
    rw [stores.ranges.length_leaves]
    exact (List.getElem?_eq_some_iff.mp there).1
  obtain ⟨proof, hash, generated, -, own, verified⟩ :=
    stores.proof_verifies (List.getElem?_eq_getElem stored)
  obtain rfl : hash = _ := Option.some.inj (own.symm.trans there)
  exact ⟨proof, generated, verified⟩

end History

theorem receiptOf_states (chain : Chain) (batchSeq : U64) (transfer : Transfer)
    (mmr : MerkleMountainRange) (proof : MmrProof)
    : (SolanaUsdcRail.receiptOf chain batchSeq transfer mmr proof).States transfer :=
  ⟨rfl, rfl, rfl, rfl⟩

/-- Libraries that hash with a polynomial. -/
def exampleChain : Chain :=
  {
    exampleServices.chain with
    runtime := { exampleServices.chain.runtime with sha256 := polynomialHash }
  }

/-- A posted transfer of the given id and amount. -/
def exampleTransfer (id amount : U128) : Transfer :=
  {
    id := ⟨id⟩
    debitAccountId := ⟨1_000_101⟩
    creditAccountId := ⟨2_000_001⟩
    amount := ⟨amount⟩
    state := .posted
    pendingId := none
    timestamp := 1
  }

def exampleRail : Except RailFailure SolanaUsdcRail :=
  SolanaUsdcRail.new exampleChain SolanaUsdcRail.defaultPubkey SolanaUsdcRail.defaultPubkey

end TrustLedger.Demo
