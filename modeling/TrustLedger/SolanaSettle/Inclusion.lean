import TrustLedger.Merkle.Binding
import TrustLedger.SolanaSettle.Registry

/-! What an accepted inclusion proof says about the committed batch. The program compares the proof
with the stored root but not its leaf count with the stored transfer count, so a proof is about the
leaf at its index exactly when it states the count of the batch.
-/

namespace TrustLedger.SolanaSettle

open Foundation Merkle

section Accepted

variable {rt : Runtime} {programId : Pubkey} {accounts : List AccountInfo} {memory memory' : Memory}

theorem commit_writes {authorityInfo pdaInfo : AccountInfo} {rest : List AccountInfo}
    {params : CommitParams} (committed : process rt programId (authorityInfo :: pdaInfo :: rest)
      (SettlementInstruction.commitSettlement params).pack memory = .ok () memory')
    : ∃ state left, SettlementRoot.codec.decode (memory' pdaInfo.cell) = some (state, left)
        ∧ state.merkleRoot = params.merkleRoot ∧ state.transferCount = params.transferCount := by
  rw [process_pack] at committed
  obtain ⟨cell, next, admitted, room, rfl⟩ := store_eq_ok.mp committed
  obtain ⟨signer, registry, current, passed, rfl⟩ := admitCommit_ok admitted
  obtain ⟨others, same⟩ := passed.accounts_eq
  cases same
  obtain ⟨timestamp, next_eq⟩ := passed.next_eq
  refine ⟨next, _, Memory.decode_write room next, ?_, ?_⟩
  · rw [next_eq]
    rfl
  · rw [next_eq]
    rfl

/-- An accepted inclusion proof was checked against the registry in the first account. -/
theorem inclusion_checked {pdaInfo : AccountInfo} {rest : List AccountInfo} {leafHash : Hash32}
    {proofBytes : { bytes : Bytes // bytes.length < 2 ^ 32 }}
    (verified : process rt programId (pdaInfo :: rest)
      (SettlementInstruction.verifyInclusion leafHash proofBytes).pack memory = .ok () memory')
    : ∃ current proof, SettlementRoot.codec.decode (memory pdaInfo.cell) = some (current, [])
        ∧ MmrProof.fromBytes proofBytes.1 = some proof
        ∧ proof.verify rt.sha256 current.merkleRoot leafHash = .ok () := by
  rw [process_pack] at verified
  obtain ⟨admitted, -⟩ := processVerifyInclusion_eq_ok.mp verified
  obtain ⟨registry, current, proof, passed⟩ := admitInclusion_eq_ok.mp admitted
  obtain ⟨others, same⟩ := passed.accounts_eq
  cases same
  exact ⟨current, proof, passed.read, passed.decoded, passed.verified⟩

end Accepted

/-- The registry in the account of a committed batch holds the range of the batch's items, one for
each transfer. Then an accepted inclusion proof is about the leaf at its index of that batch, with
the batch's leaf count, exactly when it states that count.
-/
theorem inclusion_bound_iff (rt : Runtime) (programId : Pubkey)
    (authorityInfo pdaInfo : AccountInfo) (rest : List AccountInfo) (params : CommitParams)
    (memory committedMemory : Memory)
    (committed : process rt programId (authorityInfo :: pdaInfo :: rest)
      (SettlementInstruction.commitSettlement params).pack memory = .ok () committedMemory)
    (items : List Bytes) (mmr : MerkleMountainRange)
    (built : MerkleMountainRange.new.appendLeaves rt.sha256 items = some mmr)
    (root : params.merkleRoot = mmr.root rt.sha256)
    (count : params.transferCount.val = items.length)
    (registryInfo : AccountInfo) (others : List AccountInfo) (leafHash : Hash32)
    (proofBytes : { bytes : Bytes // bytes.length < 2 ^ 32 }) (later laterMemory : Memory)
    (sameAccount : later registryInfo.cell = committedMemory pdaInfo.cell)
    (verified : process rt programId (registryInfo :: others)
      (SettlementInstruction.verifyInclusion leafHash proofBytes).pack later = .ok () laterMemory)
    (proof : MmrProof) (decoded : MmrProof.fromBytes proofBytes.1 = some proof)
    (injective : Set.InjOn rt.sha256
      { string | string ∈ committedStrings rt.sha256 items mmr
          ++ proof.inclusionStrings rt.sha256 leafHash })
    : ∃ state, SettlementRoot.deserializeFrom (committedMemory pdaInfo.cell) = .ok state
        ∧ (((items.map (hashLeaf rt.sha256))[proof.leafIndex]? = some leafHash
              ∧ proof.leafCount = state.transferCount.val)
            ↔ proof.leafCount = state.transferCount.val) := by
  obtain ⟨state, left, written, storedRoot, storedCount⟩ := commit_writes committed
  obtain ⟨current, proof', read, decoded', verdict⟩ := inclusion_checked verified
  obtain rfl : proof = proof' := Option.some.inj (decoded.symm.trans decoded')
  -- the account read is the account written, and it was read to its end
  obtain ⟨rfl, rfl⟩ : state = current ∧ left = [] := by
    rw [sameAccount, written] at read
    simpa using read
  refine ⟨state, SettlementRoot.deserializeFrom_eq_ok.mpr written, And.right, fun sameCount => ?_⟩
  refine ⟨?_, sameCount⟩
  rw [storedRoot, root] at verdict
  obtain ⟨range, commits⟩ := commits_of_built built fun s mem => List.mem_append_left
    (proof.inclusionStrings rt.sha256 leafHash) mem
  obtain ⟨target, accepted⟩ := MmrProof.verify_eq_ok.mp verdict
  have leaves : mmr.leafPositions.length = items.length := by
    rw [commits.stores.ranges.length_leaves, commits.leaves, List.length_map]
  rw [← commits.leaves]
  refine commits.stores.leaf_of_accepted injective ?_ ?_ accepted ?_ ?_
  · exact fun s mem => List.mem_append_left _ (by simp [committedStrings, mem])
  · exact fun s mem => List.mem_append_right _ mem
  · rw [sameCount, storedCount, count, leaves]
  · exact fun s mem => List.mem_append_left _ (by simp [committedStrings, mem])

section Examples

/-- Two items, to settle. -/
def twoItems : List Bytes :=
  [[1], [2]]

/-- The range of two items under the polynomial hash. -/
def twoCommitted : MerkleMountainRange :=
  (MerkleMountainRange.new.appendLeaves polynomialHash twoItems).getD .new

/-- A batch of two items, first of the example registry. -/
def twoBatch : CommitParams :=
  { exampleBatch with merkleRoot := twoCommitted.root polynomialHash, transferCount := 2 }

/-- The accounts' data after the example registry has taken the batch of two items. -/
def twoSettled : Memory :=
  stateAfter (process oneRegistry (repeatedKey 3) [exampleAuthority, exampleRegistry]
    (SettlementInstruction.commitSettlement twoBatch).pack exampleInitialized)

/-- The bytes of a proof that is short enough for an instruction. -/
def instructionBytes (proof : MmrProof) : { bytes : Bytes // bytes.length < 2 ^ 32 } :=
  if small : (proof.toBytes.getD []).length < 2 ^ 32 then ⟨_, small⟩ else ⟨[], by decide⟩

/-- The proof of the first of two items. -/
def firstOfTwo : MmrProof :=
  {
    leafIndex := 0
    leafCount := 2
    siblings := [hashLeaf polynomialHash [2]]
    peaks := twoCommitted.peaks
  }

/-- A proof that the root of two items is the only leaf of a range. -/
def rootAsLeaf : MmrProof :=
  {
    leafIndex := 0
    leafCount := 1
    siblings := []
    peaks := [twoCommitted.root polynomialHash]
  }

/-- Verify a proof against the registry of two items. -/
def verifyTwo (leafHash : Hash32) (proof : MmrProof) : EStateM.Result Failure Memory Unit :=
  process oneRegistry (repeatedKey 3) [exampleRegistry]
    (SettlementInstruction.verifyInclusion leafHash (instructionBytes proof)).pack twoSettled

theorem injOn_of_decide {sha256 : Bytes → Hash32} {strings : List Bytes}
    (check : CollisionFree sha256 { string | string ∈ strings })
    : Set.InjOn sha256 { string | string ∈ strings } :=
  check.inj

/-- Witness: the first of two items is at its index. -/
theorem inclusion_bound_first
    : (outcome (verifyTwo (hashLeaf polynomialHash [1]) firstOfTwo)).isSome
      ∧ ∃ state, SettlementRoot.deserializeFrom (twoSettled 1) = .ok state
          ∧ (((twoItems.map (hashLeaf polynomialHash))[firstOfTwo.leafIndex]?
                = some (hashLeaf polynomialHash [1])
              ∧ firstOfTwo.leafCount = state.transferCount.val)
            ↔ firstOfTwo.leafCount = state.transferCount.val) :=
  ⟨by decide +kernel,
    inclusion_bound_iff oneRegistry (repeatedKey 3) exampleAuthority exampleRegistry [] twoBatch
      exampleInitialized twoSettled (eq_ok_of_isSome (by decide +kernel)) twoItems twoCommitted
      (by decide +kernel) rfl rfl exampleRegistry [] (hashLeaf polynomialHash [1])
      (instructionBytes firstOfTwo) twoSettled _ rfl (eq_ok_of_isSome (by decide +kernel))
      firstOfTwo (by decide +kernel) (injOn_of_decide (by decide +kernel))⟩

/-- The root of a batch of two passes as the only leaf of a batch of one: the hash function is
injective on all strings hashed, the program accepts, and the root is no leaf of the batch.
-/
theorem root_accepted_as_leaf
    : (outcome (verifyTwo (twoCommitted.root polynomialHash) rootAsLeaf)).isSome
      ∧ MmrProof.fromBytes (instructionBytes rootAsLeaf).1 = some rootAsLeaf
      ∧ CollisionFree polynomialHash
          { string | string ∈ committedStrings polynomialHash twoItems twoCommitted
              ++ rootAsLeaf.inclusionStrings polynomialHash (twoCommitted.root polynomialHash) }
      ∧ (SettlementRoot.deserializeFrom (twoSettled 1)).map SettlementRoot.transferCount = .ok 2
      ∧ (SettlementRoot.deserializeFrom (twoSettled 1)).map SettlementRoot.merkleRoot
        = .ok (twoCommitted.root polynomialHash)
      ∧ twoCommitted.root polynomialHash ∉ twoItems.map (hashLeaf polynomialHash)
      ∧ rootAsLeaf.leafCount ≠ 2 := by
  decide +kernel

end Examples

end TrustLedger.SolanaSettle
