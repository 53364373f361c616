import TrustLedger.SolanaSettle.Inclusion

/-! Which account a handler trusts. Initialization derives the registry's address; commits and
proofs take the account they are given, under whatever address and owner.
-/

namespace TrustLedger.SolanaSettle

open Foundation Merkle

/-- The account belongs to the program and has the address of the registry it holds. -/
def Genuine (rt : Runtime) (programId : Pubkey) (info : AccountInfo) (root : SettlementRoot)
    : Prop :=
  info.owner = programId
    ∧ rt.createProgramAddress
        [SettlementRoot.pdaSeed, root.authority.bytes, [UInt8.ofNat root.bump.val]] programId
      = some info.key

instance Genuine.decidable (rt : Runtime) (programId : Pubkey) (info : AccountInfo)
    (root : SettlementRoot)
    : Decidable (Genuine rt programId info root) :=
  inferInstanceAs (Decidable (_ ∧ _))

/-- Where a commit or a proof expects the registry among its accounts. -/
def SettlementInstruction.registryPosition : SettlementInstruction → Option Nat
  | .initializeRegistry _ => none
  | .commitSettlement _ => some 1
  | .verifyInclusion _ _ => some 0

/-- The same account data under another address and owner. -/
def AccountInfo.forged (info : AccountInfo) (key owner : Pubkey) : AccountInfo :=
  { info with key, owner }

instance Pubkey.nontrivial : Nontrivial Pubkey :=
  ⟨repeatedKey 0, repeatedKey 1, by decide⟩

section

variable {rt : Runtime} {programId : Pubkey} {accounts : List AccountInfo} {memory memory' : Memory}
  {info : AccountInfo}

/-- A commit reads and writes one account, and is accepted under any other address and owner of it.
-/
theorem commit_trusts {params : CommitParams} (named : accounts[1]? = some info)
    (ran : processCommitSettlement rt accounts params memory = .ok () memory')
    : ∃ before after left,
        SettlementRoot.codec.decode (memory info.cell) = some (before, [])
        ∧ SettlementRoot.codec.decode (memory' info.cell) = some (after, left)
        ∧ ∀ key owner,
            processCommitSettlement rt (accounts.set 1 (info.forged key owner)) params memory
              = .ok () memory' := by
  obtain ⟨cell, next, admitted, room, rfl⟩ := store_eq_ok.mp ran
  obtain ⟨signer, registry, current, passed, rfl⟩ := admitCommit_ok admitted
  obtain ⟨rest, rfl⟩ := passed.accounts_eq
  obtain rfl : registry = info := by simpa using named
  exact ⟨current, next, _, passed.read, Memory.decode_write room next, fun key owner => ran⟩

/-- A proof is checked against one account, which stays as it is, and is accepted under any other
address and owner of it.
-/
theorem inclusion_trusts {leafHash : Hash32} {proofBytes : Bytes} (named : accounts[0]? = some info)
    (ran : processVerifyInclusion rt accounts leafHash proofBytes memory = .ok () memory')
    : ∃ before, SettlementRoot.codec.decode (memory info.cell) = some (before, [])
        ∧ memory' = memory
        ∧ ∀ key owner,
            processVerifyInclusion rt (accounts.set 0 (info.forged key owner)) leafHash proofBytes
                memory
              = .ok () memory' := by
  obtain ⟨admitted, rfl⟩ := processVerifyInclusion_eq_ok.mp ran
  obtain ⟨registry, current, proof, passed⟩ := admitInclusion_eq_ok.mp admitted
  obtain ⟨rest, rfl⟩ := passed.accounts_eq
  obtain rfl : registry = info := by simpa using named
  exact ⟨current, passed.read, rfl, fun key owner => ran⟩

end

/-- Whatever account a commit or a proof is accepted on, some address and owner that are not those
of the registry its bytes hold, before the call or after it, make the same call succeed with the
same effect.
-/
theorem forged_account_accepted (rt : Runtime) (programId : Pubkey) (accounts : List AccountInfo)
    (data : Bytes) (memory memory' : Memory) (instruction : SettlementInstruction)
    (unpacked : SettlementInstruction.unpack data = .ok instruction) (position : Nat)
    (registry : instruction.registryPosition = some position) (info : AccountInfo)
    (named : accounts[position]? = some info)
    (succeeded : process rt programId accounts data memory = .ok () memory')
    : ∃ before after left,
        SettlementRoot.codec.decode (memory info.cell) = some (before, [])
        ∧ SettlementRoot.codec.decode (memory' info.cell) = some (after, left)
        ∧ (∀ key owner,
            process rt programId (accounts.set position (info.forged key owner)) data memory
              = .ok () memory')
        ∧ ∃ key owner, ¬ Genuine rt programId (info.forged key owner) before
            ∧ ¬ Genuine rt programId (info.forged key owner) after := by
  obtain ⟨owner, other⟩ := exists_ne programId
  have lookalike (root : SettlementRoot)
      : ¬ Genuine rt programId (info.forged info.key owner) root :=
    fun genuine => other genuine.1
  obtain ⟨handled, unpackedToo, ran⟩ := process_eq_ok.mp succeeded
  obtain rfl : instruction = handled := Except.ok.inj (unpacked.symm.trans unpackedToo)
  cases instruction with
  | initializeRegistry bump => cases registry
  | commitSettlement params =>
      obtain rfl : 1 = position := Option.some.inj registry
      obtain ⟨before, after, left, read, written, anyAccount⟩ := commit_trusts named ran
      refine ⟨before, after, left, read, written, ?_, _, _, lookalike before, lookalike after⟩
      exact fun key owner => process_eq_ok.mpr ⟨_, unpacked, anyAccount key owner⟩
  | verifyInclusion leafHash proofBytes =>
      obtain rfl : 0 = position := Option.some.inj registry
      obtain ⟨before, read, rfl, anyAccount⟩ := inclusion_trusts named ran
      refine ⟨before, before, [], read, read, ?_, _, _, lookalike before, lookalike before⟩
      exact fun key owner => process_eq_ok.mpr ⟨_, unpacked, anyAccount key owner⟩

/-- Witness: the example commit, made on the genuine registry. -/
theorem forged_account_accepted_example
    : ∃ before after left,
        SettlementRoot.codec.decode (exampleInitialized 1) = some (before, [])
        ∧ SettlementRoot.codec.decode (twoSettled 1) = some (after, left)
        ∧ (∀ key owner,
            process oneRegistry (repeatedKey 3)
                [exampleAuthority, exampleRegistry.forged key owner]
                (SettlementInstruction.commitSettlement twoBatch).pack exampleInitialized
              = .ok () twoSettled)
        ∧ ∃ key owner,
            ¬ Genuine oneRegistry (repeatedKey 3) (exampleRegistry.forged key owner) before
            ∧ ¬ Genuine oneRegistry (repeatedKey 3) (exampleRegistry.forged key owner) after :=
  forged_account_accepted oneRegistry (repeatedKey 3) [exampleAuthority, exampleRegistry]
    (SettlementInstruction.commitSettlement twoBatch).pack exampleInitialized twoSettled
    (.commitSettlement twoBatch) (SettlementInstruction.unpack_pack _) 1 rfl exampleRegistry rfl
    (eq_ok_of_isSome (by decide +kernel))

/-- An account of another program, at another address, that holds the bytes of a registry. -/
def lookalike : AccountInfo :=
  exampleRegistry.forged (repeatedKey 5) (repeatedKey 6)

/-- A commit and a proof are accepted on a lookalike account. -/
theorem lookalike_accepted
    : (outcome (process oneRegistry (repeatedKey 3) [exampleAuthority, lookalike]
        (SettlementInstruction.commitSettlement twoBatch).pack exampleInitialized)).isSome
      ∧ (outcome (process oneRegistry (repeatedKey 3) [lookalike]
          (SettlementInstruction.verifyInclusion (hashLeaf polynomialHash [1])
            (instructionBytes firstOfTwo)).pack twoSettled)).isSome
      ∧ lookalike.owner ≠ repeatedKey 3
      ∧ ((SettlementRoot.deserializeFrom (twoSettled lookalike.cell)).toOption.any fun root =>
          ¬ Genuine oneRegistry (repeatedKey 3) lookalike root) := by
  decide +kernel

end TrustLedger.SolanaSettle
