import TrustLedger.SolanaSettle.Processor

/-! What each handler has checked when it accepts, and what it writes: exactly one registry, over
the start of one account's data, and nothing when it fails.
-/

namespace TrustLedger.SolanaSettle

open Foundation Merkle

/-- Write a registry over the start of an account's data. -/
def Memory.write (memory : Memory) (cell : Nat) (root : SettlementRoot) : Memory :=
  Function.update memory cell (overwrite (SettlementRoot.codec.encode root) (memory cell))

theorem Memory.write_self (memory : Memory) (cell : Nat) (root : SettlementRoot)
    : memory.write cell root cell
      = overwrite (SettlementRoot.codec.encode root) (memory cell) :=
  Function.update_self ..

theorem Memory.write_of_ne {memory : Memory} {cell other : Nat} {root : SettlementRoot}
    (differs : other ≠ cell)
    : memory.write cell root other = memory other :=
  Function.update_of_ne differs ..

/-- A registry written with enough room is read back. -/
theorem Memory.decode_write {memory : Memory} {cell : Nat}
    (room : SettlementRoot.len ≤ (memory cell).length) (root : SettlementRoot)
    : SettlementRoot.codec.decode (memory.write cell root cell)
      = some (root, (memory cell).drop SettlementRoot.len) := by
  have width := SettlementRoot.codec_width root
  rw [Memory.write_self, SettlementRoot.codec.decode_overwrite root (by rwa [width]), width]

/-- All checks of a handler that writes: its own, and that the account has room. -/
def admitStore (checks : Memory → Except Failure (Nat × SettlementRoot)) (memory : Memory)
    : Except Failure (Nat × SettlementRoot) := do
  let target ← checks memory
  ensure (SettlementRoot.len ≤ (memory target.1).length) (fail .accountDataTooSmall)
  return target

section Stores

variable {checks : Memory → Except Failure (Nat × SettlementRoot)} {memory memory' : Memory}

theorem onData_serializeInto (cell : Nat) (root : SettlementRoot) (memory : Memory)
    : onData cell root.serializeInto memory
      = if SettlementRoot.len ≤ (memory cell).length then .ok () (memory.write cell root)
        else .error (fail .accountDataTooSmall) memory := by
  by_cases room : SettlementRoot.len ≤ (memory cell).length
  · simp [onData, SettlementRoot.serializeInto_eq, room, Memory.write]
  · simp [onData, SettlementRoot.serializeInto_eq, room]

theorem store_planned (checks : Memory → Except Failure (Nat × SettlementRoot))
    : Planned (store checks) (admitStore checks)
        fun target memory => memory.write target.1 target.2 where
  rejects := by
    intro memory error refused
    simp only [store, get_bind, check_bind]
    cases admitted : checks memory with
    | error e =>
        have same : e = error := by simpa [admitStore, admitted, bind, Except.bind] using refused
        rw [same]
    | ok target =>
        have short : ¬ SettlementRoot.len ≤ (memory target.1).length
            ∧ fail .accountDataTooSmall = error := by
          by_cases room : SettlementRoot.len ≤ (memory target.1).length
          · simp [admitStore, admitted, bind, Except.bind, ensure, room, pure, Except.pure]
              at refused
          · simpa [admitStore, admitted, bind, Except.bind, ensure, room] using refused
        simp [onData_serializeInto, short]
  accepts := by
    intro memory target accepted
    simp only [admitStore, bind_eq_ok, ensure_eq_ok, pure_eq_ok] at accepted
    obtain ⟨_, admitted, _, room, rfl⟩ := accepted
    simp [store, get_bind, check_bind, admitted, onData_serializeInto, room]

theorem store_eq_ok
    : store checks memory = .ok () memory'
      ↔ ∃ cell root, checks memory = .ok (cell, root)
          ∧ SettlementRoot.len ≤ (memory cell).length ∧ memory.write cell root = memory' := by
  rw [(store_planned checks).ok_iff]
  simp only [admitStore, bind_eq_ok, ensure_eq_ok, pure_eq_ok]
  constructor
  · rintro ⟨⟨cell, root⟩, ⟨_, admitted, _, room, rfl⟩, written⟩
    exact ⟨cell, root, admitted, room, written⟩
  · rintro ⟨cell, root, admitted, room, written⟩
    exact ⟨(cell, root), ⟨_, admitted, (), room, rfl⟩, written⟩

end Stores

section Accepted

variable (rt : Runtime)

/-- What an accepted initialization has passed. -/
structure InitializeAccepted (programId : Pubkey) (accounts : List AccountInfo) (bump : Fin 256)
    (authorityInfo pdaInfo : AccountInfo) : Prop where
  accounts_eq : ∃ rest, accounts = authorityInfo :: pdaInfo :: rest
  signed : authorityInfo.isSigner
  derived : rt.createProgramAddress
    [SettlementRoot.pdaSeed, authorityInfo.key.bytes, [UInt8.ofNat bump.val]] programId
      = some pdaInfo.key

/-- What an accepted commit has passed, for the registry `current` it read and the registry `next`
it writes.
-/
structure CommitAccepted (accounts : List AccountInfo) (params : CommitParams) (memory : Memory)
    (authorityInfo pdaInfo : AccountInfo) (current next : SettlementRoot) : Prop where
  accounts_eq : ∃ rest, accounts = authorityInfo :: pdaInfo :: rest
  signed : authorityInfo.isSigner
  nonempty : params.transferCount ≠ 0
  read : SettlementRoot.codec.decode (memory pdaInfo.cell) = some (current, [])
  authority : current.authority = authorityInfo.key
  sequence : params.batchSeq.val = current.batchSeq.val + 1
  chained : 0 < current.batchSeq → params.previousRoot = current.merkleRoot
  total : next.totalSettledAmount.val
    = current.totalSettledAmount.val + params.totalSettledAmount.val
  next_eq : ∃ timestamp, next = current.committed params next.totalSettledAmount timestamp

/-- What an accepted inclusion proof has passed. -/
structure InclusionAccepted (accounts : List AccountInfo) (leafHash : Hash32) (proofBytes : Bytes)
    (memory : Memory) (pdaInfo : AccountInfo) (current : SettlementRoot) (proof : MmrProof)
    : Prop where
  accounts_eq : ∃ rest, accounts = pdaInfo :: rest
  read : SettlementRoot.codec.decode (memory pdaInfo.cell) = some (current, [])
  decoded : MmrProof.fromBytes proofBytes = some proof
  verified : proof.verify rt.sha256 current.merkleRoot leafHash = .ok ()

variable {rt : Runtime} {programId : Pubkey} {accounts : List AccountInfo} {memory : Memory}

theorem admitInitialize_eq_ok {bump : Fin 256} {cell : Nat} {root : SettlementRoot}
    : admitInitialize rt programId accounts bump = .ok (cell, root)
      ↔ ∃ authorityInfo pdaInfo,
          InitializeAccepted rt programId accounts bump authorityInfo pdaInfo
          ∧ pdaInfo.cell = cell ∧ .initial authorityInfo.key bump = root := by
  simp only [admitInitialize, bind_eq_ok, nextAccountInfo_eq_ok, ensure_eq_ok, okOr_eq_ok,
    pure_eq_ok, Prod.exists, Prod.mk.injEq]
  constructor
  · rintro ⟨authorityInfo, _, rfl, pdaInfo, rest, rfl, _, signed, _, derived, _, rfl, same⟩
    exact ⟨authorityInfo, pdaInfo, ⟨⟨rest, rfl⟩, signed, derived⟩, same⟩
  · rintro ⟨authorityInfo, pdaInfo, ⟨⟨rest, rfl⟩, signed, derived⟩, same⟩
    exact ⟨authorityInfo, _, rfl, pdaInfo, rest, rfl, (), signed, _, derived, (), rfl, same⟩

theorem admitCommit_ok {params : CommitParams} {cell : Nat} {next : SettlementRoot}
    (accepted : admitCommit rt accounts params memory = .ok (cell, next))
    : ∃ authorityInfo pdaInfo current,
        CommitAccepted accounts params memory authorityInfo pdaInfo current next
        ∧ pdaInfo.cell = cell := by
  simp only [admitCommit, bind_eq_ok, nextAccountInfo_eq_ok, ensure_eq_ok, okOr_eq_ok,
    pure_eq_ok, lift_eq_ok, SettlementRoot.deserializeFrom_eq_ok, checkedAdd_eq_some,
    Prod.exists, Prod.mk.injEq] at accepted
  obtain ⟨authorityInfo, _, rfl, pdaInfo, rest, rfl, _, signed, _, nonempty, current, read, _,
    authority, expectedSeq, expected, _, rfl, _, chained, timestamp, _, total, sum, rfl, rfl⟩ :=
      accepted
  refine ⟨authorityInfo, pdaInfo, current, ?_, rfl⟩
  exact
    {
      accounts_eq := ⟨rest, rfl⟩
      signed
      nonempty
      read
      authority
      sequence := expected
      chained := fun later => not_not.mp fun differs => chained ⟨later, differs⟩
      total := sum
      next_eq := ⟨timestamp, rfl⟩
    }

theorem admitInclusion_eq_ok {leafHash : Hash32} {proofBytes : Bytes}
    : admitInclusion rt accounts leafHash proofBytes memory = .ok ()
      ↔ ∃ pdaInfo current proof,
          InclusionAccepted rt accounts leafHash proofBytes memory pdaInfo current proof := by
  simp only [admitInclusion, bind_eq_ok, nextAccountInfo_eq_ok, okOr_eq_ok, lift_eq_ok,
    SettlementRoot.deserializeFrom_eq_ok, Prod.exists]
  constructor
  · rintro ⟨pdaInfo, rest, rfl, current, read, proof, decoded, verified⟩
    split at verified
    · rename_i verdict
      exact ⟨pdaInfo, current, proof, ⟨rest, rfl⟩, read, decoded, verdict⟩
    · cases verified
  · rintro ⟨pdaInfo, current, proof, ⟨rest, rfl⟩, read, decoded, verified⟩
    exact ⟨pdaInfo, rest, rfl, current, read, proof, decoded, by rw [verified]⟩

end Accepted

section Dispatch

variable {rt : Runtime} {programId : Pubkey} {accounts : List AccountInfo} {data : Bytes}
  {memory memory' : Memory}

theorem processVerifyInclusion_eq_ok {leafHash : Hash32} {proofBytes : Bytes}
    : processVerifyInclusion rt accounts leafHash proofBytes memory = .ok () memory'
      ↔ admitInclusion rt accounts leafHash proofBytes memory = .ok () ∧ memory = memory' := by
  rw [processVerifyInclusion, get_bind]
  cases verdict : admitInclusion rt accounts leafHash proofBytes memory with
  | ok _ => simp [check]
  | error failure => simp [check]

theorem process_eq_ok
    : process rt programId accounts data memory = .ok () memory'
      ↔ ∃ instruction, SettlementInstruction.unpack data = .ok instruction
          ∧ processInstruction rt programId accounts instruction memory = .ok () memory' := by
  rw [process, check_bind]
  split
  · rename_i instruction read
    rw [lift_eq_ok] at read
    simp [read]
  · rename_i error failed
    constructor
    · intro ran
      cases ran
    · rintro ⟨instruction, read, _⟩
      rw [read] at failed
      cases failed

theorem process_pack (instruction : SettlementInstruction)
    : process rt programId accounts instruction.pack
      = processInstruction rt programId accounts instruction := by
  funext memory
  rw [process, check_bind, SettlementInstruction.unpack_pack]
  rfl

/-- Whatever fails, no account's bytes have changed. -/
theorem process_atomic (rt : Runtime) (programId : Pubkey) (accounts : List AccountInfo)
    (data : Bytes)
    : Atomic (process rt programId accounts data) := by
  intro memory failure memory' failed
  rw [process, check_bind] at failed
  split at failed
  · rename_i instruction read
    cases instruction with
    | initializeRegistry bump => exact (store_planned _).atomic _ _ _ failed
    | commitSettlement params => exact (store_planned _).atomic _ _ _ failed
    | verifyInclusion leafHash proofBytes =>
        simp only [processInstruction, processVerifyInclusion, get_bind, check] at failed
        split at failed
        · cases failed
        · cases failed
          rfl
  · cases failed
    rfl

end Dispatch

end TrustLedger.SolanaSettle
