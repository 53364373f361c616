import TrustLedger.SolanaSettle.State

/-! The settlement program: instructions, their bytes, and the handlers over the data cells of the
accounts passed in. The infos of one account share its cell, so a handler may be given the same data
under two names. Address derivation, the clock's address and the hash function belong to the runtime
and are parameters.
-/

namespace TrustLedger.SolanaSettle

open Foundation Merkle

/-- Parameters for committing a settlement batch. -/
structure CommitParams where
  epoch : U64
  batchSeq : U64
  merkleRoot : Hash32
  previousRoot : Hash32
  transferCount : U64
  totalSettledAmount : U128
  chainTip : Hash32
  deriving DecidableEq

def CommitParams.codec : Codec CommitParams :=
  (u64Le.pair <| u64Le.pair <| Hash32.codec.pair <| Hash32.codec.pair <| u64Le.pair <|
      u128Le.pair Hash32.codec).map
    (fun (epoch, batchSeq, merkleRoot, previousRoot, transferCount, total, chainTip) =>
      ⟨epoch, batchSeq, merkleRoot, previousRoot, transferCount, total, chainTip⟩)
    (fun params =>
      (params.epoch, params.batchSeq, params.merkleRoot, params.previousRoot,
        params.transferCount, params.totalSettledAmount, params.chainTip))
    fun _ => rfl

/-- Raw bytes behind a 32-bit length. -/
def byteVecCodec : Codec { bytes : Bytes // bytes.length < 2 ^ 32 } :=
  (Codec.tagged u32Le fun count => Codec.array count.val).map
    (fun counted => ⟨counted.2.1, by rw [counted.2.2]; exact counted.1.isLt⟩)
    (fun bytes => ⟨⟨bytes.1.length, bytes.2⟩, ⟨bytes.1, rfl⟩⟩)
    fun _ => rfl

inductive SettlementInstruction where
  | initializeRegistry (bump : Fin 256)
  | commitSettlement (params : CommitParams)
  | verifyInclusion (leafHash : Hash32) (proofBytes : { bytes : Bytes // bytes.length < 2 ^ 32 })
  deriving DecidableEq

namespace SettlementInstruction

/-- The fields of each instruction, in the order the instructions are declared. -/
def Fields : Fin 3 → Type
  | 0 => Fin 256
  | 1 => CommitParams
  | 2 => Hash32 × { bytes : Bytes // bytes.length < 2 ^ 32 }

def fieldsCodec : ∀ number, Codec (Fields number)
  | 0 => Codec.byte
  | 1 => CommitParams.codec
  | 2 => Hash32.codec.pair byteVecCodec

def toFields : SettlementInstruction → Σ number, Fields number
  | .initializeRegistry bump => ⟨0, bump⟩
  | .commitSettlement params => ⟨1, params⟩
  | .verifyInclusion leafHash proofBytes => ⟨2, leafHash, proofBytes⟩

def ofFields : (Σ number, Fields number) → SettlementInstruction
  | ⟨0, bump⟩ => .initializeRegistry bump
  | ⟨1, params⟩ => .commitSettlement params
  | ⟨2, leafHash, proofBytes⟩ => .verifyInclusion leafHash proofBytes

def codec : Codec SettlementInstruction :=
  (Codec.tagged (Codec.caseByte 3 (by decide)) fieldsCodec).map ofFields toFields
    fun instruction => by cases instruction <;> rfl

def pack (instruction : SettlementInstruction) : Bytes :=
  codec.encode instruction

def unpack (input : Bytes) : Except SettlementProgramError SettlementInstruction :=
  okOr (codec.readAll input) (.deserializationError "malformed instruction")

@[simp] theorem unpack_pack (instruction : SettlementInstruction)
    : unpack instruction.pack = .ok instruction := by
  rw [unpack, pack, Codec.readAll_encode]
  rfl

end SettlementInstruction

/-- An account as an instruction sees it. -/
structure AccountInfo where
  key : Pubkey
  owner : Pubkey
  isSigner : Bool
  /-- Where its data are. -/
  cell : Nat
  deriving DecidableEq

/-- The data of all accounts. -/
abbrev Memory := Nat → Bytes

abbrev Program := EStateM Failure Memory

/-- What the program takes from its runtime. -/
structure Runtime where
  /-- The address derived from seeds, if it is off the curve. -/
  createProgramAddress : List Bytes → Pubkey → Option Pubkey
  /-- Address of the clock. -/
  clockId : Pubkey
  sha256 : Bytes → Hash32

/-- The fields of the clock account. -/
structure Clock where
  slot : U64
  epochStartTimestamp : Int64
  epoch : U64
  leaderScheduleEpoch : U64
  unixTimestamp : Int64

def Clock.codec : Codec Clock :=
  (u64Le.pair <| i64Le.pair <| u64Le.pair <| u64Le.pair i64Le).map
    (fun (slot, start, epoch, leaderEpoch, unix) => ⟨slot, start, epoch, leaderEpoch, unix⟩)
    (fun clock =>
      (clock.slot, clock.epochStartTimestamp, clock.epoch, clock.leaderScheduleEpoch,
        clock.unixTimestamp))
    fun _ => rfl

def nextAccountInfo : List AccountInfo → Except Failure (AccountInfo × List AccountInfo)
  | [] => .error (.returned .notEnoughAccountKeys)
  | info :: rest => .ok (info, rest)

@[simp] theorem nextAccountInfo_eq_ok {accounts : List AccountInfo}
    {next : AccountInfo × List AccountInfo}
    : nextAccountInfo accounts = .ok next ↔ accounts = next.1 :: next.2 := by
  cases accounts with
  | nil => simp [nextAccountInfo]
  | cons info rest => simp [nextAccountInfo, Prod.ext_iff]

/-- Report errors of the settlement program to the runtime. -/
def lift {α : Type} (x : Except SettlementProgramError α) : Except Failure α :=
  x.mapError fail

@[simp] theorem lift_eq_ok {α : Type} {x : Except SettlementProgramError α} {a : α}
    : lift x = .ok a ↔ x = .ok a := by
  cases x <;> simp [lift, Except.mapError]

/-- Work on the data of one account. -/
def onData (cell : Nat) (x : EStateM SettlementProgramError Bytes Unit) : Program Unit :=
  fun memory =>
    match x (memory cell) with
    | .ok _ data => .ok () (Function.update memory cell data)
    | .error error data => .error (fail error) (Function.update memory cell data)

/-- Run the checks of a handler, then write the registry they yield to its account. -/
def store (checks : Memory → Except Failure (Nat × SettlementRoot)) : Program Unit := do
  let memory ← get
  let (cell, root) ← check (checks memory)
  onData cell root.serializeInto

section Handlers

variable (rt : Runtime)

/-- The checks of an initialization: the account to write, and the empty registry. -/
def admitInitialize (programId : Pubkey) (accounts : List AccountInfo) (bump : Fin 256)
    : Except Failure (Nat × SettlementRoot) := do
  let (authorityInfo, rest) ← nextAccountInfo accounts
  let (pdaInfo, _) ← nextAccountInfo rest
  ensure authorityInfo.isSigner (fail .unauthorizedSigner)
  let expectedPda ←
    okOr
      (rt.createProgramAddress
        [SettlementRoot.pdaSeed, authorityInfo.key.bytes, [UInt8.ofNat bump.val]] programId)
      (fail .invalidPda)
  ensure (expectedPda = pdaInfo.key) (fail .invalidPda)
  return (pdaInfo.cell, .initial authorityInfo.key bump)

def processInitialize (programId : Pubkey) (accounts : List AccountInfo) (bump : Fin 256)
    : Program Unit :=
  store fun _ => admitInitialize rt programId accounts bump

/-- The time the clock account gives, or zero without one. The registry's data are borrowed for
writing here, so reading them as the clock stops the program.
-/
def clockTimestamp (clockInfo : Option AccountInfo) (borrowed : Nat) (memory : Memory)
    : Except Failure Int64 :=
  match clockInfo with
  | none => .ok 0
  | some info =>
      if info.key = rt.clockId then
        if info.cell = borrowed then .error .panicked
        else
          match Clock.codec.decode (memory info.cell) with
          | some (clock, _) => .ok clock.unixTimestamp
          | none => .ok 0
      else .ok 0

/-- The registry after a commit. -/
def SettlementRoot.committed (current : SettlementRoot) (params : CommitParams) (total : U128)
    (timestamp : Int64)
    : SettlementRoot :=
  {
    current with
    epoch := params.epoch
    batchSeq := params.batchSeq
    merkleRoot := params.merkleRoot
    previousRoot := params.previousRoot
    transferCount := params.transferCount
    totalSettledAmount := total
    chainTip := params.chainTip
    settledAt := timestamp
  }

/-- The checks of a commit: the account to write, and the registry with the batch. -/
def admitCommit (accounts : List AccountInfo) (params : CommitParams) (memory : Memory)
    : Except Failure (Nat × SettlementRoot) := do
  let (authorityInfo, rest) ← nextAccountInfo accounts
  let (pdaInfo, rest) ← nextAccountInfo rest
  let clockInfo := rest.head?
  ensure authorityInfo.isSigner (fail .unauthorizedSigner)
  ensure (params.transferCount ≠ 0) (fail .emptyBatch)
  let current ← lift (SettlementRoot.deserializeFrom (memory pdaInfo.cell))
  ensure (current.authority = authorityInfo.key) (fail .unauthorizedSigner)
  -- an overflowing sequence number stops the program
  let expectedSeq ← okOr (checkedAdd current.batchSeq 1) .panicked
  ensure (params.batchSeq = expectedSeq)
    (fail (.invalidBatchSequence expectedSeq params.batchSeq))
  ensure (¬ (0 < current.batchSeq ∧ params.previousRoot ≠ current.merkleRoot))
    (fail (.previousRootMismatch current.merkleRoot.toHex params.previousRoot.toHex))
  let timestamp ← clockTimestamp rt clockInfo pdaInfo.cell memory
  let total ←
    okOr (checkedAdd current.totalSettledAmount params.totalSettledAmount)
      (fail .totalSettledAmountOverflow)
  return (pdaInfo.cell, current.committed params total timestamp)

def processCommitSettlement (accounts : List AccountInfo) (params : CommitParams) : Program Unit :=
  store (admitCommit rt accounts params)

/-- The checks of an inclusion proof against the registry's root. -/
def admitInclusion (accounts : List AccountInfo) (leafHash : Hash32) (proofBytes : Bytes)
    (memory : Memory)
    : Except Failure Unit := do
  let (pdaInfo, _) ← nextAccountInfo accounts
  let current ← lift (SettlementRoot.deserializeFrom (memory pdaInfo.cell))
  let proof ←
    okOr (MmrProof.fromBytes proofBytes)
      (fail (.deserializationError "proof serialization error: malformed proof"))
  match proof.verify rt.sha256 current.merkleRoot leafHash with
  | .ok _ => .ok ()
  | .error error =>
      .error (fail (.inclusionProofFailed
        s!"proof rejected against batch seq {current.batchSeq.val}: {error.text}"))

def processVerifyInclusion (accounts : List AccountInfo) (leafHash : Hash32) (proofBytes : Bytes)
    : Program Unit := do
  let memory ← get
  check (admitInclusion rt accounts leafHash proofBytes memory)

def processInstruction (programId : Pubkey) (accounts : List AccountInfo)
    : SettlementInstruction → Program Unit
  | .initializeRegistry bump => processInitialize rt programId accounts bump
  | .commitSettlement params => processCommitSettlement rt accounts params
  | .verifyInclusion leafHash proofBytes =>
      processVerifyInclusion rt accounts leafHash proofBytes.1

/-- Route an instruction to its handler. -/
def process (programId : Pubkey) (accounts : List AccountInfo) (instructionData : Bytes)
    : Program Unit := do
  let instruction ← check (lift (SettlementInstruction.unpack instructionData))
  processInstruction rt programId accounts instruction

end Handlers

end TrustLedger.SolanaSettle
