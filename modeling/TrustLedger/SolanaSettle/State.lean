import TrustLedger.Foundation.Fallible
import TrustLedger.Merkle.ProofCodec

/-! On-chain state of the settlement registry, its layout in an account's bytes, and the errors of
the settlement program.
-/

namespace TrustLedger.SolanaSettle

open Foundation Merkle

/-- An account address. -/
@[ext] structure Pubkey where
  bytes : Bytes
  size : bytes.length = 32

instance Pubkey.decidableEq : DecidableEq Pubkey :=
  fun key other => decidable_of_iff (key.bytes = other.bytes) Pubkey.ext_iff.symm

/-- Errors of the settlement program. -/
inductive SettlementProgramError where
  | unauthorizedSigner
  | invalidPda
  | invalidBatchSequence (expected actual : U64)
  | previousRootMismatch (expected actual : String)
  | emptyBatch
  | totalSettledAmountOverflow
  | inclusionProofFailed (text : String)
  | deserializationError (text : String)
  | serializationError (text : String)
  | accountDataTooSmall
  deriving DecidableEq

/-- The text an error is displayed as. -/
def SettlementProgramError.text : SettlementProgramError → String
  | .unauthorizedSigner =>
      "unauthorized signer: transaction must be signed by settlement authority"
  | .invalidPda => "invalid PDA: address does not match canonical seeds"
  | .invalidBatchSequence expected actual =>
      s!"invalid batch sequence: expected {expected.val}, got {actual.val}"
  | .previousRootMismatch expected actual =>
      s!"previous root mismatch: expected {expected}, got {actual}"
  | .emptyBatch => "empty settlement batch: transfer count must be greater than zero"
  | .totalSettledAmountOverflow => "cumulative settled amount overflow"
  | .inclusionProofFailed text => "merkle inclusion proof failed: " ++ text
  | .deserializationError text => "deserialization error: " ++ text
  | .serializationError text => "serialization error: " ++ text
  | .accountDataTooSmall => "account data buffer is too small"

/-- Errors the runtime sees. -/
inductive ProgramError where
  | notEnoughAccountKeys
  | missingRequiredSignature
  | invalidSeeds
  | custom (code : Nat)
  | invalidInstructionData
  | accountDataTooSmall
  deriving DecidableEq

def SettlementProgramError.toProgramError : SettlementProgramError → ProgramError
  | .unauthorizedSigner => .missingRequiredSignature
  | .invalidPda => .invalidSeeds
  | .invalidBatchSequence _ _ => .custom 1001
  | .previousRootMismatch _ _ => .custom 1002
  | .emptyBatch => .custom 1003
  | .totalSettledAmountOverflow => .custom 1005
  | .inclusionProofFailed _ => .custom 1004
  | .deserializationError _ => .invalidInstructionData
  | .serializationError _ => .accountDataTooSmall
  | .accountDataTooSmall => .accountDataTooSmall

/-- How an instruction fails: with an error, or by a panic of the program. -/
inductive Failure where
  | returned (error : ProgramError)
  | panicked
  deriving DecidableEq

/-- Report an error of the settlement program. -/
def fail (error : SettlementProgramError) : Failure :=
  .returned error.toProgramError

/-- The settlement registry of an authority. -/
structure SettlementRoot where
  authority : Pubkey
  epoch : U64
  batchSeq : U64
  merkleRoot : Hash32
  previousRoot : Hash32
  transferCount : U64
  totalSettledAmount : U128
  chainTip : Hash32
  settledAt : Int64
  bump : Fin 256
  deriving DecidableEq

section Layout

def u32Le : Codec U32 := .littleEndian (2 ^ 32) 4 (by decide)
def u64Le : Codec U64 := .littleEndian (2 ^ 64) 8 (by decide)
def u128Le : Codec U128 := .littleEndian (2 ^ 128) 16 (by decide)

def i64Le : Codec Int64 :=
  u64Le.map (fun n => (UInt64.ofFin n).toInt64) (fun n => n.toUInt64.toFin) fun _ => rfl

theorem length_keyBytes (keyBytes : { bytes : Bytes // bytes.length = 32 })
    : keyBytes.1.length = 32 :=
  keyBytes.2

def pubkeyCodec : Codec Pubkey :=
  (Codec.array 32).map (fun b => ⟨b.1, length_keyBytes b⟩) (fun key => ⟨key.bytes, key.size⟩)
    fun _ => rfl

end Layout

namespace SettlementRoot

/-- Seed of the registry's address: the text `settlement_root`. -/
def pdaSeed : Bytes :=
  [0x73, 0x65, 0x74, 0x74, 0x6c, 0x65, 0x6d, 0x65,
    0x6e, 0x74, 0x5f, 0x72, 0x6f, 0x6f, 0x74]

/-- Serialized size in bytes. -/
def len : Nat := 177

/-- The fields in declaration order, each at its fixed width. -/
def codec : Codec SettlementRoot :=
  (pubkeyCodec.pair <| u64Le.pair <| u64Le.pair <| Hash32.codec.pair <| Hash32.codec.pair <|
      u64Le.pair <| u128Le.pair <| Hash32.codec.pair <| i64Le.pair Codec.byte).map
    (fun (authority, epoch, batchSeq, merkleRoot, previousRoot, transferCount, total, chainTip,
        settledAt, bump) =>
      ⟨authority, epoch, batchSeq, merkleRoot, previousRoot, transferCount, total, chainTip,
        settledAt, bump⟩)
    (fun root =>
      (root.authority, root.epoch, root.batchSeq, root.merkleRoot, root.previousRoot,
        root.transferCount, root.totalSettledAmount, root.chainTip, root.settledAt, root.bump))
    fun _ => rfl

/-- The declared size is the size of every encoded registry. -/
theorem codec_width : codec.HasWidth len := by
  have key : pubkeyCodec.HasWidth 32 := (Codec.array_width 32).map _
  have hash : Hash32.codec.HasWidth 32 := (Codec.array_width 32).map _
  have u64 : u64Le.HasWidth 8 := Codec.littleEndian_width _
  have u128 : u128Le.HasWidth 16 := Codec.littleEndian_width _
  have i64 : i64Le.HasWidth 8 := u64.map _
  exact (key.pair <| u64.pair <| u64.pair <| hash.pair <| hash.pair <| u64.pair <| u128.pair <|
    hash.pair <| i64.pair Codec.byte_width).map _

/-- The registry written by its initialization. -/
def initial (authority : Pubkey) (bump : Fin 256) : SettlementRoot :=
  {
    authority
    epoch := 0
    batchSeq := 0
    merkleRoot := Hash32.zero
    previousRoot := Hash32.zero
    transferCount := 0
    totalSettledAmount := 0
    chainTip := Hash32.zero
    settledAt := 0
    bump
  }

/-- Read a registry that takes all of the bytes. -/
def deserializeFrom (input : Bytes) : Except SettlementProgramError SettlementRoot :=
  okOr (codec.readAll input) (.deserializationError "malformed registry")

@[simp] theorem deserializeFrom_eq_ok {input : Bytes} {root : SettlementRoot}
    : deserializeFrom input = .ok root ↔ codec.decode input = some (root, []) := by
  rw [deserializeFrom, okOr_eq_ok, Codec.readAll_eq_some]

/-- Write a registry over the start of a buffer. The writer stops at the end of the buffer, with
what fits already copied.
-/
def serializeInto (root : SettlementRoot) : EStateM SettlementProgramError Bytes Unit := do
  let output ← get
  check (ensure (len ≤ output.length) .accountDataTooSmall)
  modify (overwrite (codec.encode root))
  check (ensure ((codec.encode root).length ≤ output.length)
    (.serializationError "failed to write whole buffer"))

/-- Writing fails only before it has copied anything, and only for lack of room. -/
theorem serializeInto_eq (root : SettlementRoot) (output : Bytes)
    : root.serializeInto output
      = if len ≤ output.length then .ok () (overwrite (codec.encode root) output)
        else .error .accountDataTooSmall output := by
  by_cases room : len ≤ output.length
  · simp [serializeInto, get_bind, check_bind, modify_bind, check, ensure, codec_width root, room]
  · simp [serializeInto, get_bind, check_bind, ensure, room]

end SettlementRoot

end TrustLedger.SolanaSettle
