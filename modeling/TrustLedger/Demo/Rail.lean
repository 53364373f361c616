import TrustLedger.LedgerCore.Codec
import TrustLedger.SolanaSettle.Handlers

/-! Settlement rails: a mock clearing house that only adds up a batch, and a Solana rail that
commits the batch's Merkle root to the settlement program.
-/

namespace TrustLedger.Demo

open Foundation LedgerCore Merkle SolanaSettle

/-- Result of submitting a batch of transfers to a rail. -/
structure RailSubmission where
  railName : String
  batchSeq : U64
  transferCount : Nat
  totalAmount : U128
  reference : String
  merkleRoot : Option String
  deriving DecidableEq, Repr

inductive RailError where
  | amountOverflow
  | submissionFailed (text : String)
  deriving DecidableEq, Repr

def RailError.text : RailError → String
  | .amountOverflow => "settlement batch total exceeds the supported monetary range"
  | .submissionFailed text => "rail submission failed: " ++ text

/-- How a rail fails. -/
inductive RailFailure where
  | returned (error : RailError)
  | panicked
  deriving DecidableEq, Repr

/-- Add a transfer's amount to a batch total. -/
def addSettled (total : U128) (t : Transfer) : Except RailFailure U128 :=
  okOr (checkedAdd total t.amount.units) (.returned .amountOverflow)

namespace MockAchRail

def name : String := "Mock-ACH"

/-- The decimal digits of a number, padded with zeros to a width of six. -/
def padded (n : Nat) : String :=
  String.ofList (List.leftpad 6 '0' (Nat.repr n).toList)

def submitBatch (batchSeq : U64) (transfers : List Transfer)
    : Except RailFailure RailSubmission := do
  let totalAmount ← transfers.foldlM addSettled 0
  return {
    railName := name
    batchSeq
    transferCount := transfers.length
    totalAmount
    reference := "ACH-NACHA-BATCH-" ++ padded batchSeq.val
    merkleRoot := none
  }

end MockAchRail

/-- The Solana rail: the registry's account data, and the batch settled last. -/
structure SolanaUsdcRail where
  programId : Pubkey
  authority : Pubkey
  pdaData : Bytes
  latestMmr : MerkleMountainRange
  settledTransfers : List Transfer
  batchSeq : U64

/-- What the rail takes from the libraries around it. -/
structure Chain where
  runtime : Runtime
  programErrorText : ProgramError → String

namespace SolanaUsdcRail

def name : String := "Solana-USDC"

theorem length_zeroKey : (List.replicate 32 (0 : UInt8)).length = 32 :=
  List.length_replicate

/-- The address owning no account. -/
def defaultPubkey : Pubkey :=
  ⟨List.replicate 32 0, length_zeroKey⟩

variable (chain : Chain)

/-- The registry's address: the first off the curve, from the largest bump down to one. -/
def findPda (authority programId : Pubkey) : Option (Pubkey × Fin 256) :=
  ((List.finRange 255).map Fin.succ).reverse.findSome? fun bump =>
    (chain.runtime.createProgramAddress
      [SettlementRoot.pdaSeed, authority.bytes, [UInt8.ofNat bump.val]] programId).map (·, bump)

/-- The accounts every instruction of the rail starts with. The registry's data are in cell 1. -/
def accountInfos (programId authority pda : Pubkey) : List AccountInfo :=
  [
    { key := authority, owner := defaultPubkey, isSigner := true, cell := 0 },
    { key := pda, owner := programId, isSigner := false, cell := 1 }
  ]

/-- The account data an instruction finds: only the registry has any. -/
def accountData (pdaData : Bytes) : Memory :=
  fun cell => if cell = 1 then pdaData else []

/-- Send an instruction of the rail; returns the registry's data after it. -/
def send (programId authority : Pubkey) (more : List AccountInfo)
    (instruction : Pubkey → Fin 256 → SettlementInstruction) (failed : String) (pdaData : Bytes)
    : EStateM.Result RailFailure Bytes Unit :=
  match findPda chain authority programId with
  | none => .error .panicked pdaData
  | some (pda, bump) =>
      match process chain.runtime programId (accountInfos programId authority pda ++ more)
        (instruction pda bump).pack (accountData pdaData) with
      | .ok _ memory => .ok () (memory 1)
      | .error .panicked memory => .error .panicked (memory 1)
      | .error (.returned error) memory =>
          .error (.returned (.submissionFailed (failed ++ chain.programErrorText error)))
            (memory 1)

/-- A rail with a registry of its own. -/
def new (programId authority : Pubkey) : Except RailFailure SolanaUsdcRail :=
  let systemInfo : AccountInfo :=
    { key := defaultPubkey, owner := defaultPubkey, isSigner := false, cell := 2 }
  match send chain programId authority [systemInfo] (fun _ bump => .initializeRegistry bump)
    "PDA init failed: " (List.replicate SettlementRoot.len 0) with
  | .error failure _ => .error failure
  | .ok _ pdaData =>
      .ok {
        programId, authority, pdaData
        latestMmr := .new
        settledTransfers := []
        batchSeq := 0
      }

/-- The registry, once a batch has been committed. -/
def currentSettlementRoot (rail : SolanaUsdcRail) : Option SettlementRoot :=
  match SettlementRoot.deserializeFrom rail.pdaData with
  | .ok root => if root.batchSeq = 0 then none else some root
  | .error _ => none

/-- Append a transfer as a leaf and add its amount. -/
def addLeaf (batch : MerkleMountainRange × U128) (t : Transfer)
    : Except RailFailure (MerkleMountainRange × U128) := do
  let appended ← okOr (batch.1.appendLeaf chain.runtime.sha256 (Transfer.codec.encode t)) .panicked
  let total ← addSettled batch.2 t
  return (appended.1, total)

/-- The parameters of a commit on top of the registry's current state. -/
def commitParams (current : SettlementRoot) (root : Hash32) (batchSeq : U64) (count : Nat)
    (totalAmount : U128)
    : CommitParams :=
  {
    epoch := 1
    batchSeq
    merkleRoot := root
    previousRoot := current.merkleRoot
    transferCount := Fin.ofNat (2 ^ 64) count
    totalSettledAmount := totalAmount
    chainTip := ⟨List.replicate 32 0xaa, List.length_replicate⟩
  }

/-- What a batch commits to, decided before the registry is touched. -/
def prepareBatch (rail : SolanaUsdcRail) (batchSeq : U64) (transfers : List Transfer)
    : Except RailFailure (MerkleMountainRange × CommitParams) := do
  ensure (transfers ≠ []) (.returned (.submissionFailed "cannot settle empty batch"))
  let (mmr, totalAmount) ← transfers.foldlM (addLeaf chain) (.new, 0)
  let current ←
    (SettlementRoot.deserializeFrom rail.pdaData).mapError fun error =>
      .returned (.submissionFailed error.text)
  return (mmr, commitParams current (mmr.root chain.runtime.sha256) batchSeq transfers.length
    totalAmount)

def submitBatch (batchSeq : U64) (transfers : List Transfer)
    : EStateM RailFailure SolanaUsdcRail RailSubmission := do
  let rail ← get
  let (mmr, params) ← check (prepareBatch chain rail batchSeq transfers)
  match send chain rail.programId rail.authority [] (fun _ _ => .commitSettlement params)
    "on-chain commit error: " rail.pdaData with
  | .error failure pdaData => do
      set { rail with pdaData }
      throw failure
  | .ok _ pdaData => do
      set { rail with pdaData, latestMmr := mmr, settledTransfers := transfers, batchSeq }
      return {
        railName := name
        batchSeq
        transferCount := transfers.length
        totalAmount := params.totalSettledAmount
        reference := s!"solana:tx:batch-{batchSeq.val}:root:{params.merkleRoot.toHex}"
        merkleRoot := some params.merkleRoot.toHex
      }

end SolanaUsdcRail

end TrustLedger.Demo
