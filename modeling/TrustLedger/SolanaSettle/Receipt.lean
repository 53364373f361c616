import TrustLedger.LedgerCore.Codec
import TrustLedger.Merkle.Completeness

/-! Receipts for settled transfers. Verification covers the leaf hash, the root and the proof, but
not the transfer the receipt states, so whatever verifies also verifies with another transfer in it.
-/

namespace TrustLedger

open Foundation LedgerCore Merkle

namespace Merkle

/-- The canonical leaf hash of a transfer. -/
def hashTransfer (sha256 : Bytes → Hash32) (transfer : Transfer) : Hash32 :=
  hashLeaf sha256 (Transfer.codec.encode transfer)

/-- The string hashed for a transfer. -/
def transferString (transfer : Transfer) : Bytes :=
  leafString (Transfer.codec.encode transfer)

end Merkle

namespace SolanaSettle

/-- A transfer's inclusion proof in a committed settlement batch. -/
structure TransferReceipt where
  transferId : U128
  amount : U128
  debitAccount : U128
  creditAccount : U128
  leafHash : String
  batchSeq : U64
  merkleRoot : String
  proof : MmrProof
  deriving DecidableEq

namespace TransferReceipt

/-- A receipt states a transfer. -/
structure States (receipt : TransferReceipt) (transfer : Transfer) : Prop where
  transferId : receipt.transferId = transfer.id.raw
  amount : receipt.amount = transfer.amount.units
  debitAccount : receipt.debitAccount = transfer.debitAccountId.raw
  creditAccount : receipt.creditAccount = transfer.creditAccountId.raw

/-- The receipt with another transfer stated in it. -/
def restate (receipt : TransferReceipt) (transferId amount debitAccount creditAccount : U128)
    : TransferReceipt :=
  { receipt with transferId, amount, debitAccount, creditAccount }

section

variable (sha256 : Bytes → Hash32)

/-- Check the proof against the receipt's own root and leaf hash. -/
def verify (receipt : TransferReceipt) : Except ProofError Unit := do
  let expectedRoot ← (Hash32.fromHex receipt.merkleRoot).mapError fun error =>
    .rootMismatch receipt.merkleRoot ("invalid hex: " ++ error.text)
  let leafHash ← (Hash32.fromHex receipt.leafHash).mapError fun error =>
    .rootMismatch receipt.leafHash ("invalid leaf hex: " ++ error.text)
  receipt.proof.verify sha256 expectedRoot leafHash

end

variable {sha256 : Bytes → Hash32}

theorem verify_of_proof {receipt : TransferReceipt} {root leaf : Hash32}
    (merkleRoot : receipt.merkleRoot = root.toHex) (leafHash : receipt.leafHash = leaf.toHex)
    : receipt.verify sha256 = receipt.proof.verify sha256 root leaf := by
  simp only [verify, merkleRoot, leafHash, Hash32.fromHex_toHex]
  rfl

/-- Verification does not read the transfer a receipt states. -/
theorem verify_restate (receipt : TransferReceipt) (transferId amount debit credit : U128)
    : (receipt.restate transferId amount debit credit).verify sha256 = receipt.verify sha256 :=
  rfl

end TransferReceipt

/-- Whatever receipt verifies, one with the same leaf hash and root verifies and states another
transfer, also than the one hashed: no field is checked against the leaf hash.
-/
theorem verified_receipt_restated (sha256 : Bytes → Hash32) (receipt : TransferReceipt)
    (transfer : Transfer) (verified : receipt.verify sha256 = .ok ())
    : (∀ transferId amount debit credit,
        (receipt.restate transferId amount debit credit).verify sha256 = .ok ())
      ∧ ∃ forged : TransferReceipt, forged.verify sha256 = .ok ()
          ∧ forged.leafHash = receipt.leafHash ∧ forged.merkleRoot = receipt.merkleRoot
          ∧ forged.transferId ≠ receipt.transferId ∧ forged.amount ≠ receipt.amount
          ∧ forged.debitAccount ≠ receipt.debitAccount
          ∧ forged.creditAccount ≠ receipt.creditAccount ∧ ¬ forged.States transfer := by
  have restated transferId amount debit credit
      : (receipt.restate transferId amount debit credit).verify sha256 = .ok () :=
    (receipt.verify_restate ..).trans verified
  obtain ⟨otherId, newId, unhashed⟩ :=
    Fin.exists_ne_and_ne_of_two_lt receipt.transferId transfer.id.raw (by decide)
  obtain ⟨otherAmount, newAmount⟩ := exists_ne receipt.amount
  obtain ⟨otherDebit, newDebit⟩ := exists_ne receipt.debitAccount
  obtain ⟨otherCredit, newCredit⟩ := exists_ne receipt.creditAccount
  refine ⟨restated, _, restated otherId otherAmount otherDebit otherCredit, rfl, rfl, ?_⟩
  exact ⟨newId, newAmount, newDebit, newCredit, fun states => unhashed states.transferId⟩

/-- A settled transfer of 500 units. -/
def paidTransfer : Transfer :=
  {
    id := ⟨7⟩
    debitAccountId := ⟨1⟩
    creditAccountId := ⟨2⟩
    amount := ⟨500⟩
    state := .posted
    pendingId := none
    timestamp := 1
  }

/-- The receipt of the only transfer of a batch. -/
def onlyReceipt (sha256 : Bytes → Hash32) (transfer : Transfer) : TransferReceipt :=
  {
    transferId := transfer.id.raw
    amount := transfer.amount.units
    debitAccount := transfer.debitAccountId.raw
    creditAccount := transfer.creditAccountId.raw
    leafHash := (hashTransfer sha256 transfer).toHex
    batchSeq := 1
    merkleRoot := (hashTransfer sha256 transfer).toHex
    proof := {
      leafIndex := 0
      leafCount := 1
      siblings := []
      peaks := [hashTransfer sha256 transfer]
    }
  }

theorem onlyReceipt_verifies (sha256 : Bytes → Hash32) (transfer : Transfer)
    : (onlyReceipt sha256 transfer).verify sha256 = .ok () := by
  have checked : (onlyReceipt sha256 transfer).verify sha256
      = (onlyReceipt sha256 transfer).proof.verify sha256 (hashTransfer sha256 transfer)
          (hashTransfer sha256 transfer) :=
    TransferReceipt.verify_of_proof rfl rfl
  rw [checked]
  refine MmrProof.verify_eq_ok.mpr ⟨⟨0, 0, 1⟩, Nat.zero_lt_one, ?_, ?_, ?_, rfl, rfl⟩
  · exact (by decide : 1 = countOnes 1)
  · exact (by decide : locateMountain 0 1 1 0 0 = some ⟨0, 0, 1⟩)
  · exact (by decide : 0 = Nat.log2 1)

/-- Two receipts that verify with one leaf hash and one root, the second of which misstates the
transfer hashed.
-/
structure Forgery (sha256 : Bytes → Hash32) (genuine forged : TransferReceipt) (t : Transfer)
    : Prop where
  injective : Set.InjOn sha256 { transferString t }
  genuineVerifies : genuine.verify sha256 = .ok ()
  forgedVerifies : forged.verify sha256 = .ok ()
  leafHash : forged.leafHash = (hashTransfer sha256 t).toHex
  merkleRoot : forged.merkleRoot = genuine.merkleRoot
  misstates : ¬ forged.States t

/-- Whatever the hash function, a receipt restated with a thousand times the amount verifies. -/
theorem forgery_of_amount (sha256 : Bytes → Hash32)
    : Forgery sha256 (onlyReceipt sha256 paidTransfer)
        ((onlyReceipt sha256 paidTransfer).restate 7 500000 1 2) paidTransfer where
  injective := Set.injOn_singleton _ _
  genuineVerifies := onlyReceipt_verifies sha256 paidTransfer
  forgedVerifies := onlyReceipt_verifies sha256 paidTransfer
  leafHash := rfl
  merkleRoot := rfl
  misstates states := absurd states.amount (by decide : (500000 : U128) ≠ 500)

theorem restated_amount_verifies
    : Forgery polynomialHash (onlyReceipt polynomialHash paidTransfer)
        ((onlyReceipt polynomialHash paidTransfer).restate 7 500000 1 2) paidTransfer :=
  forgery_of_amount polynomialHash

/-- Witness: the receipt of the settled transfer. -/
theorem verified_receipt_restated_genuine
    : ∃ forged : TransferReceipt, forged.verify polynomialHash = .ok ()
        ∧ forged.leafHash = (onlyReceipt polynomialHash paidTransfer).leafHash
        ∧ forged.merkleRoot = (onlyReceipt polynomialHash paidTransfer).merkleRoot
        ∧ ¬ forged.States paidTransfer := by
  obtain ⟨-, forged, verifies, leaf, root, -, -, -, -, misstates⟩ :=
    verified_receipt_restated polynomialHash (onlyReceipt polynomialHash paidTransfer) paidTransfer
      (onlyReceipt_verifies polynomialHash paidTransfer)
  exact ⟨forged, verifies, leaf, root, misstates⟩

end SolanaSettle

end TrustLedger
