import TrustLedger.Foundation.Borsh
import TrustLedger.Merkle.Proof

/-! The bytes of an inclusion proof, and the texts of the errors of its verification. -/

namespace TrustLedger.Merkle

open Foundation

def ProofError.text : ProofError → String
  | .rootMismatch expected computed =>
      s!"root hash mismatch: expected {expected}, computed {computed}"
  | .peakMismatch expected computed peakIndex =>
      s!"peak mismatch at peak {peakIndex}: expected {expected}, computed {computed}"
  | .leafIndexOutOfBounds index count =>
      s!"proof leaf index {index} out of bounds for leaf count {count}"
  | .siblingCountMismatch expected actual =>
      s!"sibling count mismatch: expected {expected}, actual {actual}"
  | .peakCountMismatch expected actual =>
      s!"peak count mismatch: expected {expected}, actual {actual}"
  | .emptyTree => "cannot verify proof on an empty tree"

def Hash32.codec : Codec Hash32 :=
  (Codec.array 32).map (fun b => ⟨b.1, b.2⟩) (fun hash => ⟨hash.bytes, hash.size⟩) fun _ => rfl

namespace MmrProof

/-- The fields of a proof whose numbers and lengths are 64-bit integers. -/
def codec
    : Codec (U64 × U64 × { hashes : List Hash32 // hashes.length < 2 ^ 64 }
        × { hashes : List Hash32 // hashes.length < 2 ^ 64 }) :=
  Codec.u64.pair <| Codec.u64.pair <| Hash32.codec.list.pair Hash32.codec.list

/-- Serialize a proof. Longer lists and larger numbers are no values of the source's types. -/
def toBytes (proof : MmrProof) : Option Bytes :=
  if small : proof.leafIndex < 2 ^ 64 ∧ proof.leafCount < 2 ^ 64
      ∧ proof.siblings.length < 2 ^ 64 ∧ proof.peaks.length < 2 ^ 64 then
    some (codec.encode
      (⟨proof.leafIndex, small.1⟩, ⟨proof.leafCount, small.2.1⟩, ⟨proof.siblings, small.2.2.1⟩,
        ⟨proof.peaks, small.2.2.2⟩))
  else none

/-- Deserialize a proof; bytes behind it are ignored. -/
def fromBytes (bytes : Bytes) : Option MmrProof :=
  (codec.decode bytes).map fun ((leafIndex, leafCount, siblings, peaks), _) =>
    {
      leafIndex := leafIndex.val
      leafCount := leafCount.val
      siblings := siblings.1
      peaks := peaks.1
    }

end MmrProof

end TrustLedger.Merkle
