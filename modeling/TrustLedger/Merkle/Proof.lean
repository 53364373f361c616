import TrustLedger.Merkle.Mmr

/-! Verification of inclusion proofs: the mountain is located from the bits of the leaf count, and
the turns of the path from the bits of the leaf index.
-/

namespace TrustLedger.Merkle

open Foundation

/-- Errors of proof verification. -/
inductive ProofError where
  | rootMismatch (expected computed : String)
  | peakMismatch (expected computed : String) (peakIndex : Nat)
  | leafIndexOutOfBounds (index count : Nat)
  | siblingCountMismatch (expected actual : Nat)
  | peakCountMismatch (expected actual : Nat)
  | emptyTree
  deriving DecidableEq

/-- The mountain that holds a leaf: its place among the peaks, the index of its first leaf and its
number of leaves.
-/
structure Mountain where
  peakIdx : Nat
  offset : Nat
  size : Nat
  deriving DecidableEq

/-- Split the largest power of two off `rem`, mountain by mountain, until one holds the leaf. Each
round takes at least one off `rem`, so as many rounds as leaves are enough.
-/
def locateMountain (leafIndex : Nat) : (rounds rem offset currentPeakIdx : Nat) → Option Mountain
  | 0, _, _, _ => none
  | rounds + 1, rem, offset, currentPeakIdx =>
      if rem = 0 then
        none
      else
        let size := 2 ^ rem.log2
        if offset ≤ leafIndex ∧ leafIndex < offset + size then
          some { peakIdx := currentPeakIdx, offset, size }
        else
          locateMountain leafIndex rounds (rem - size) (offset + size) (currentPeakIdx + 1)

theorem locateMountain_round {leafIndex rem offset currentPeakIdx : Nat} (positive : rem ≠ 0)
    : locateMountain leafIndex rem rem offset currentPeakIdx
      = if offset ≤ leafIndex ∧ leafIndex < offset + 2 ^ rem.log2 then
          some { peakIdx := currentPeakIdx, offset, size := 2 ^ rem.log2 }
        else
          locateMountain leafIndex (rem - 1) (rem - 2 ^ rem.log2) (offset + 2 ^ rem.log2)
            (currentPeakIdx + 1) := by
  obtain ⟨rounds, rfl⟩ : ∃ rounds, rem = rounds + 1 := ⟨rem - 1, by omega⟩
  rw [locateMountain, if_neg positive, Nat.add_sub_cancel]

/-- Further rounds change nothing: the loop has ended. -/
theorem locateMountain_of_le {leafIndex rounds more rem offset currentPeakIdx : Nat}
    (enough : rem ≤ rounds) (longer : rounds ≤ more)
    : locateMountain leafIndex more rem offset currentPeakIdx
      = locateMountain leafIndex rounds rem offset currentPeakIdx := by
  induction rounds generalizing more rem offset currentPeakIdx with
  | zero =>
      obtain rfl : rem = 0 := Nat.le_zero.mp enough
      cases more with
      | zero => rfl
      | succ more => rfl
  | succ rounds ih =>
      obtain ⟨more, rfl⟩ : ∃ fewer, more = fewer + 1 := ⟨more - 1, by omega⟩
      have shrinks : rem - 2 ^ rem.log2 ≤ rounds := by
        have := Nat.two_pow_pos rem.log2
        omega
      simp only [locateMountain, ih shrinks (Nat.le_of_succ_le_succ longer)]

namespace MmrProof

section

variable (sha256 : Bytes → Hash32)

/-- The mountain a proof's leaf index falls into. -/
def mountain (proof : MmrProof) : Option Mountain :=
  locateMountain proof.leafIndex proof.leafCount proof.leafCount 0 0

/-- The peak recomputed from a leaf hash and the siblings. -/
def candidatePeak (proof : MmrProof) (target : Mountain) (leafHash : Hash32) : Hash32 :=
  HashTree.climb (combineNodes sha256) (proof.leafIndex - target.offset) 0 leafHash proof.siblings

/-- Check that a leaf hash is included under a root. -/
def verify (proof : MmrProof) (expectedRoot leafHash : Hash32) : Except ProofError Unit :=
  if proof.leafCount = 0 then
    .error .emptyTree
  else if proof.leafCount ≤ proof.leafIndex then
    .error (.leafIndexOutOfBounds proof.leafIndex proof.leafCount)
  else if proof.peaks.length ≠ countOnes proof.leafCount then
    .error (.peakCountMismatch (countOnes proof.leafCount) proof.peaks.length)
  else
    match proof.mountain with
    | none => .error (.leafIndexOutOfBounds proof.leafIndex proof.leafCount)
    | some target =>
        if proof.siblings.length ≠ target.size.log2 then
          .error (.siblingCountMismatch target.size.log2 proof.siblings.length)
        else
          let curr := proof.candidatePeak sha256 target leafHash
          match proof.peaks[target.peakIdx]? with
          | none => .error (.peakMismatch "" curr.toHex target.peakIdx)
          | some expectedPeak =>
              if curr ≠ expectedPeak then
                .error (.peakMismatch expectedPeak.toHex curr.toHex target.peakIdx)
              else if bagPeaks sha256 proof.peaks ≠ expectedRoot then
                .error (.rootMismatch expectedRoot.toHex (bagPeaks sha256 proof.peaks).toHex)
              else
                .ok ()

/-- What an accepted proof has passed. -/
structure Accepted (proof : MmrProof) (expectedRoot leafHash : Hash32) (target : Mountain) : Prop
    where
  index_lt : proof.leafIndex < proof.leafCount
  peakCount : proof.peaks.length = countOnes proof.leafCount
  located : proof.mountain = some target
  siblingCount : proof.siblings.length = target.size.log2
  peak : proof.peaks[target.peakIdx]? = some (proof.candidatePeak sha256 target leafHash)
  root : bagPeaks sha256 proof.peaks = expectedRoot

end

variable {sha256 : Bytes → Hash32} {proof : MmrProof} {expectedRoot leafHash : Hash32}

theorem verify_eq_ok
    : proof.verify sha256 expectedRoot leafHash = .ok ()
      ↔ ∃ target, Accepted sha256 proof expectedRoot leafHash target := by
  constructor
  · intro accepted
    unfold verify at accepted
    split at accepted
    · cases accepted
    split at accepted
    · cases accepted
    rename_i inside
    split at accepted
    · cases accepted
    rename_i peakCount
    split at accepted
    · cases accepted
    rename_i target located
    split at accepted
    · cases accepted
    rename_i siblingCount
    dsimp only at accepted
    split at accepted
    · cases accepted
    rename_i expectedPeak there
    split at accepted
    · cases accepted
    rename_i same
    split at accepted
    · cases accepted
    rename_i root
    rw [not_not] at peakCount siblingCount same root
    exact ⟨target, Nat.lt_of_not_le inside, peakCount, located, siblingCount, same ▸ there, root⟩
  · intro ⟨target, accepted⟩
    have nonempty : proof.leafCount ≠ 0 := Nat.ne_zero_of_lt accepted.index_lt
    simp [verify, nonempty, Nat.not_le.mpr accepted.index_lt, accepted.peakCount,
      accepted.located, accepted.siblingCount, accepted.peak, accepted.root]

end MmrProof

end TrustLedger.Merkle
