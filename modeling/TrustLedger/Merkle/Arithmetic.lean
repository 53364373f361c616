import TrustLedger.Merkle.Proof
import TrustLedger.Foundation.MountainRange

/-! Verification on 64-bit words with overflow checks. No step of it faults, its loop takes one
round for each set bit of the leaf count at most, and it answers as on unbounded numbers.
-/

namespace TrustLedger.Merkle

open Foundation

/-- An inclusion proof whose numbers are machine words. -/
structure WordProof where
  leafIndex : U64
  leafCount : U64
  siblings : List Hash32
  peaks : List Hash32
  deriving DecidableEq

/-- A mountain whose numbers are machine words. -/
structure WordMountain where
  peakIdx : U64
  offset : U64
  size : U64
  deriving DecidableEq

def WordMountain.toMountain (target : WordMountain) : Mountain :=
  { peakIdx := target.peakIdx.val, offset := target.offset.val, size := target.size.val }

/-- The loop over the mountains, with at most `rounds` runs of its body. `none` is a fault, or a
loop that goes on.
-/
def findMountain (leafIndex : U64)
    : (rounds : Nat) → (rem offset currentPeakIdx : U64) → Option (Option WordMountain)
  | 0, rem, _, _ => if rem.val = 0 then some none else none
  | rounds + 1, rem, offset, currentPeakIdx =>
      if rem.val = 0 then
        some none
      else do
        let power ← checkedSub 63 (leadingZeros rem)
        let size ← checkedShl 1 power
        -- the sum is evaluated only behind the first comparison
        let inside ←
          if offset.val ≤ leafIndex.val then
            (checkedAdd offset size).map fun top => decide (leafIndex.val < top.val)
          else
            some false
        if inside then
          some (some { peakIdx := currentPeakIdx, offset, size })
        else
          let offset' ← checkedAdd offset size
          let rem' ← checkedSub rem size
          let currentPeakIdx' ← checkedAdd currentPeakIdx 1
          findMountain leafIndex rounds rem' offset' currentPeakIdx'

namespace WordProof

/-- The statements that `verify` returns from. -/
inductive Exit where
  | emptyTree
  | leafIndexOutOfBounds
  | peakCountMismatch (expected : Nat)
  | missingMountain
  | siblingCountMismatch (expected : U64)
  | missingPeak (computed : Hash32) (peakIdx : U64)
  | peakMismatch (expected computed : Hash32) (peakIdx : U64)
  | rootMismatch (computed : Hash32)
  | included
  deriving DecidableEq

/-- What is returned. -/
def Exit.result (proof : WordProof) (expectedRoot : Hash32) : Exit → Except ProofError Unit
  | .emptyTree => .error .emptyTree
  | .leafIndexOutOfBounds =>
      .error (.leafIndexOutOfBounds proof.leafIndex.val proof.leafCount.val)
  | .peakCountMismatch expected => .error (.peakCountMismatch expected proof.peaks.length)
  | .missingMountain => .error (.leafIndexOutOfBounds proof.leafIndex.val proof.leafCount.val)
  | .siblingCountMismatch expected =>
      .error (.siblingCountMismatch expected.val proof.siblings.length)
  | .missingPeak computed peakIdx => .error (.peakMismatch "" computed.toHex peakIdx.val)
  | .peakMismatch expected computed peakIdx =>
      .error (.peakMismatch expected.toHex computed.toHex peakIdx.val)
  | .rootMismatch computed => .error (.rootMismatch expectedRoot.toHex computed.toHex)
  | .included => .ok ()

section

variable (sha256 : Bytes → Hash32)

/-- The loop over the siblings, from height `h` on. -/
def climb (localIndex : U64) : (h : Nat) → Hash32 → List Hash32 → Option Hash32
  | _, curr, [] => some curr
  | h, curr, sibling :: rest => do
      let shifted ← checkedShr localIndex h
      if shifted.val % 2 = 1 then
        climb localIndex (h + 1) (combineNodes sha256 sibling curr) rest
      else
        climb localIndex (h + 1) (combineNodes sha256 curr sibling) rest

/-- Where verification returns from. `none` is a fault, or a mountain loop of more than `rounds`
rounds.
-/
def verify (proof : WordProof) (rounds : Nat) (expectedRoot leafHash : Hash32) : Option Exit :=
  if proof.leafCount.val = 0 then
    some .emptyTree
  else if proof.leafCount.val ≤ proof.leafIndex.val then
    some .leafIndexOutOfBounds
  else if proof.peaks.length ≠ countOnes proof.leafCount.val then
    some (.peakCountMismatch (countOnes proof.leafCount.val))
  else do
    match ← findMountain proof.leafIndex rounds proof.leafCount 0 0 with
    | none => some .missingMountain
    | some target =>
        let expectedSiblings ← checkedSub 63 (leadingZeros target.size)
        if proof.siblings.length ≠ expectedSiblings.val then
          some (.siblingCountMismatch expectedSiblings)
        else
          let localIndex ← checkedSub proof.leafIndex target.offset
          let curr ← climb sha256 localIndex 0 leafHash proof.siblings
          match proof.peaks[target.peakIdx.val]? with
          | none => some (.missingPeak curr target.peakIdx)
          | some expectedPeak =>
              if curr ≠ expectedPeak then
                some (.peakMismatch expectedPeak curr target.peakIdx)
              else if bagPeaks sha256 proof.peaks ≠ expectedRoot then
                some (.rootMismatch (bagPeaks sha256 proof.peaks))
              else
                some .included

end

/-- The proof on unbounded numbers. -/
def toProof (proof : WordProof) : MmrProof :=
  {
    leafIndex := proof.leafIndex.val
    leafCount := proof.leafCount.val
    siblings := proof.siblings
    peaks := proof.peaks
  }

@[simp] theorem toProof_leafIndex (proof : WordProof)
    : proof.toProof.leafIndex = proof.leafIndex.val :=
  rfl

@[simp] theorem toProof_leafCount (proof : WordProof)
    : proof.toProof.leafCount = proof.leafCount.val :=
  rfl

@[simp] theorem toProof_siblings (proof : WordProof) : proof.toProof.siblings = proof.siblings :=
  rfl

@[simp] theorem toProof_peaks (proof : WordProof) : proof.toProof.peaks = proof.peaks :=
  rfl

end WordProof

section Locating

variable {leafIndex rem offset currentPeakIdx : U64}

/-- A mountain found among those of `rem` leaves from `offset` on. -/
structure Found (leafIndex rem offset currentPeakIdx : U64) (target : WordMountain) : Prop where
  located : locateMountain leafIndex.val rem.val rem.val offset.val currentPeakIdx.val
    = some target.toMountain
  size : ∃ k < 64, target.size.val = 2 ^ k
  offset_le : target.offset.val ≤ leafIndex.val
  peakIdx_lt : target.peakIdx.val < currentPeakIdx.val + countOnes rem.val

section Round

variable {size : U64} (positive : rem.val ≠ 0) (highest : size.val = 2 ^ rem.val.log2)

include positive highest

theorem checkedShl_highest
    : ∃ power, checkedSub 63 (leadingZeros rem) = some power ∧ checkedShl 1 power = some size := by
  refine ⟨_, checkedSub_leadingZeros positive, ?_⟩
  rw [checkedShl_one (log2_lt_64 rem)]
  exact congrArg some (Fin.ext highest.symm)

theorem findMountain_here {rounds : Nat} (low : offset.val ≤ leafIndex.val)
    (high : leafIndex.val < offset.val + size.val) (fits : offset.val + size.val < 2 ^ 64)
    : findMountain leafIndex (rounds + 1) rem offset currentPeakIdx
      = some (some { peakIdx := currentPeakIdx, offset, size }) := by
  obtain ⟨power, powerEq, sizeEq⟩ := checkedShl_highest positive highest
  have sum : checkedAdd offset size = some ⟨offset.val + size.val, fits⟩ :=
    checkedAdd_eq_some.mpr rfl
  simp only [findMountain, if_neg positive, Option.bind_eq_bind, powerEq, sizeEq, Option.bind_some,
    if_pos low, sum, Option.map_some, decide_eq_true high, if_true]

variable {rem' offset' currentPeakIdx' : U64} (beyond : ¬ leafIndex.val < offset.val + size.val)
  (nextRem : rem'.val + size.val = rem.val) (nextOffset : offset'.val = offset.val + size.val)
  (nextIdx : currentPeakIdx'.val = currentPeakIdx.val + 1)

include beyond nextRem nextOffset nextIdx

theorem findMountain_past {rounds : Nat} (low : offset.val ≤ leafIndex.val)
    : findMountain leafIndex (rounds + 1) rem offset currentPeakIdx
      = findMountain leafIndex rounds rem' offset' currentPeakIdx' := by
  obtain ⟨power, powerEq, sizeEq⟩ := checkedShl_highest positive highest
  have sum : checkedAdd offset size = some offset' := checkedAdd_eq_some.mpr nextOffset
  have rest : checkedSub rem size = some rem' := checkedSub_eq_some.mpr nextRem
  have idx : checkedAdd currentPeakIdx 1 = some currentPeakIdx' := checkedAdd_eq_some.mpr nextIdx
  have out : decide (leafIndex.val < offset'.val) = false := by
    rw [nextOffset]
    exact decide_eq_false beyond
  simp only [findMountain, if_neg positive, Option.bind_eq_bind, powerEq, sizeEq, Option.bind_some,
    if_pos low, sum, Option.map_some, out, rest, idx, Bool.false_eq_true, if_false]

theorem Found.past {target : WordMountain}
    (found : Found leafIndex rem' offset' currentPeakIdx' target)
    : Found leafIndex rem offset currentPeakIdx target := by
  have sizePos := Nat.two_pow_pos rem.val.log2
  have rest : rem.val - size.val = rem'.val := by omega
  refine ⟨?_, found.size, found.offset_le, ?_⟩
  · rw [locateMountain_round positive, ← highest, if_neg fun inside => beyond inside.2, rest,
      ← nextOffset, ← nextIdx, locateMountain_of_le (Nat.le_refl rem'.val) (by omega),
      found.located]
  · have := found.peakIdx_lt
    rw [countOnes_sub_log2 positive, ← highest, rest]
    omega

end Round

/-- The loop finds the mountain, with one round at most for each set bit. The sum of `rem` and
`offset` stays what it was, so every sum fits.
-/
theorem findMountain_found (low : offset.val ≤ leafIndex.val)
    (high : leafIndex.val < offset.val + rem.val) (fits : offset.val + rem.val < 2 ^ 64)
    (room : currentPeakIdx.val + countOnes rem.val < 2 ^ 64)
    : ∃ target, findMountain leafIndex (countOnes rem.val) rem offset currentPeakIdx
        = some (some target)
      ∧ Found leafIndex rem offset currentPeakIdx target := by
  induction count : rem.val using Nat.strong_induction_on generalizing rem offset
    currentPeakIdx with
  | h n ih =>
  subst count
  have positive : rem.val ≠ 0 := by omega
  have bound := log2_lt_64 rem
  have sizeLe := Nat.log2_self_le positive
  have ones := countOnes_sub_log2 positive
  obtain ⟨size, highest⟩ : ∃ size : U64, size.val = 2 ^ rem.val.log2 :=
    ⟨⟨2 ^ rem.val.log2, Nat.pow_lt_pow_right (by decide) bound⟩, rfl⟩
  have sizePos := Nat.two_pow_pos rem.val.log2
  rw [← highest] at sizeLe sizePos ones
  by_cases here : leafIndex.val < offset.val + size.val
  · refine ⟨{ peakIdx := currentPeakIdx, offset, size }, ?_, ?_, ⟨_, bound, highest⟩, low, ?_⟩
    · rw [ones, findMountain_here positive highest low here (by omega)]
    · rw [locateMountain_round positive, ← highest, if_pos ⟨low, here⟩]
      rfl
    · show currentPeakIdx.val < _
      omega
  · obtain ⟨rem', nextRem⟩ : ∃ rem' : U64, rem'.val = rem.val - size.val :=
      ⟨⟨rem.val - size.val, by omega⟩, rfl⟩
    obtain ⟨offset', nextOffset⟩ : ∃ offset' : U64, offset'.val = offset.val + size.val :=
      ⟨⟨offset.val + size.val, by omega⟩, rfl⟩
    obtain ⟨idx', nextIdx⟩ : ∃ idx' : U64, idx'.val = currentPeakIdx.val + 1 :=
      ⟨⟨currentPeakIdx.val + 1, by omega⟩, rfl⟩
    have rest : rem'.val + size.val = rem.val := by omega
    rw [← nextRem] at ones
    obtain ⟨target, run, found⟩ :=
      @ih rem'.val (by omega) rem' offset' idx' (by omega) (by omega) (by omega) (by omega) rfl
    refine ⟨target, ?_, found.past positive highest here rest nextOffset nextIdx⟩
    rw [ones, findMountain_past positive highest here rest nextOffset nextIdx low, run]

end Locating

section Climbing

variable {sha256 : Bytes → Hash32} {localIndex : U64}

/-- A path shorter than a word shifts by less than its width. -/
theorem WordProof.climb_eq {h : Nat} {curr : Hash32} {siblings : List Hash32}
    (short : h + siblings.length ≤ 64)
    : WordProof.climb sha256 localIndex h curr siblings
      = some (HashTree.climb (combineNodes sha256) localIndex.val h curr siblings) := by
  induction siblings generalizing h curr with
  | nil => rfl
  | cons sibling rest ih =>
      rw [List.length_cons] at short
      obtain ⟨shifted, shift, bit⟩ := @checkedShr_testBit localIndex h (by omega)
      simp only [WordProof.climb, shift, Option.bind_eq_bind, Option.bind_some]
      rw [HashTree.climb, HashTree.joined]
      by_cases right : localIndex.val.testBit h = true
      · rw [if_pos (bit.mpr right), ih (by omega), if_pos right]
      · rw [if_neg fun odd => right (bit.mp odd), ih (by omega), if_neg right]

end Climbing

namespace WordProof

/-- What verification computes once the mountain is found. -/
structure Located (sha256 : Bytes → Hash32) (proof : WordProof) (leafHash : Hash32)
    (target : WordMountain) : Prop where
  run : findMountain proof.leafIndex (countOnes proof.leafCount.val) proof.leafCount 0 0
    = some (some target)
  mountain : proof.toProof.mountain = some target.toMountain
  height : ∃ k : U64, checkedSub 63 (leadingZeros target.size) = some k
    ∧ k.val = target.size.val.log2
  climbs : ∃ localIndex, checkedSub proof.leafIndex target.offset = some localIndex
    ∧ (proof.siblings.length = target.size.val.log2 →
      climb sha256 localIndex 0 leafHash proof.siblings
        = some (proof.toProof.candidatePeak sha256 target.toMountain leafHash))
  peakIdx_lt : target.peakIdx.val < countOnes proof.leafCount.val

theorem located (sha256 : Bytes → Hash32) (proof : WordProof) (leafHash : Hash32)
    (inside : proof.leafIndex.val < proof.leafCount.val)
    : ∃ target, Located sha256 proof leafHash target := by
  have ones : countOnes proof.leafCount.val ≤ 64 := countOnes_le proof.leafCount.isLt
  obtain ⟨target, run, found⟩ :=
    @findMountain_found proof.leafIndex proof.leafCount 0 0 (Nat.zero_le _)
      (by rw [Fin.val_zero]; omega) (by rw [Fin.val_zero]; omega) (by rw [Fin.val_zero]; omega)
  obtain ⟨k, width, size⟩ := found.size
  have nonzero : target.size.val ≠ 0 := size ▸ (Nat.two_pow_pos k).ne'
  refine ⟨target, run, found.located, ⟨_, checkedSub_leadingZeros nonzero, rfl⟩,
    ⟨⟨proof.leafIndex.val - target.offset.val, by omega⟩,
      checkedSub_eq_some.mpr (Nat.sub_add_cancel found.offset_le), fun count => ?_⟩, ?_⟩
  · exact climb_eq (by rw [count, size, Nat.log2_two_pow]; omega)
  · simpa using found.peakIdx_lt

/-- The branches for a missing mountain and for a missing peak. -/
def Exit.Unreachable : Exit → Prop
  | .missingMountain => True
  | .missingPeak _ _ => True
  | _ => False

/-- Verification runs to its end on any words, with one round of its loop at most for each set bit
of the leaf count. It never takes the branches for a missing mountain or peak, and answers as on
unbounded numbers.
-/
theorem verify_never_faults (sha256 : Bytes → Hash32) (proof : WordProof)
    (expectedRoot leafHash : Hash32)
    : ∃ exit, proof.verify sha256 (countOnes proof.leafCount.val) expectedRoot leafHash = some exit
        ∧ ¬ exit.Unreachable
        ∧ exit.result proof expectedRoot = proof.toProof.verify sha256 expectedRoot leafHash := by
  by_cases empty : proof.leafCount.val = 0
  · exact ⟨.emptyTree, by simp [verify, empty], not_false,
      by simp [Exit.result, MmrProof.verify, empty]⟩
  by_cases outside : proof.leafCount.val ≤ proof.leafIndex.val
  · exact ⟨.leafIndexOutOfBounds, by simp [verify, empty, outside], not_false,
      by simp [Exit.result, MmrProof.verify, empty, outside]⟩
  by_cases peakCount : proof.peaks.length = countOnes proof.leafCount.val
  swap
  · exact ⟨.peakCountMismatch (countOnes proof.leafCount.val),
      by simp [verify, empty, outside, peakCount], not_false,
      by simp [Exit.result, MmrProof.verify, empty, outside, peakCount]⟩
  obtain ⟨target, located⟩ := proof.located sha256 leafHash (Nat.lt_of_not_le outside)
  obtain ⟨expected, height, heightEq⟩ := located.height
  by_cases siblingCount : proof.siblings.length = target.size.val.log2
  swap
  · exact ⟨.siblingCountMismatch expected,
      by simp [verify, empty, outside, peakCount, located.run, height, heightEq, siblingCount],
      not_false,
      by simp [Exit.result, MmrProof.verify, empty, outside, peakCount, located.mountain, heightEq,
        siblingCount, WordMountain.toMountain]⟩
  obtain ⟨localIndex, start, climbs⟩ := located.climbs
  obtain ⟨expectedPeak, there⟩ : ∃ peak, proof.peaks[target.peakIdx.val]? = some peak :=
    ⟨_, List.getElem?_eq_getElem (peakCount ▸ located.peakIdx_lt)⟩
  let curr := proof.toProof.candidatePeak sha256 target.toMountain leafHash
  have words : proof.verify sha256 (countOnes proof.leafCount.val) expectedRoot leafHash
      = if curr ≠ expectedPeak then some (.peakMismatch expectedPeak curr target.peakIdx)
        else if bagPeaks sha256 proof.peaks ≠ expectedRoot then
          some (.rootMismatch (bagPeaks sha256 proof.peaks))
        else some .included := by
    simp [verify, empty, outside, peakCount, located.run, height, heightEq, siblingCount, start,
      climbs siblingCount, there, curr]
  have numbers : proof.toProof.verify sha256 expectedRoot leafHash
      = if curr ≠ expectedPeak then
          .error (.peakMismatch expectedPeak.toHex curr.toHex target.peakIdx.val)
        else if bagPeaks sha256 proof.peaks ≠ expectedRoot then
          .error (.rootMismatch expectedRoot.toHex (bagPeaks sha256 proof.peaks).toHex)
        else .ok () := by
    have idx : target.toMountain.peakIdx = target.peakIdx.val := rfl
    have width : target.toMountain.size = target.size.val := rfl
    rw [MmrProof.verify, located.mountain]
    simp only [toProof_leafCount, toProof_leafIndex, toProof_peaks, toProof_siblings, if_neg empty,
      if_neg outside, peakCount, ne_eq, not_true_eq_false, if_false, width, siblingCount, idx,
      there, curr]
    rfl
  rw [words, numbers]
  split_ifs
  · exact ⟨_, rfl, not_false, rfl⟩
  · exact ⟨_, rfl, not_false, rfl⟩
  · exact ⟨_, rfl, not_false, rfl⟩

end WordProof

end TrustLedger.Merkle
