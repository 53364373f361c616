import TrustLedger.Merkle.Completeness
import TrustLedger.Merkle.Soundness

/-! A proof that states the true number of leaves binds a raw leaf hash to its index: the peaks it
lists are then the genuine ones, and its path climbs the genuine tree to full height. Nothing is
asked of the leaf hash itself, and of the hash function only that it is injective on the strings
hashed.
-/

namespace TrustLedger.Merkle

open Foundation MountainRange

/-- The strings hashed to verify a leaf hash. -/
def MmrProof.inclusionStrings (sha256 : Bytes → Hash32) (proof : MmrProof) (leafHash : Hash32)
    : List Bytes :=
  proof.pathStrings sha256 leafHash ++ bagStrings sha256 proof.peaks

section Binding

variable {sha256 : Bytes → Hash32} {strings : Set Bytes} {mmr : MerkleMountainRange}
  {range : List (HashTree Hash32)} {proof : MmrProof} {leafHash root : Hash32} {target : Mountain}

theorem injective_nodePairs (inj : Set.InjOn sha256 strings)
    : HashTree.Injective (combineNodes sha256) (nodePairs strings) :=
  fun first second same => nodeString_inj (inj first second same)

theorem injective_peakPairs (inj : Set.InjOn sha256 strings)
    : HashTree.Injective (combinePeaks sha256) (peakPairs strings) :=
  fun first second same => peakString_inj (inj first second same)

variable (stores : Stores sha256 mmr range) (inj : Set.InjOn sha256 strings)
  (committed : ∀ s ∈ bagStrings sha256 mmr.peaks, s ∈ strings)
  (verified : ∀ s ∈ proof.inclusionStrings sha256 leafHash, s ∈ strings)
  (accepted : MmrProof.Accepted sha256 proof (mmr.root sha256) leafHash target)
  (count : proof.leafCount = mmr.leafPositions.length)

include stores inj committed verified accepted count

/-- With the true number of leaves, an accepted proof lists the genuine peaks. -/
theorem Stores.peaks_of_accepted : proof.peaks = mmr.peaks := by
  have bagged : bag (combinePeaks sha256) Hash32.zero proof.peaks
      = bag (combinePeaks sha256) Hash32.zero mmr.peaks := by
    rw [← bagPeaks_eq_bag, ← bagPeaks_eq_bag]
    exact accepted.root
  have length : proof.peaks.length = mmr.peaks.length := by
    rw [accepted.peakCount, stores.peakCount, count]
  exact eq_of_bag_eq_of_length (injective_peakPairs inj)
    (bagPairs_hashed fun s mem => verified s (List.mem_append_right _ mem))
    (bagPairs_hashed committed) length bagged

/-- With the true number of leaves, an accepted proof is about the leaf at its index. -/
theorem Stores.leaf_of_accepted (nodes : ∀ s ∈ mmr.nodeStrings, s ∈ strings)
    : (rangeLeaves range)[proof.leafIndex]? = some leafHash := by
  have inside : proof.leafIndex < mmr.leafPositions.length := count ▸ accepted.index_lt
  obtain ⟨before, t, after, pos, own, split, stands, low, there⟩ :=
    stores.ranges.find stores.stairs (List.getElem?_eq_getElem inside)
  have perfect : ∀ u ∈ before ++ t :: after, HashTree.Perfect u.height u := by
    intro u mem
    exact (stores.stairs.mem (List.mem_reverse.mp (split ▸ mem))).1
  have tPerfect : HashTree.Perfect t.height t := perfect t (by simp)
  have within : proof.leafIndex - powers (before.map HashTree.height) < 2 ^ t.height := by
    have bound := (List.getElem?_eq_some_iff.mp there).1
    rwa [stands.tree.length_leaves, tPerfect.length_leaves] at bound
  -- both sides find the same mountain
  have located := accepted.located
  have total := stores.leafCount
  have falling := stores.stairs.falling
  rw [split, List.map_append, List.map_cons] at total falling
  rw [MmrProof.mountain, count, total,
    locateMountain_powers falling le_rfl (by omega) (by omega), Nat.zero_add, Nat.zero_add,
    List.length_map] at located
  obtain rfl := Option.some.inj located
  have top := accepted.peak
  rw [stores.peaks_of_accepted inj committed verified accepted count, stores.peaks, split] at top
  have climbedTop : HashTree.climb (combineNodes sha256)
      (proof.leafIndex - powers (before.map HashTree.height)) 0 leafHash proof.siblings
      = t.root (combineNodes sha256) := by
    simpa [MmrProof.candidatePeak] using top.symm
  have long : proof.siblings.length = t.height := by
    simpa [Nat.log2_two_pow] using accepted.siblingCount
  have climbed : ∀ pair ∈ HashTree.climbPairs (combineNodes sha256)
      (proof.leafIndex - powers (before.map HashTree.height)) 0 leafHash proof.siblings,
      pair ∈ nodePairs strings := by
    intro pair mem
    refine verified _ (List.mem_append_left _ ?_)
    rw [MmrProof.pathStrings, accepted.located]
    exact List.mem_map_of_mem mem
  have pairs : ∀ pair ∈ t.pairs (combineNodes sha256), pair ∈ nodePairs strings := fun pair mem =>
    nodes _ (stores.ranges.pairs_hashed (List.mem_reverse.mp (by rw [split]; simp)) pair mem)
  have leaf := tPerfect.leaf_of_climb (injective_nodePairs inj) pairs long climbed climbedTop
  rw [Nat.mod_eq_of_lt within] at leaf
  rw [rangeLeaves, split]
  exact getElem?_flatMap_leaves (fun u mem => perfect u (List.mem_append_left _ mem)) low leaf

end Binding

/-- The pairs combined to recompute a peak from a leaf hash. -/
def MmrProof.pathPairs (sha256 : Bytes → Hash32) (proof : MmrProof) (leafHash : Hash32)
    : List (Hash32 × Hash32) :=
  match proof.mountain with
  | none => []
  | some target =>
      HashTree.climbPairs (combineNodes sha256) (proof.leafIndex - target.offset) 0 leafHash
        proof.siblings

/-- The pairs combined to bag the peaks a proof lists. -/
def MmrProof.peakPairs (sha256 : Bytes → Hash32) (proof : MmrProof) : List (Hash32 × Hash32) :=
  bagPairs (combinePeaks sha256) Hash32.zero proof.peaks

/-- Two proofs that verify at one index of one number of leaves against one root, any root at all,
verify the same leaf hash and are the same proof. Combining has to be injective on the pairs
combined by the two verifications only.
-/
theorem verified_position_unique (sha256 : Bytes → Hash32) (root a b : Hash32)
    (proof proof' : MmrProof) (nodes : HashTree.Injective (combineNodes sha256)
      { pair | pair ∈ proof.pathPairs sha256 a ++ proof'.pathPairs sha256 b })
    (peaks : HashTree.Injective (combinePeaks sha256)
      { pair | pair ∈ proof.peakPairs sha256 ++ proof'.peakPairs sha256 })
    (count : proof.leafCount = proof'.leafCount) (index : proof.leafIndex = proof'.leafIndex)
    (verified : proof.verify sha256 root a = .ok ())
    (verified' : proof'.verify sha256 root b = .ok ())
    : a = b ∧ proof.siblings = proof'.siblings ∧ proof.peaks = proof'.peaks := by
  obtain ⟨target, accepted⟩ := MmrProof.verify_eq_ok.mp verified
  obtain ⟨target', accepted'⟩ := MmrProof.verify_eq_ok.mp verified'
  have located : proof'.mountain = some target := by
    rw [← accepted.located, MmrProof.mountain, MmrProof.mountain, count, index]
  obtain rfl : target = target' := Option.some.inj (located.symm.trans accepted'.located)
  have peaksEq : proof.peaks = proof'.peaks := by
    have length : proof.peaks.length = proof'.peaks.length := by
      rw [accepted.peakCount, accepted'.peakCount, count]
    have bagged := accepted.root.trans accepted'.root.symm
    rw [bagPeaks_eq_bag, bagPeaks_eq_bag] at bagged
    exact eq_of_bag_eq_of_length peaks (fun p mem => List.mem_append_left _ mem)
      (fun p mem => List.mem_append_right _ mem) length bagged
  have climbed : proof.candidatePeak sha256 target a = proof'.candidatePeak sha256 target b := by
    have top := accepted.peak
    rw [peaksEq, accepted'.peak] at top
    exact (Option.some.inj top).symm
  have length : proof.siblings.length = proof'.siblings.length := by
    rw [accepted.siblingCount, accepted'.siblingCount]
  rw [MmrProof.pathPairs, MmrProof.pathPairs, accepted.located, located, index] at nodes
  rw [MmrProof.candidatePeak, MmrProof.candidatePeak, index] at climbed
  obtain ⟨leafEq, siblingsEq⟩ := nodes.climb_inj (fun p mem => List.mem_append_left _ mem)
    (fun p mem => List.mem_append_right _ mem) length climbed
  exact ⟨leafEq, siblingsEq, peaksEq⟩

/-- The proof the range of three items generates for the first of them. -/
def generatedFirst : MmrProof :=
  ((threeCommitted.generateProof 0).bind Except.toOption).getD firstOfThree

/-- Witness: the proof written by hand for the first of three items is the generated one. -/
theorem verified_position_unique_first
    : threeCommitted.generateProof 0 = some (.ok generatedFirst)
      ∧ firstOfThree.siblings = generatedFirst.siblings
      ∧ firstOfThree.peaks = generatedFirst.peaks := by
  have unique := verified_position_unique polynomialHash (threeCommitted.root polynomialHash)
    (hashLeaf polynomialHash [1]) (hashLeaf polynomialHash [1]) firstOfThree generatedFirst
    (by decide +kernel) (by decide +kernel) (by decide +kernel) (by decide +kernel)
    (by decide +kernel) (by decide +kernel)
  exact ⟨by decide +kernel, unique.2⟩

end TrustLedger.Merkle
