import TrustLedger.Merkle.Completeness

/-! The mountain range of a list of leaf hashes, by its definition: one perfect tree for each set
bit of the leaf count, over consecutive blocks of leaves. Appending leaf by leaf builds it.
-/

namespace TrustLedger.Merkle

open Foundation MountainRange

section NodeCount

variable {sha256 : Bytes → Hash32}

theorem mergePeaks_count {nodes nodes' : List MmrNode} {positions positions' : List Nat}
    {currentPos currentHeight top : Nat}
    (run : mergePeaks sha256 nodes positions currentPos currentHeight
      = some (nodes', positions', top))
    : nodes'.length + positions'.length = nodes.length + positions.length := by
  induction positions generalizing nodes currentPos currentHeight with
  | nil =>
      obtain ⟨rfl, rfl, rfl⟩ : nodes = nodes' ∧ [] = positions' ∧ currentPos = top := by
        simpa [mergePeaks] using run
      rfl
  | cons lastPeakIdx positions ih =>
      obtain ⟨left, -, run⟩ := Option.bind_eq_some_iff.mp run
      split at run
      · obtain ⟨right, -, run⟩ := Option.bind_eq_some_iff.mp run
        have count := ih run
        simp only [length_setParent, List.length_append, List.length_singleton] at count
        rw [count, List.length_cons]
        omega
      · obtain ⟨rfl, rfl, rfl⟩ :
            nodes = nodes' ∧ lastPeakIdx :: positions = positions' ∧ currentPos = top := by
          simpa using run
        rfl

/-- A forest with two nodes for each leaf, one less for each tree. -/
def Balanced (mmr : MerkleMountainRange) : Prop :=
  mmr.nodes.length + mmr.peakPositions.length = 2 * mmr.leafPositions.length

theorem balanced_new : Balanced MerkleMountainRange.new :=
  rfl

theorem Balanced.appendLeafHash {mmr mmr' : MerkleMountainRange} {leafHash : Hash32} {i : Nat}
    (balanced : Balanced mmr) (appended : mmr.appendLeafHash sha256 leafHash = some (mmr', i))
    : Balanced mmr' := by
  obtain ⟨⟨nodes, positions, top⟩, run, built⟩ := Option.bind_eq_some_iff.mp appended
  obtain ⟨rfl, -⟩ := Prod.mk.inj (Option.some.inj built)
  have count := mergePeaks_count run
  simp only [List.length_append, List.length_reverse, List.length_singleton] at count
  simp only [Balanced, List.length_append, List.length_reverse, List.length_singleton]
    at balanced ⊢
  omega

theorem Balanced.appendLeafHashes {mmr mmr' : MerkleMountainRange} {hashes : List Hash32}
    (balanced : Balanced mmr) (appended : mmr.appendLeafHashes sha256 hashes = some mmr')
    : Balanced mmr' := by
  induction hashes generalizing mmr with
  | nil => exact Option.some.inj appended ▸ balanced
  | cons hash rest ih =>
      rw [MerkleMountainRange.appendLeafHashes, List.foldlM_cons] at appended
      obtain ⟨next, step, run⟩ := Option.bind_eq_some_iff.mp appended
      obtain ⟨⟨next', i⟩, first, rfl⟩ := Option.map_eq_some_iff.mp step
      exact ih (balanced.appendLeafHash first) run

end NodeCount

section Peaks

variable {sha256 : Bytes → Hash32} {mmr : MerkleMountainRange} {range : List (HashTree Hash32)}

theorem Ranges.peakHeights {nodes : List MmrNode} {bound : Nat} {positions leaves : List Nat}
    (ranges : Ranges sha256 nodes bound range positions leaves)
    : positions.map (fun idx => nodes[idx]?.map MmrNode.height)
      = range.map fun t => some t.height := by
  induction ranges with
  | nil bound => rfl
  | cons below stands rest ih =>
      obtain ⟨node, found, -, height⟩ := stands.tree.top
      simp [found, height, ih]

theorem Stores.peakHeights (stores : Stores sha256 mmr range)
    : mmr.peakPositions.map (fun idx => mmr.nodes[idx]?.map MmrNode.height)
      = (range.reverse.map HashTree.height).map some := by
  have heights := congrArg List.reverse stores.ranges.peakHeights
  rw [← List.map_reverse, List.reverse_reverse, ← List.map_reverse] at heights
  rw [heights, List.map_map]
  rfl

end Peaks

/-- The range's definition, for a list of leaf hashes. Its peaks are perfect trees over consecutive
blocks of the leaves, with `heights` from the first block on.
-/
structure IsRangeOf (sha256 : Bytes → Hash32) (mmr : MerkleMountainRange) (hashes : List Hash32)
    (heights : List Nat) : Prop where
  peakHeights : mmr.peakPositions.map (fun idx => mmr.nodes[idx]?.map MmrNode.height)
    = heights.map some
  falling : heights.Pairwise (· > ·)
  setBits : ∀ b, b ∈ heights ↔ hashes.length.testBit b = true
  peaks : mmr.peaks = blockRoots (combineNodes sha256) Hash32.zero heights hashes
  root : mmr.root sha256
    = bag (combinePeaks sha256) Hash32.zero
        (blockRoots (combineNodes sha256) Hash32.zero heights hashes)
  nodeCount : mmr.nodeCount = 2 * hashes.length - countOnes hashes.length
  leafCount : mmr.leafCount = hashes.length
  leafHash : ∀ (i : Nat) (bound : i < hashes.length), mmr.leafHash i = .ok hashes[i]

/-- Appending leaf hashes one by one builds the range that their list defines. -/
theorem appended_range_is_reference (sha256 : Bytes → Hash32) (hashes : List Hash32)
    : ∃ mmr heights, MerkleMountainRange.new.appendLeafHashes sha256 hashes = some mmr
        ∧ IsRangeOf sha256 mmr hashes heights := by
  obtain ⟨mmr, range, built, stores, leaves⟩ := stores_new.appendLeafHashes hashes
  obtain rfl : rangeLeaves range = hashes := leaves
  have falling := stores.stairs.falling
  have size : mmr.leafPositions.length = (rangeLeaves range).length := stores.ranges.length_leaves
  have count := stores.stairs.length_rangeLeaves
  have blocks : mmr.peaks
      = blockRoots (combineNodes sha256) Hash32.zero (range.reverse.map HashTree.height)
          (rangeLeaves range) := by
    rw [stores.peaks, rangeLeaves, blockRoots_flatMap]
    intro t mem
    exact (stores.stairs.mem (List.mem_reverse.mp mem)).1
  refine ⟨mmr, range.reverse.map HashTree.height, built, stores.peakHeights, falling, ?_, blocks,
    ?_, ?_, size, ?_⟩
  · intro b
    rw [count, mem_iff_testBit_powers falling]
  · rw [MerkleMountainRange.root, bagPeaks_eq_bag, blocks]
  · have balanced : Balanced mmr := balanced_new.appendLeafHashes built
    have tops := congrArg List.length stores.peakHeights
    rw [Balanced, size] at balanced
    simp only [List.length_map] at tops
    rw [count, countOnes_powers falling, List.length_map, ← tops, ← count,
      MerkleMountainRange.nodeCount]
    omega
  · intro i bound
    obtain ⟨-, hash, -, leafHash, there, -⟩ :=
      stores.proof_verifies (List.getElem?_eq_getElem (size.symm ▸ bound))
    obtain ⟨_, rfl⟩ := List.getElem?_eq_some_iff.mp there
    exact leafHash

end TrustLedger.Merkle
