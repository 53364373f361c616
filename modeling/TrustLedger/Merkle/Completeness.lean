import TrustLedger.Merkle.Forest
import TrustLedger.Merkle.Proof

/-! Every leaf of a range built by appends has a proof, and the proof verifies. The prover walks
parent links and the verifier reads the bits of the leaf count and index; both find the same tree of
the stored range and the same path in it.
-/

namespace TrustLedger.Merkle

open Foundation MountainRange

section Walking

variable {sha256 : Bytes → Hash32} {nodes : List MmrNode} {t left right : HashTree Hash32}
  {pos leftPos rightPos : Nat} {leaves : List Nat} {parent : MmrNode} {i leafPos k : Nat}

theorem Represents.length_leaves (represents : Represents sha256 nodes t pos leaves)
    : leaves.length = t.leaves.length := by
  induction represents with
  | leaf found height => rfl
  | node found hash height leftChild rightChild leftBelow rightBelow leftTree rightTree leftParent
      rightParent leftIh rightIh =>
      rw [List.length_append, leftIh, rightIh, HashTree.leaves, List.length_append]

/-- The node at a tree's leaf position holds that leaf's hash. -/
theorem Represents.leafHash (represents : Represents sha256 nodes t pos leaves)
    (there : leaves[i]? = some leafPos)
    : ∃ node, nodes[leafPos]? = some node ∧ t.leaves[i]? = some node.hash := by
  induction represents generalizing i with
  | leaf found height =>
      obtain ⟨rfl, rfl⟩ : i = 0 ∧ _ = leafPos := by
        simpa [List.getElem?_singleton] using there
      exact ⟨_, found, rfl⟩
  | node found hash height leftChild rightChild leftBelow rightBelow leftTree rightTree leftParent
      rightParent leftIh rightIh =>
      rw [List.getElem?_append] at there
      rw [HashTree.leaves, List.getElem?_append, ← leftTree.length_leaves]
      split at there
      · rename_i low
        simpa only [if_pos low] using leftIh there
      · rename_i high
        simpa only [if_neg high] using rightIh there

theorem climbOnce_left (found : nodes[pos]? = some parent)
    (leftChild : parent.leftChild = some leftPos) (rightChild : parent.rightChild = some rightPos)
    (rightTree : Represents sha256 nodes right rightPos leaves)
    : climbOnce nodes leftPos pos = .ok (right.root (combineNodes sha256)) := by
  obtain ⟨sibling, sibFound, sibHash, -⟩ := rightTree.top
  simp [climbOnce, found, leftChild, rightChild, siblingHash, sibFound, sibHash]

theorem climbOnce_right (found : nodes[pos]? = some parent)
    (leftChild : parent.leftChild = some leftPos) (rightChild : parent.rightChild = some rightPos)
    (order : leftPos < rightPos) (leftTree : Represents sha256 nodes left leftPos leaves)
    : climbOnce nodes rightPos pos = .ok (left.root (combineNodes sha256)) := by
  obtain ⟨sibling, sibFound, sibHash, -⟩ := leftTree.top
  simp [climbOnce, found, leftChild, rightChild, order.ne, siblingHash, sibFound, sibHash]

/-- The walk from a leaf collects its path and arrives at the top. -/
theorem Represents.walkUp_path (represents : Represents sha256 nodes t pos leaves)
    (perfect : HashTree.Perfect k t) (there : leaves[i]? = some leafPos) (fuel : Nat)
    (siblings : List Hash32)
    : walkUp nodes (fuel + t.height) leafPos siblings
      = walkUp nodes fuel pos (siblings ++ t.path (combineNodes sha256) i) := by
  induction represents generalizing k i fuel siblings with
  | leaf found height =>
      obtain ⟨rfl, rfl⟩ : i = 0 ∧ _ = leafPos := by
        simpa [List.getElem?_singleton] using there
      simp [HashTree.height, HashTree.path]
  | node found hash height leftChild rightChild leftBelow rightBelow leftTree rightTree leftParent
      rightParent leftIh rightIh =>
      cases perfect with
      | @node k _ _ leftPerfect rightPerfect =>
      have half : _ = 2 ^ k := leftTree.length_leaves.trans leftPerfect.length_leaves
      rw [List.getElem?_append, half] at there
      rw [HashTree.path, HashTree.height, leftPerfect.height_eq, ← Nat.add_assoc,
        Nat.add_right_comm]
      split at there
      · rename_i low
        have walked := leftIh leftPerfect there (fuel + 1) siblings
        rw [leftPerfect.height_eq] at walked
        rw [walked, if_pos low, walkUp, ← parentAt, leftParent]
        simp [climbOnce_left found leftChild rightChild rightTree]
      · rename_i high
        have walked := rightIh rightPerfect there (fuel + 1) siblings
        rw [rightPerfect.height_eq] at walked
        rw [walked, if_neg high, walkUp, ← parentAt, rightParent]
        simp [climbOnce_right found leftChild rightChild leftBelow leftTree]

/-- Under a peak the walk ends, within as many steps as there are nodes. -/
theorem Stands.walkUp (stands : Stands sha256 nodes t pos leaves) (perfect : HashTree.Perfect k t)
    (there : leaves[i]? = some leafPos)
    : walkUp nodes (nodes.length + 1) leafPos []
      = some (.ok (t.path (combineNodes sha256) i)) := by
  have bound := stands.tree.lt_length
  have low := stands.tree.height_le
  have fuel : nodes.length + 1 = (nodes.length - t.height) + 1 + t.height := by omega
  rw [fuel, stands.tree.walkUp_path perfect there, List.nil_append, Merkle.walkUp, ← parentAt,
    stands.free]

end Walking

section Locating

/-- The loop over the bits of the leaf count finds the mountain that holds the index. -/
theorem locateMountain_powers {before after : List Nat} {k : Nat}
    (falling : (before ++ k :: after).Pairwise (· > ·)) {leafIndex rounds offset peakIdx : Nat}
    (enough : powers (before ++ k :: after) ≤ rounds) (low : offset + powers before ≤ leafIndex)
    (high : leafIndex < offset + powers before + 2 ^ k)
    : locateMountain leafIndex rounds (powers (before ++ k :: after)) offset peakIdx
      = some
          {
            peakIdx := peakIdx + before.length
            offset := offset + powers before
            size := 2 ^ k
          } := by
  induction before generalizing rounds offset peakIdx with
  | nil =>
      have positive : 0 < powers (k :: after) := powers_pos
      obtain ⟨rounds, rfl⟩ : ∃ fewer, rounds = fewer + 1 :=
        ⟨rounds - 1, by rw [List.nil_append] at enough; omega⟩
      simp only [List.nil_append, powers_nil, Nat.add_zero] at falling low high ⊢
      rw [locateMountain, if_neg positive.ne', log2_powers falling, if_pos ⟨low, high⟩]
      rfl
  | cons first before ih =>
      rw [List.cons_append] at falling enough ⊢
      have positive : 0 < powers (first :: (before ++ k :: after)) := powers_pos
      have size := Nat.two_pow_pos first
      obtain ⟨rounds, rfl⟩ : ∃ fewer, rounds = fewer + 1 := ⟨rounds - 1, by omega⟩
      rw [powers_cons] at low high
      rw [locateMountain, if_neg positive.ne', log2_powers falling,
        if_neg (by omega), powers_cons, Nat.add_sub_cancel_left]
      rw [powers_cons] at enough
      rw [ih falling.of_cons (by omega) (by omega) (by omega), List.length_cons, powers_cons]
      simp only [Option.some.injEq, Mountain.mk.injEq, and_true]
      omega

end Locating

section Completeness

variable {sha256 : Bytes → Hash32} {nodes : List MmrNode} {bound i : Nat}
  {range : List (HashTree Hash32)} {positions leaves : List Nat} {mmr : MerkleMountainRange}

theorem Ranges.length_leaves (ranges : Ranges sha256 nodes bound range positions leaves)
    : leaves.length = (rangeLeaves range).length := by
  induction ranges with
  | nil bound => rfl
  | cons below stands rest ih =>
      rw [rangeLeaves_cons, List.length_append, List.length_append, ih,
        stands.tree.length_leaves]

/-- The tree of a stored range that holds a leaf index, with the leaf's place in it. -/
theorem Ranges.find {h leafPos : Nat} (ranges : Ranges sha256 nodes bound range positions leaves)
    (stairs : Staircase h range) (there : leaves[i]? = some leafPos)
    : ∃ before t after pos own, range.reverse = before ++ t :: after
      ∧ Stands sha256 nodes t pos own
      ∧ powers (before.map HashTree.height) ≤ i
      ∧ own[i - powers (before.map HashTree.height)]? = some leafPos := by
  -- the lowest tree holds the last leaves; the others are left to the trees before it
  induction ranges generalizing h with
  | nil bound => cases there
  | @cons bound pos t range positions own earlier below stands rest ih =>
      rw [List.getElem?_append] at there
      split at there
      · obtain ⟨before, u, after, uPos, uOwn, split, uStands, low, uThere⟩ := ih stairs.2.2 there
        exact ⟨before, u, after ++ [t], uPos, uOwn, by simp [split], uStands, low, uThere⟩
      · rename_i high
        rw [rest.length_leaves, stairs.2.2.length_rangeLeaves] at there high
        exact ⟨range.reverse, t, [], pos, own, List.reverse_cons, stands, Nat.le_of_not_lt high,
          there⟩

theorem getElem?_flatMap_leaves {before after : List (HashTree Hash32)} {t : HashTree Hash32}
    {hash : Hash32} (perfect : ∀ u ∈ before, HashTree.Perfect u.height u)
    (low : powers (before.map HashTree.height) ≤ i)
    (there : t.leaves[i - powers (before.map HashTree.height)]? = some hash)
    : ((before ++ t :: after).flatMap HashTree.leaves)[i]? = some hash := by
  have size := length_flatMap_leaves perfect
  have bound := (List.getElem?_eq_some_iff.mp there).1
  rw [List.flatMap_append, List.getElem?_append_right (by rw [size]; exact low), size,
    List.flatMap_cons, List.getElem?_append_left bound, there]

theorem Stores.leafCount (stores : Stores sha256 mmr range)
    : mmr.leafPositions.length = powers (range.reverse.map HashTree.height) :=
  stores.ranges.length_leaves.trans stores.stairs.length_rangeLeaves

theorem Stores.peakCount (stores : Stores sha256 mmr range)
    : mmr.peaks.length = countOnes mmr.leafPositions.length := by
  rw [stores.peaks, stores.leafCount, countOnes_powers stores.stairs.falling, List.length_map,
    List.length_map]

section Leaf

variable {mmr : MerkleMountainRange} {range before after : List (HashTree Hash32)}
  {t : HashTree Hash32} {i : Nat} {hash : Hash32}

/-- The proof made of a leaf's path passes every check, at the tree that holds the leaf. -/
theorem Stores.accepted (stores : Stores sha256 mmr range)
    (split : range.reverse = before ++ t :: after) (perfect : HashTree.Perfect t.height t)
    (low : powers (before.map HashTree.height) ≤ i)
    (leaf : t.leaves[i - powers (before.map HashTree.height)]? = some hash)
    : MmrProof.Accepted sha256
        {
          leafIndex := i
          leafCount := mmr.leafPositions.length
          siblings := t.path (combineNodes sha256) (i - powers (before.map HashTree.height))
          peaks := mmr.peaks
        }
        (mmr.root sha256) hash
        {
          peakIdx := before.length
          offset := powers (before.map HashTree.height)
          size := 2 ^ t.height
        } := by
  have inside : i - powers (before.map HashTree.height) < 2 ^ t.height := by
    rw [← perfect.length_leaves]
    exact (List.getElem?_eq_some_iff.mp leaf).1
  have count := stores.leafCount
  have falling := stores.stairs.falling
  rw [split, List.map_append, List.map_cons] at count falling
  constructor
  case index_lt =>
    dsimp only
    rw [count, powers_append, powers_cons]
    omega
  case peakCount => exact stores.peakCount
  case located =>
    dsimp only [MmrProof.mountain]
    rw [count, locateMountain_powers falling le_rfl (by omega) (by omega)]
    simp
  case siblingCount => rw [perfect.length_path, Nat.log2_two_pow]
  case peak =>
    rw [MmrProof.candidatePeak, perfect.climb_path leaf fun _ _ => rfl]
    simp [stores.peaks, split]
  case root => rfl

/-- Each leaf of a stored range has a proof that verifies. -/
theorem Stores.proof_verifies {leafPos : Nat} (stores : Stores sha256 mmr range)
    (position : mmr.leafPositions[i]? = some leafPos)
    : ∃ proof hash, mmr.generateProof i = some (.ok proof) ∧ mmr.leafHash i = .ok hash
        ∧ (rangeLeaves range)[i]? = some hash
        ∧ proof.verify sha256 (mmr.root sha256) hash = .ok () := by
  obtain ⟨before, t, after, pos, own, split, stands, low, there⟩ :=
    stores.ranges.find stores.stairs position
  obtain ⟨node, found, leaf⟩ := stands.tree.leafHash there
  have perfect : ∀ u ∈ before ++ t :: after, HashTree.Perfect u.height u := by
    intro u mem
    exact (stores.stairs.mem (List.mem_reverse.mp (split ▸ mem))).1
  have tPerfect : HashTree.Perfect t.height t := perfect t (by simp)
  have accepted := stores.accepted split tPerfect low leaf
  refine ⟨_, node.hash, ?_, ?_, ?_, MmrProof.verify_eq_ok.mpr ⟨_, accepted⟩⟩
  · rw [MerkleMountainRange.generateProof, position]
    simp only [stands.walkUp tPerfect there, Option.map_some, Except.map]
  · simp only [MerkleMountainRange.leafHash, position, found]
  · rw [rangeLeaves, split]
    exact getElem?_flatMap_leaves (fun u mem => perfect u (List.mem_append_left _ mem)) low leaf

end Leaf

end Completeness

/-- Whatever leaf hashes are appended, every index has a proof, and the proof verifies its leaf
hash against the root.
-/
theorem appended_leaves_provable (sha256 : Bytes → Hash32) (hashes : List Hash32)
    : ∃ mmr, MerkleMountainRange.new.appendLeafHashes sha256 hashes = some mmr
        ∧ ∀ (i : Nat) (bound : i < hashes.length),
            ∃ proof, mmr.generateProof i = some (.ok proof)
              ∧ mmr.leafHash i = .ok hashes[i]
              ∧ proof.verify sha256 (mmr.root sha256) hashes[i] = .ok () := by
  obtain ⟨mmr, range, built, stores, leaves⟩ := stores_new.appendLeafHashes hashes
  obtain rfl : rangeLeaves range = hashes := leaves
  refine ⟨mmr, built, fun i bound => ?_⟩
  have stored : i < mmr.leafPositions.length := stores.ranges.length_leaves ▸ bound
  obtain ⟨proof, hash, generated, leafHash, there, verified⟩ :=
    stores.proof_verifies (List.getElem?_eq_getElem stored)
  obtain ⟨_, rfl⟩ := List.getElem?_eq_some_iff.mp there
  exact ⟨proof, generated, leafHash, verified⟩

/-- Witness: the last of three leaves, alone under its peak. -/
theorem appended_leaves_provable_three
    : ∃ mmr, MerkleMountainRange.new.appendLeafHashes polynomialHash
          ([[1], [2], [3]].map (hashLeaf polynomialHash)) = some mmr
        ∧ ∃ proof, mmr.generateProof 2 = some (.ok proof)
          ∧ mmr.leafHash 2 = .ok (hashLeaf polynomialHash [3])
          ∧ proof.verify polynomialHash (mmr.root polynomialHash) (hashLeaf polynomialHash [3])
            = .ok () := by
  obtain ⟨mmr, built, provable⟩ :=
    appended_leaves_provable polynomialHash ([[1], [2], [3]].map (hashLeaf polynomialHash))
  exact ⟨mmr, built, provable 2 (by decide)⟩

end TrustLedger.Merkle
