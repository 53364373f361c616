import TrustLedger.Merkle.Forest
import TrustLedger.Merkle.Proof

/-! What a root commits to. A proof of any shape that verifies against the root of a list proves an
item of the list, and the root determines the list: both where the hash function has no collision,
and no zero, among the strings that are hashed.
-/

namespace TrustLedger.Merkle

open Foundation MountainRange

/-- The strings hashed into the internal nodes of a range. -/
def MerkleMountainRange.nodeStrings (mmr : MerkleMountainRange) : List Bytes :=
  mmr.nodes.filterMap fun node => do
    let left ← mmr.nodes[← node.leftChild]?
    let right ← mmr.nodes[← node.rightChild]?
    some (nodeString left.hash right.hash)

section

variable (sha256 : Bytes → Hash32)

/-- The strings hashed to commit items to the root of a range. -/
def committedStrings (items : List Bytes) (mmr : MerkleMountainRange) : List Bytes :=
  items.map leafString ++ mmr.nodeStrings ++ bagStrings sha256 mmr.peaks

/-- The strings hashed to recompute a peak from a leaf hash. -/
def MmrProof.pathStrings (proof : MmrProof) (leafHash : Hash32) : List Bytes :=
  match proof.mountain with
  | none => []
  | some target =>
      (HashTree.climbPairs (combineNodes sha256) (proof.leafIndex - target.offset) 0 leafHash
        proof.siblings).map fun pair => nodeString pair.1 pair.2

/-- The strings hashed to verify a data item. -/
def MmrProof.verifiedStrings (proof : MmrProof) (data : Bytes) : List Bytes :=
  leafString data :: (proof.pathStrings sha256 (hashLeaf sha256 data)
    ++ bagStrings sha256 proof.peaks)

end

section Strings

variable {sha256 : Bytes → Hash32} {strings : Set Bytes} {nodes : List MmrNode}
  {mmr : MerkleMountainRange} {t : HashTree Hash32} {pos : Nat} {leaves : List Nat}

/-- The pairs of a stored tree were hashed into its nodes. -/
theorem Represents.pairs_hashed (represents : Represents sha256 mmr.nodes t pos leaves)
    : ∀ pair ∈ t.pairs (combineNodes sha256), nodeString pair.1 pair.2 ∈ mmr.nodeStrings := by
  induction represents with
  | leaf found height => intro pair mem; cases mem
  | node found hash height leftChild rightChild leftBelow rightBelow leftTree rightTree leftParent
      rightParent leftIh rightIh =>
      intro pair mem
      rw [HashTree.pairs, List.mem_cons, List.mem_append] at mem
      rcases mem with rfl | inLeft | inRight
      · obtain ⟨left, leftFound, leftHash, -⟩ := leftTree.top
        obtain ⟨right, rightFound, rightHash, -⟩ := rightTree.top
        refine List.mem_filterMap.mpr ⟨_, List.mem_of_getElem? found, ?_⟩
        simp [leftChild, rightChild, leftFound, rightFound, leftHash, rightHash]
      · exact leftIh pair inLeft
      · exact rightIh pair inRight

theorem Ranges.pairs_hashed {bound : Nat} {range : List (HashTree Hash32)} {positions : List Nat}
    (ranges : Ranges sha256 mmr.nodes bound range positions leaves) {t : HashTree Hash32}
    (mem : t ∈ range)
    : ∀ pair ∈ t.pairs (combineNodes sha256), nodeString pair.1 pair.2 ∈ mmr.nodeStrings := by
  induction ranges with
  | nil bound => cases mem
  | cons below stands rest ih =>
      rcases List.mem_cons.mp mem with rfl | mem
      · exact stands.tree.pairs_hashed
      · exact ih mem

/-- What a climb arrives at is its leaf or a pair it hashed. -/
theorem climb_mem_treeHashes {index : Nat} {leafHash : Hash32} {siblings : List Hash32}
    (leaf : leafHash ∈ leafHashes sha256 strings)
    (climbed : ∀ pair ∈ HashTree.climbPairs (combineNodes sha256) index 0 leafHash siblings,
      pair ∈ nodePairs strings)
    : HashTree.climb (combineNodes sha256) index 0 leafHash siblings
        ∈ treeHashes sha256 strings := by
  rcases List.eq_nil_or_concat siblings with rfl | ⟨initial, last, rfl⟩
  · exact .inl leaf
  · rw [List.concat_eq_append] at climbed ⊢
    rw [HashTree.climbPairs_append] at climbed
    rw [HashTree.climb_append]
    exact .inr ⟨_, climbed _ (List.mem_append_right _ (List.mem_singleton_self _)), rfl⟩

theorem root_mem_treeHashes
    (within : HashTree.Within (combineNodes sha256) (leafHashes sha256 strings)
      (nodePairs strings) t)
    : t.root (combineNodes sha256) ∈ treeHashes sha256 strings := by
  cases t with
  | leaf value => exact .inl within.leaf_mem
  | node left right => exact .inr ⟨_, within.top, rfl⟩

theorem bagPairs_hashed {peaks : List Hash32} (hashed : ∀ s ∈ bagStrings sha256 peaks, s ∈ strings)
    : ∀ pair ∈ bagPairs (combinePeaks sha256) Hash32.zero peaks, pair ∈ peakPairs strings :=
  fun _ mem => hashed _ (List.mem_map_of_mem mem)

end Strings

section Commitment

/-- Items are committed: stored as a range whose strings are among those hashed. -/
structure Commits (sha256 : Bytes → Hash32) (strings : Set Bytes) (items : List Bytes)
    (mmr : MerkleMountainRange) (range : List (HashTree Hash32)) : Prop where
  stores : Stores sha256 mmr range
  leaves : rangeLeaves range = items.map (hashLeaf sha256)
  hashed : ∀ s ∈ committedStrings sha256 items mmr, s ∈ strings

variable {sha256 : Bytes → Hash32} {strings : Set Bytes} {items : List Bytes}
  {mmr : MerkleMountainRange} {range : List (HashTree Hash32)}

theorem commits_of_built (built : MerkleMountainRange.new.appendLeaves sha256 items = some mmr)
    (hashed : ∀ s ∈ committedStrings sha256 items mmr, s ∈ strings)
    : ∃ range, Commits sha256 strings items mmr range := by
  rw [MerkleMountainRange.appendLeaves_eq] at built
  obtain ⟨mmr', range, built', stores, leaves⟩ :=
    stores_new.appendLeafHashes (items.map (hashLeaf sha256))
  obtain rfl : mmr' = mmr := Option.some.inj (built'.symm.trans built)
  exact ⟨range, stores, leaves, hashed⟩

section Committed

variable (commits : Commits sha256 strings items mmr range)

include commits

theorem Commits.leafString_mem {data : Bytes} (mem : data ∈ items) : leafString data ∈ strings :=
  commits.hashed _
    (List.mem_append_left _ (List.mem_append_left _ (List.mem_map_of_mem mem)))

theorem Commits.within {t : HashTree Hash32} (mem : t ∈ range)
    : HashTree.Within (combineNodes sha256) (leafHashes sha256 strings) (nodePairs strings) t where
  leaves_mem hash inTree := by
    have inRange : hash ∈ rangeLeaves range :=
      List.mem_flatMap.mpr ⟨t, List.mem_reverse.mpr mem, inTree⟩
    rw [commits.leaves] at inRange
    obtain ⟨data, there, rfl⟩ := List.mem_map.mp inRange
    exact ⟨data, commits.leafString_mem there, rfl⟩
  pairs_mem pair inTree :=
    commits.hashed _
      (by simp [committedStrings, commits.stores.ranges.pairs_hashed mem pair inTree])

theorem Commits.bagPairs_mem
    : ∀ pair ∈ bagPairs (combinePeaks sha256) Hash32.zero mmr.peaks, pair ∈ peakPairs strings :=
  bagPairs_hashed fun s mem => commits.hashed s (by simp [committedStrings, mem])

theorem Commits.peaks_mem : ∀ peak ∈ mmr.peaks, peak ∈ treeHashes sha256 strings := by
  intro peak mem
  rw [commits.stores.peaks] at mem
  obtain ⟨t, there, rfl⟩ := List.mem_map.mp mem
  exact root_mem_treeHashes (commits.within (List.mem_reverse.mp there))

/-- Only committed items have the leaf hash of a stored leaf. -/
theorem Commits.mem_of_hash_mem (free : CollisionFree sha256 strings) {data : Bytes}
    (hashed : leafString data ∈ strings) (mem : hashLeaf sha256 data ∈ rangeLeaves range)
    : data ∈ items := by
  rw [commits.leaves] at mem
  obtain ⟨item, there, same⟩ := List.mem_map.mp mem
  rw [← leafString_inj (free.inj (commits.leafString_mem there) hashed same)]
  exact there

end Committed

section Verified

variable {proof : MmrProof} {data : Bytes} {root : Hash32} {target : Mountain}

/-- The pairs climbed by an accepted proof were hashed. -/
theorem MmrProof.Accepted.climbed
    (accepted : MmrProof.Accepted sha256 proof root (hashLeaf sha256 data) target)
    (hashed : ∀ s ∈ proof.verifiedStrings sha256 data, s ∈ strings)
    : ∀ pair ∈ HashTree.climbPairs (combineNodes sha256) (proof.leafIndex - target.offset) 0
        (hashLeaf sha256 data) proof.siblings, pair ∈ nodePairs strings := by
  intro pair mem
  refine hashed _ (List.mem_cons_of_mem _ (List.mem_append_left _ ?_))
  rw [MmrProof.pathStrings, accepted.located]
  exact List.mem_map_of_mem mem

/-- An accepted proof, of any shape, is about a committed item. -/
theorem Commits.mem_of_accepted (commits : Commits sha256 strings items mmr range)
    (free : CollisionFree sha256 strings)
    (hashed : ∀ s ∈ proof.verifiedStrings sha256 data, s ∈ strings)
    (accepted : MmrProof.Accepted sha256 proof (mmr.root sha256) (hashLeaf sha256 data) target)
    : data ∈ items := by
  have leafHashed : leafString data ∈ strings := hashed _ List.mem_cons_self
  have bagHashed : ∀ s ∈ bagStrings sha256 proof.peaks, s ∈ strings := fun s mem =>
    hashed s (List.mem_cons_of_mem _ (List.mem_append_right _ mem))
  have sameBag : bag (combinePeaks sha256) Hash32.zero proof.peaks
      = bag (combinePeaks sha256) Hash32.zero mmr.peaks := by
    rw [← bagPeaks_eq_bag, ← bagPeaks_eq_bag]
    exact accepted.root
  -- the recomputed peak is the hash of a tree, so it is a genuine peak
  have genuine := free.bagSeparated.mem_of_bag_eq (bagPairs_hashed bagHashed) commits.bagPairs_mem
    commits.peaks_mem (climb_mem_treeHashes ⟨data, leafHashed, rfl⟩ (accepted.climbed hashed))
    (List.mem_of_getElem? accepted.peak) sameBag
  rw [commits.stores.peaks] at genuine
  obtain ⟨t, there, top⟩ := List.mem_map.mp genuine
  -- and what climbs to the top of a genuine tree is one of its leaves
  have leaf := free.treeSeparated.climb_sound (commits.within (List.mem_reverse.mp there))
    ⟨data, leafHashed, rfl⟩ (accepted.climbed hashed) top.symm
  exact commits.mem_of_hash_mem free leafHashed (List.mem_flatMap.mpr ⟨t, there, leaf⟩)

end Verified

/-- Lists that agree after a function injective on their members agree. -/
theorem eq_of_map_eq {α β : Type} {f : α → β} {xs ys : List α}
    (inj : ∀ x ∈ xs, ∀ y ∈ ys, f x = f y → x = y) (same : xs.map f = ys.map f)
    : xs = ys := by
  induction xs generalizing ys with
  | nil => exact (List.map_eq_nil_iff.mp same.symm).symm
  | cons x xs ih =>
      cases ys with
      | nil => cases same
      | cons y ys =>
          obtain ⟨first, rest⟩ := List.cons.inj same
          rw [inj x List.mem_cons_self y List.mem_cons_self first,
            ih (fun x xMem y yMem => inj x (List.mem_cons_of_mem _ xMem) y
              (List.mem_cons_of_mem _ yMem)) rest]

end Commitment

/-- A proof of any shape that verifies a data item against the root of a list of items proves one
of them.
-/
theorem verified_item_committed (sha256 : Bytes → Hash32) (items : List Bytes)
    (mmr : MerkleMountainRange) (data : Bytes) (proof : MmrProof)
    (built : MerkleMountainRange.new.appendLeaves sha256 items = some mmr)
    (free : CollisionFree sha256
      { string | string ∈ committedStrings sha256 items mmr ++ proof.verifiedStrings sha256 data })
    (verified : proof.verify sha256 (mmr.root sha256) (hashLeaf sha256 data) = .ok ())
    : data ∈ items := by
  obtain ⟨range, commits⟩ := commits_of_built built fun s mem => List.mem_append_left _ mem
  obtain ⟨target, accepted⟩ := MmrProof.verify_eq_ok.mp verified
  exact commits.mem_of_accepted free (fun s mem => List.mem_append_right _ mem) accepted

/-- Three items, to commit. -/
def threeItems : List Bytes :=
  [[1], [2], [3]]

/-- The range of three items under the polynomial hash. -/
def threeCommitted : MerkleMountainRange :=
  (MerkleMountainRange.new.appendLeaves polynomialHash threeItems).getD .new

/-- The proof of the first of three items. -/
def firstOfThree : MmrProof :=
  {
    leafIndex := 0
    leafCount := 3
    siblings := [hashLeaf polynomialHash [2]]
    peaks := threeCommitted.peaks
  }

/-- Witness: the first of three items. -/
theorem verified_item_committed_first
    : firstOfThree.verify polynomialHash (threeCommitted.root polynomialHash)
        (hashLeaf polynomialHash [1]) = .ok ()
      ∧ [1] ∈ threeItems :=
  ⟨by decide +kernel,
    verified_item_committed polynomialHash threeItems threeCommitted [1] firstOfThree
      (by decide +kernel) (by decide +kernel) (by decide +kernel)⟩

/-- Ranges built from data items have equal roots only if the lists of items are equal. -/
theorem root_determines_items (sha256 : Bytes → Hash32) (items items' : List Bytes)
    (mmr mmr' : MerkleMountainRange)
    (built : MerkleMountainRange.new.appendLeaves sha256 items = some mmr)
    (built' : MerkleMountainRange.new.appendLeaves sha256 items' = some mmr')
    (free : CollisionFree sha256
      { string | string
          ∈ committedStrings sha256 items mmr ++ committedStrings sha256 items' mmr' })
    (same : mmr.root sha256 = mmr'.root sha256)
    : items = items' := by
  obtain ⟨range, commits⟩ := commits_of_built built fun s mem => List.mem_append_left _ mem
  obtain ⟨range', commits'⟩ := commits_of_built built' fun s mem => List.mem_append_right _ mem
  have samePeaks : mmr.peaks = mmr'.peaks := by
    refine free.bagSeparated.bag_inj commits.bagPairs_mem commits'.bagPairs_mem commits.peaks_mem
      commits'.peaks_mem ?_
    rw [← bagPeaks_eq_bag, ← bagPeaks_eq_bag]
    exact same
  have sameTrees : range.reverse = range'.reverse := by
    rw [commits.stores.peaks, commits'.stores.peaks] at samePeaks
    refine eq_of_map_eq (fun t mem t' mem' => ?_) samePeaks
    exact free.treeSeparated.root_inj (commits.within (List.mem_reverse.mp mem))
      (commits'.within (List.mem_reverse.mp mem'))
  have sameLeaves : items.map (hashLeaf sha256) = items'.map (hashLeaf sha256) := by
    rw [← commits.leaves, ← commits'.leaves, rangeLeaves, rangeLeaves, sameTrees]
  refine eq_of_map_eq (fun data mem data' mem' hashes => ?_) sameLeaves
  exact leafString_inj
    (free.inj (commits.leafString_mem mem) (commits'.leafString_mem mem') hashes)

/-- Witness: appending the last of three items to the range of the first two gives their root. -/
theorem root_determines_items_three : ([[1], [2]] ++ [[3]] : List Bytes) = threeItems :=
  root_determines_items polynomialHash ([[1], [2]] ++ [[3]]) threeItems threeCommitted
    threeCommitted (by decide +kernel) (by decide +kernel) (by decide +kernel) rfl

end TrustLedger.Merkle
