import TrustLedger.Merkle.Mmr

/-! The node array represents a mountain range: each peak is the top of a perfect tree whose links,
hashes and leaf positions are all in the array. Appending a leaf is pushing a tree of one leaf, so a
range built by appends represents the list of its leaf hashes.
-/

namespace TrustLedger.Merkle

open Foundation MountainRange

/-- The parent link of the node at a position. -/
def parentAt (nodes : List MmrNode) (pos : Nat) : Option Nat :=
  nodes[pos]?.bind MmrNode.parent

/-- A later form of a node: at most a missing parent link has been set. -/
structure MmrNode.Kept (node later : MmrNode) : Prop where
  hash : later.hash = node.hash
  height : later.height = node.height
  leftChild : later.leftChild = node.leftChild
  rightChild : later.rightChild = node.rightChild
  parent : ∀ parentIdx, node.parent = some parentIdx → later.parent = some parentIdx

theorem MmrNode.Kept.refl (node : MmrNode) : node.Kept node :=
  ⟨rfl, rfl, rfl, rfl, fun _ set => set⟩

/-- Later node arrays keep every node in place. -/
def Extends (nodes later : List MmrNode) : Prop :=
  ∀ (pos : Nat) (node : MmrNode), nodes[pos]? = some node →
    ∃ node', later[pos]? = some node' ∧ node.Kept node'

theorem Extends.trans {first second third : List MmrNode} (early : Extends first second)
    (late : Extends second third)
    : Extends first third := by
  intro pos node found
  obtain ⟨node', found', kept'⟩ := early pos node found
  obtain ⟨node'', found'', kept''⟩ := late pos node' found'
  exact ⟨node'', found'', kept''.hash.trans kept'.hash, kept''.height.trans kept'.height,
    kept''.leftChild.trans kept'.leftChild, kept''.rightChild.trans kept'.rightChild,
    fun parentIdx set => kept''.parent parentIdx (kept'.parent parentIdx set)⟩

theorem extends_append (nodes more : List MmrNode) : Extends nodes (nodes ++ more) := by
  intro pos node found
  have bound := (List.getElem?_eq_some_iff.mp found).1
  exact ⟨node, by rw [List.getElem?_append_left bound, found], .refl node⟩

theorem getElem?_setParent (nodes : List MmrNode) (position parentIdx pos : Nat)
    : (setParent nodes position parentIdx)[pos]?
      = nodes[pos]?.map fun node =>
          if pos = position then { node with parent := some parentIdx } else node := by
  rw [setParent, List.getElem?_modify]
  rcases eq_or_ne position pos with rfl | differs
  · simp
  · simp [differs, differs.symm]

theorem length_setParent (nodes : List MmrNode) (position parentIdx : Nat)
    : (setParent nodes position parentIdx).length = nodes.length :=
  List.length_modify ..

variable {nodes : List MmrNode} {position parentIdx pos : Nat}

theorem extends_setParent (parentIdx : Nat) (free : parentAt nodes position = none)
    : Extends nodes (setParent nodes position parentIdx) := by
  intro pos node found
  rw [getElem?_setParent, found]
  rcases eq_or_ne pos position with rfl | differs
  · have unset : node.parent = none := by simpa [parentAt, found] using free
    exact ⟨_, rfl, by simp, by simp, by simp, by simp, by simp [unset]⟩
  · exact ⟨node, by simp [differs], .refl node⟩

theorem parentAt_setParent_of_ne (differs : pos ≠ position)
    : parentAt (setParent nodes position parentIdx) pos = parentAt nodes pos := by
  simp [parentAt, getElem?_setParent, differs]

theorem parentAt_setParent_self (bound : position < nodes.length)
    : parentAt (setParent nodes position parentIdx) position = some parentIdx := by
  simp [parentAt, getElem?_setParent, bound]

theorem parentAt_append_left {more : List MmrNode} (bound : pos < nodes.length)
    : parentAt (nodes ++ more) pos = parentAt nodes pos := by
  rw [parentAt, parentAt, List.getElem?_append_left bound]

section

variable (sha256 : Bytes → Hash32)

/-- The node at a position is the top of a tree, whose leaves are at the given positions. -/
inductive Represents (nodes : List MmrNode) : HashTree Hash32 → Nat → List Nat → Prop where
  | leaf {pos : Nat} {node : MmrNode} (found : nodes[pos]? = some node)
    (height : node.height = 0)
    : Represents nodes (.leaf node.hash) pos [pos]
  | node {left right : HashTree Hash32} {pos leftPos rightPos : Nat} {node : MmrNode}
    {leftLeaves rightLeaves : List Nat} (found : nodes[pos]? = some node)
    (hash : node.hash
      = combineNodes sha256 (left.root (combineNodes sha256)) (right.root (combineNodes sha256)))
    (height : node.height = left.height + 1)
    (leftChild : node.leftChild = some leftPos) (rightChild : node.rightChild = some rightPos)
    (leftBelow : leftPos < rightPos) (rightBelow : rightPos < pos)
    (leftTree : Represents nodes left leftPos leftLeaves)
    (rightTree : Represents nodes right rightPos rightLeaves)
    (leftParent : parentAt nodes leftPos = some pos)
    (rightParent : parentAt nodes rightPos = some pos)
    : Represents nodes (.node left right) pos (leftLeaves ++ rightLeaves)

/-- A tree whose top has no parent. -/
structure Stands (nodes : List MmrNode) (t : HashTree Hash32) (pos : Nat) (leaves : List Nat)
    : Prop where
  tree : Represents sha256 nodes t pos leaves
  free : parentAt nodes pos = none

/-- The peaks at `positions`, last first and all below `bound`, are the trees of a range. -/
inductive Ranges (nodes : List MmrNode)
    : Nat → List (HashTree Hash32) → List Nat → List Nat → Prop where
  | nil (bound : Nat) : Ranges nodes bound [] [] []
  | cons {bound pos : Nat} {t : HashTree Hash32} {range : List (HashTree Hash32)}
    {positions leaves earlier : List Nat} (below : pos < bound)
    (stands : Stands sha256 nodes t pos leaves) (rest : Ranges nodes pos range positions earlier)
    : Ranges nodes bound (t :: range) (pos :: positions) (earlier ++ leaves)

end

section Representation

variable {sha256 : Bytes → Hash32} {nodes later : List MmrNode} {t : HashTree Hash32} {pos : Nat}
  {leaves : List Nat} {bound : Nat} {range : List (HashTree Hash32)} {positions : List Nat}

theorem Represents.top (represents : Represents sha256 nodes t pos leaves)
    : ∃ node, nodes[pos]? = some node ∧ node.hash = t.root (combineNodes sha256)
      ∧ node.height = t.height := by
  cases represents with
  | leaf found height => exact ⟨_, found, rfl, height⟩
  | node found hash height => exact ⟨_, found, hash, height⟩

theorem Represents.lt_length (represents : Represents sha256 nodes t pos leaves)
    : pos < nodes.length := by
  obtain ⟨node, found, -⟩ := represents.top
  exact (List.getElem?_eq_some_iff.mp found).1

/-- Children come before their parent, so a tree is no higher than its top's position. -/
theorem Represents.height_le (represents : Represents sha256 nodes t pos leaves)
    : t.height ≤ pos := by
  induction represents with
  | leaf found height => exact Nat.zero_le _
  | node found hash height leftChild rightChild leftBelow rightBelow leftTree rightTree leftParent
      rightParent leftIh rightIh =>
      rw [HashTree.height]
      omega

theorem Represents.extend (represents : Represents sha256 nodes t pos leaves)
    (grows : Extends nodes later)
    : Represents sha256 later t pos leaves := by
  have kept {child parent : Nat} (linked : parentAt nodes child = some parent)
      : parentAt later child = some parent := by
    obtain ⟨node, found, set⟩ := Option.bind_eq_some_iff.mp linked
    obtain ⟨node', found', same⟩ := grows child node found
    exact Option.bind_eq_some_iff.mpr ⟨node', found', same.parent parent set⟩
  induction represents with
  | leaf found height =>
      obtain ⟨node', found', same⟩ := grows _ _ found
      exact same.hash ▸ .leaf found' (same.height.trans height)
  | node found hash height leftChild rightChild leftBelow rightBelow leftTree rightTree leftParent
      rightParent leftIh rightIh =>
      obtain ⟨node', found', same⟩ := grows _ _ found
      exact .node found' (same.hash.trans hash) (same.height.trans height)
        (same.leftChild.trans leftChild) (same.rightChild.trans rightChild) leftBelow rightBelow
        leftIh rightIh (kept leftParent) (kept rightParent)

variable (ranges : Ranges sha256 nodes bound range positions leaves)

include ranges

theorem Ranges.extend
    (grows : Extends nodes later) (same : ∀ pos < bound, parentAt later pos = parentAt nodes pos)
    : Ranges sha256 later bound range positions leaves := by
  induction ranges with
  | nil bound => exact .nil bound
  | cons below stands rest ih =>
      exact .cons below ⟨stands.tree.extend grows, (same _ below).trans stands.free⟩
        (ih fun pos lower => same pos (lower.trans below))

theorem Ranges.raise {higher : Nat} (room : bound ≤ higher)
    : Ranges sha256 nodes higher range positions leaves := by
  cases ranges with
  | nil => exact .nil higher
  | cons below stands rest => exact .cons (below.trans_le room) stands rest

theorem Ranges.peakHashes
    : positions.filterMap (fun idx => nodes[idx]?.map MmrNode.hash)
      = range.map (HashTree.root (combineNodes sha256)) := by
  induction ranges with
  | nil bound => rfl
  | cons below stands rest ih =>
      obtain ⟨node, found, hash, -⟩ := stands.tree.top
      simp [found, hash, ih]

end Representation

section Merging

/-- The node array after one merge of two trees under a new parent. -/
def merged (nodes : List MmrNode) (parent : MmrNode) (leftPos rightPos : Nat) : List MmrNode :=
  setParent (setParent (nodes ++ [parent]) leftPos nodes.length) rightPos nodes.length

variable {sha256 : Bytes → Hash32} {nodes : List MmrNode} {parent : MmrNode}
  {leftPos rightPos : Nat}

theorem extends_merged (leftFree : parentAt nodes leftPos = none)
    (rightFree : parentAt nodes rightPos = none) (order : leftPos < rightPos)
    (bound : rightPos < nodes.length)
    : Extends nodes (merged nodes parent leftPos rightPos) := by
  refine (extends_append nodes [parent]).trans ((extends_setParent _ ?_).trans
    (extends_setParent _ ?_))
  · rw [parentAt_append_left (order.trans bound), leftFree]
  · rw [parentAt_setParent_of_ne order.ne', parentAt_append_left bound, rightFree]

theorem parentAt_merged_of_lt {pos : Nat} (lower : pos < leftPos) (order : leftPos < rightPos)
    (bound : rightPos < nodes.length)
    : parentAt (merged nodes parent leftPos rightPos) pos = parentAt nodes pos := by
  rw [merged, parentAt_setParent_of_ne (lower.trans order).ne, parentAt_setParent_of_ne lower.ne,
    parentAt_append_left (by omega)]

theorem getElem?_merged_length (order : leftPos < rightPos) (bound : rightPos < nodes.length)
    : (merged nodes parent leftPos rightPos)[nodes.length]? = some parent := by
  simp [merged, getElem?_setParent, bound.ne', (order.trans bound).ne']

/-- A merge puts two standing trees under a new one. -/
theorem Stands.merge {left right : HashTree Hash32} {leftLeaves rightLeaves : List Nat}
    (leftStands : Stands sha256 nodes left leftPos leftLeaves)
    (rightStands : Stands sha256 nodes right rightPos rightLeaves) (order : leftPos < rightPos)
    (hash : parent.hash
      = combineNodes sha256 (left.root (combineNodes sha256)) (right.root (combineNodes sha256)))
    (height : parent.height = left.height + 1) (leftChild : parent.leftChild = some leftPos)
    (rightChild : parent.rightChild = some rightPos) (free : parent.parent = none)
    : Stands sha256 (merged nodes parent leftPos rightPos) (.node left right) nodes.length
        (leftLeaves ++ rightLeaves) := by
  have bound : rightPos < nodes.length := rightStands.tree.lt_length
  have grows : Extends nodes (merged nodes parent leftPos rightPos) :=
    extends_merged leftStands.free rightStands.free order bound
  have top : (merged nodes parent leftPos rightPos)[nodes.length]? = some parent :=
    getElem?_merged_length order bound
  have leftParent : parentAt (merged nodes parent leftPos rightPos) leftPos
      = some nodes.length := by
    rw [merged, parentAt_setParent_of_ne order.ne, parentAt_setParent_self (by simp; omega)]
  have rightParent : parentAt (merged nodes parent leftPos rightPos) rightPos = some nodes.length :=
    parentAt_setParent_self (by simp [length_setParent]; omega)
  refine ⟨.node top hash height leftChild rightChild order bound (leftStands.tree.extend grows)
    (rightStands.tree.extend grows) leftParent rightParent, ?_⟩
  simp [parentAt, top, free]

/-- The merge loop pushes the current tree on the range. The induction is on the trees that remain,
last first.
-/
theorem mergePeaks_ranges {t : HashTree Hash32} {currentPos : Nat} {leaves earlier : List Nat}
    {range : List (HashTree Hash32)} {positions : List Nat}
    (stands : Stands sha256 nodes t currentPos leaves)
    (ranges : Ranges sha256 nodes currentPos range positions earlier)
    : ∃ nodes' positions' top,
        mergePeaks sha256 nodes positions currentPos t.height = some (nodes', positions', top)
        ∧ Ranges sha256 nodes' nodes'.length (push t range) (top :: positions')
            (earlier ++ leaves) := by
  induction range generalizing nodes t currentPos leaves earlier positions with
  | nil =>
      cases ranges with
      | nil => exact ⟨nodes, [], currentPos, rfl, .cons stands.tree.lt_length stands (.nil _)⟩
  | cons lowest range ih =>
      cases ranges with
      | @cons _ lastPeakIdx _ _ positions lowestLeaves earlier below lowestStands rest =>
      obtain ⟨left, leftFound, leftHash, leftHeight⟩ := lowestStands.tree.top
      obtain ⟨right, rightFound, rightHash, -⟩ := stands.tree.top
      rw [push]
      split
      · -- equal heights: the two trees become one, and the loop goes on with it
        rename_i level
        let parent : MmrNode :=
          {
            hash := combineNodes sha256 left.hash right.hash
            height := t.height + 1
            leftChild := some lastPeakIdx
            rightChild := some currentPos
            parent := none
          }
        have bound : currentPos < nodes.length := stands.tree.lt_length
        have joined : Stands sha256 (merged nodes parent lastPeakIdx currentPos)
            (.node lowest t) nodes.length (lowestLeaves ++ leaves) :=
          lowestStands.merge stands below (by rw [← leftHash, ← rightHash])
            (by rw [level]) rfl rfl rfl
        have others : Ranges sha256 (merged nodes parent lastPeakIdx currentPos) nodes.length range
            positions earlier :=
          (rest.extend (extends_merged lowestStands.free stands.free below bound)
            fun pos lower => parentAt_merged_of_lt lower below bound).raise
            (below.trans bound).le
        obtain ⟨nodes', positions', top, run, pushed⟩ := ih joined others
        refine ⟨nodes', positions', top, ?_, by rwa [List.append_assoc]⟩
        rw [HashTree.height, level] at run
        simpa [mergePeaks, merged, parent, leftFound, rightFound, leftHeight, level] using run
      · -- the last peak is higher: the loop ends
        rename_i differs
        refine ⟨nodes, lastPeakIdx :: positions, currentPos, ?_,
          .cons stands.tree.lt_length stands (.cons below lowestStands rest)⟩
        simp [mergePeaks, leftFound, leftHeight, differs]

end Merging

section Building

variable {sha256 : Bytes → Hash32} {mmr : MerkleMountainRange} {range : List (HashTree Hash32)}

/-- A range of trees is stored in a mountain range's node array. -/
structure Stores (sha256 : Bytes → Hash32) (mmr : MerkleMountainRange)
    (range : List (HashTree Hash32)) : Prop where
  ranges : Ranges sha256 mmr.nodes mmr.nodes.length range mmr.peakPositions.reverse
    mmr.leafPositions
  stairs : Staircase 0 range

theorem stores_new : Stores sha256 MerkleMountainRange.new [] where
  ranges := .nil 0
  stairs := trivial

/-- Appending never indexes past the end, and pushes a leaf on the range. -/
theorem Stores.appendLeafHash (stores : Stores sha256 mmr range) (leafHash : Hash32)
    : ∃ mmr', mmr.appendLeafHash sha256 leafHash = some (mmr', mmr.leafPositions.length)
        ∧ Stores sha256 mmr' (push (.leaf leafHash) range) := by
  let leaf : MmrNode :=
    { hash := leafHash, height := 0, leftChild := none, rightChild := none, parent := none }
  have found : (mmr.nodes ++ [leaf])[mmr.nodes.length]? = some leaf := by simp
  have stands : Stands sha256 (mmr.nodes ++ [leaf]) (.leaf leafHash) mmr.nodes.length
      [mmr.nodes.length] :=
    ⟨.leaf found rfl, by simp [parentAt, leaf]⟩
  have others := stores.ranges.extend (extends_append mmr.nodes [leaf])
    fun pos lower => parentAt_append_left lower
  obtain ⟨nodes', positions', top, run, pushed⟩ := mergePeaks_ranges stands others
  refine ⟨⟨nodes', positions'.reverse ++ [top], mmr.leafPositions ++ [mmr.nodes.length]⟩, ?_,
    by simpa using pushed, stores.stairs.push (.leaf leafHash)⟩
  rw [HashTree.height] at run
  simp [MerkleMountainRange.appendLeafHash, leaf, run]

/-- A range built by appends stores its leaf hashes in order. -/
theorem Stores.appendLeafHashes (stores : Stores sha256 mmr range) (hashes : List Hash32)
    : ∃ mmr' range', mmr.appendLeafHashes sha256 hashes = some mmr' ∧ Stores sha256 mmr' range'
        ∧ rangeLeaves range' = rangeLeaves range ++ hashes := by
  induction hashes generalizing mmr range with
  | nil => exact ⟨mmr, range, rfl, stores, (List.append_nil _).symm⟩
  | cons hash rest ih =>
      obtain ⟨mmr', appended, stores'⟩ := stores.appendLeafHash hash
      obtain ⟨mmr'', range'', run, stores'', leaves⟩ := ih stores'
      refine ⟨mmr'', range'', ?_, stores'', ?_⟩
      · simpa [MerkleMountainRange.appendLeafHashes, appended] using run
      · rw [leaves, rangeLeaves_push, List.append_assoc]
        rfl

theorem Stores.peaks (stores : Stores sha256 mmr range)
    : mmr.peaks = range.reverse.map (HashTree.root (combineNodes sha256)) := by
  rw [MerkleMountainRange.peaks, List.map_reverse, ← stores.ranges.peakHashes,
    ← List.filterMap_reverse, List.reverse_reverse]

end Building

end TrustLedger.Merkle
