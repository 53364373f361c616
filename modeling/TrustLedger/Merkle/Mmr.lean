import TrustLedger.Merkle.Hash

/-! The node array of a Merkle mountain range: appending a leaf, with the merge loop over the peaks,
and walking the parent links to collect an inclusion proof.

Positions, heights and counts are natural numbers. Indexing past the end of the node array, which
stops the program, is `none` of the outer option, and so is a walk along parent links that returns
to a node it has left, which never ends.
-/

namespace TrustLedger.Merkle

open Foundation

/-- Errors of proof generation. -/
inductive MmrError where
  | leafIndexOutOfBounds (index count : Nat)
  | nodeIndexOutOfBounds (position : Nat)
  | corruptedTree (text : String)
  deriving DecidableEq

/-- An entry of the node array. -/
structure MmrNode where
  hash : Hash32
  height : Nat
  leftChild : Option Nat
  rightChild : Option Nat
  parent : Option Nat
  deriving DecidableEq

/-- An append-only Merkle mountain range. -/
structure MerkleMountainRange where
  /-- All nodes, leaves and parents, in the order they were made. -/
  nodes : List MmrNode
  /-- Positions of the peaks, tallest first. -/
  peakPositions : List Nat
  /-- The position of each leaf's node. -/
  leafPositions : List Nat
  deriving DecidableEq

/-- Inclusion proof of one leaf. -/
structure MmrProof where
  leafIndex : Nat
  leafCount : Nat
  /-- Sibling hashes from the leaf up to its peak. -/
  siblings : List Hash32
  /-- All peaks, tallest first. -/
  peaks : List Hash32
  deriving DecidableEq

/-- Set the parent link of a node. -/
def setParent (nodes : List MmrNode) (position parentIdx : Nat) : List MmrNode :=
  nodes.modify position fun node => { node with parent := some parentIdx }

/-- The sibling that a child's parent names, read from the node array. -/
def siblingHash (nodes : List MmrNode) (sibIdx : Option Nat) (missing : String)
    : Except MmrError Hash32 :=
  match sibIdx with
  | none => .error (.corruptedTree missing)
  | some sibIdx =>
      match nodes[sibIdx]? with
      | none => .error (.corruptedTree s!"missing sibling node at index {sibIdx}")
      | some sibling => .ok sibling.hash

/-- One level of the walk: the sibling of `curr` under its parent. -/
def climbOnce (nodes : List MmrNode) (curr parentIdx : Nat) : Except MmrError Hash32 :=
  match nodes[parentIdx]? with
  | none => .error (.corruptedTree s!"missing parent node at index {parentIdx}")
  | some parent =>
      if parent.leftChild = some curr then
        siblingHash nodes parent.rightChild
          s!"node {parentIdx} missing right child for left child {curr}"
      else if parent.rightChild = some curr then
        siblingHash nodes parent.leftChild
          s!"node {parentIdx} missing left child for right child {curr}"
      else
        .error (.corruptedTree
          s!"node {curr} points to parent {parentIdx} which does not reference it")

/-- Follow the parent links from `curr`, collecting siblings, for at most `fuel` nodes. -/
def walkUp (nodes : List MmrNode)
    : (fuel curr : Nat) → List Hash32 → Option (Except MmrError (List Hash32))
  | 0, _, _ => none
  | fuel + 1, curr, siblings =>
      match nodes[curr]?.bind MmrNode.parent with
      | none => some (.ok siblings)
      | some parentIdx =>
          match climbOnce nodes curr parentIdx with
          | .error error => some (.error error)
          | .ok hash => walkUp nodes fuel parentIdx (siblings ++ [hash])

section

variable (sha256 : Bytes → Hash32)

/-- Merge peaks of matching height, last peak first, starting from the node at `currentPos`. Returns
the nodes, the peaks that remain and the position of the last node made.
-/
def mergePeaks : List MmrNode → (peaks : List Nat) → (currentPos currentHeight : Nat)
    → Option (List MmrNode × List Nat × Nat)
  | nodes, [], currentPos, _ => some (nodes, [], currentPos)
  | nodes, lastPeakIdx :: peaks, currentPos, currentHeight => do
      let left ← nodes[lastPeakIdx]?
      if left.height = currentHeight then
        let right ← nodes[currentPos]?
        let parentIdx := nodes.length
        let parent : MmrNode :=
          {
            hash := combineNodes sha256 left.hash right.hash
            height := currentHeight + 1
            leftChild := some lastPeakIdx
            rightChild := some currentPos
            parent := none
          }
        mergePeaks
          (setParent (setParent (nodes ++ [parent]) lastPeakIdx parentIdx) currentPos parentIdx)
          peaks parentIdx (currentHeight + 1)
      else
        some (nodes, lastPeakIdx :: peaks, currentPos)

namespace MerkleMountainRange

def new : MerkleMountainRange :=
  { nodes := [], peakPositions := [], leafPositions := [] }

def leafCount (mmr : MerkleMountainRange) : Nat :=
  mmr.leafPositions.length

def nodeCount (mmr : MerkleMountainRange) : Nat :=
  mmr.nodes.length

/-- The hashes of the peaks, tallest first. -/
def peaks (mmr : MerkleMountainRange) : List Hash32 :=
  mmr.peakPositions.filterMap fun idx => mmr.nodes[idx]?.map MmrNode.hash

def root (mmr : MerkleMountainRange) : Hash32 :=
  bagPeaks sha256 mmr.peaks

/-- Append a leaf hash; returns the range and the new leaf's index. -/
def appendLeafHash (mmr : MerkleMountainRange) (leafHash : Hash32)
    : Option (MerkleMountainRange × Nat) := do
  let leafNodeIdx := mmr.nodes.length
  let leafPositions := mmr.leafPositions ++ [leafNodeIdx]
  let leaf : MmrNode :=
    { hash := leafHash, height := 0, leftChild := none, rightChild := none, parent := none }
  let (nodes, peaks, currentPos) ←
    mergePeaks sha256 (mmr.nodes ++ [leaf]) mmr.peakPositions.reverse leafNodeIdx 0
  some ({ nodes, peakPositions := peaks.reverse ++ [currentPos], leafPositions },
    leafPositions.length - 1)

/-- Hash data as a leaf and append it. -/
def appendLeaf (mmr : MerkleMountainRange) (data : Bytes) : Option (MerkleMountainRange × Nat) :=
  mmr.appendLeafHash sha256 (hashLeaf sha256 data)

/-- The range after appending leaf hashes in order. -/
def appendLeafHashes (mmr : MerkleMountainRange) (hashes : List Hash32)
    : Option MerkleMountainRange :=
  hashes.foldlM (fun mmr hash => (mmr.appendLeafHash sha256 hash).map Prod.fst) mmr

/-- The range after appending data items in order. -/
def appendLeaves (mmr : MerkleMountainRange) (items : List Bytes) : Option MerkleMountainRange :=
  items.foldlM (fun mmr data => (mmr.appendLeaf sha256 data).map Prod.fst) mmr

theorem appendLeaves_eq (mmr : MerkleMountainRange) (items : List Bytes)
    : mmr.appendLeaves sha256 items
      = mmr.appendLeafHashes sha256 (items.map (hashLeaf sha256)) := by
  rw [appendLeaves, appendLeafHashes, List.foldlM_map]
  rfl

end MerkleMountainRange

end

namespace MerkleMountainRange

/-- The leaf hash at an index. -/
def leafHash (mmr : MerkleMountainRange) (leafIndex : Nat) : Except MmrError Hash32 :=
  match mmr.leafPositions[leafIndex]? with
  | none => .error (.leafIndexOutOfBounds leafIndex mmr.leafPositions.length)
  | some nodePos =>
      match mmr.nodes[nodePos]? with
      | none => .error (.nodeIndexOutOfBounds nodePos)
      | some node => .ok node.hash

/-- Inclusion proof of the leaf at an index. A walk longer than the node array visits a node twice.
-/
def generateProof (mmr : MerkleMountainRange) (leafIndex : Nat)
    : Option (Except MmrError MmrProof) :=
  match mmr.leafPositions[leafIndex]? with
  | none => some (.error (.leafIndexOutOfBounds leafIndex mmr.leafPositions.length))
  | some nodePos =>
      (walkUp mmr.nodes (mmr.nodes.length + 1) nodePos []).map fun walked =>
        walked.map fun siblings =>
          { leafIndex, leafCount := mmr.leafPositions.length, siblings, peaks := mmr.peaks }

end MerkleMountainRange

end TrustLedger.Merkle
