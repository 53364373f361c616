import TrustLedger.Foundation.Walk
import TrustLedger.Merkle.Forest
import TrustLedger.Merkle.ProofCodec

/-! A mountain range read back from bytes. The decoder checks none of the links it reads, so two
things can go wrong with what it returns: a walk along parent links may never end, and the merge
loop of an append may be sent past the end of the node array.
-/

namespace TrustLedger.Merkle

open Foundation

section Codec

/-- The fields of a node, whose numbers are machine words. -/
def MmrNode.codec : Codec (Hash32 × U32 × Option U64 × Option U64 × Option U64) :=
  Hash32.codec.pair <| Codec.u32.pair <| Codec.u64.option.pair <|
    Codec.u64.option.pair Codec.u64.option

def MmrNode.ofFields : Hash32 × U32 × Option U64 × Option U64 × Option U64 → MmrNode
  | (hash, height, leftChild, rightChild, parent) =>
      {
        hash
        height := height.val
        leftChild := leftChild.map Fin.val
        rightChild := rightChild.map Fin.val
        parent := parent.map Fin.val
      }

/-- The fields of a range: its nodes, peaks and leaf positions. -/
def MerkleMountainRange.codec :=
  MmrNode.codec.list.pair (Codec.u64.list.pair Codec.u64.list)

/-- Read a range; bytes behind it are ignored. -/
def MerkleMountainRange.fromBytes (bytes : Bytes) : Option MerkleMountainRange :=
  (codec.decode bytes).map fun ((nodes, peaks, leafPositions), _) =>
    {
      nodes := nodes.1.map MmrNode.ofFields
      peakPositions := peaks.1.map Fin.val
      leafPositions := leafPositions.1.map Fin.val
    }

end Codec

/-- Every height is a 32-bit integer. -/
def MerkleMountainRange.Fits (mmr : MerkleMountainRange) : Prop :=
  ∀ node ∈ mmr.nodes, node.height < 2 ^ 32

instance MerkleMountainRange.decidableFits (mmr : MerkleMountainRange) : Decidable mmr.Fits :=
  inferInstanceAs (Decidable (∀ node ∈ mmr.nodes, node.height < 2 ^ 32))

theorem MerkleMountainRange.fits_of_fromBytes {bytes : Bytes} {mmr : MerkleMountainRange}
    (decoded : fromBytes bytes = some mmr)
    : mmr.Fits := by
  obtain ⟨⟨⟨nodes, peaks, leafPositions⟩, rest⟩, -, rfl⟩ := Option.map_eq_some_iff.mp decoded
  intro node mem
  obtain ⟨⟨hash, height, links⟩, -, rfl⟩ := List.mem_map.mp mem
  exact height.isLt

/-- Append a leaf hash with overflow checks: if the merges lead to a height that is no 32-bit
integer, the program stops.
-/
def MerkleMountainRange.appendLeafHashChecked (sha256 : Bytes → Hash32) (mmr : MerkleMountainRange)
    (leafHash : Hash32)
    : Option (MerkleMountainRange × Nat) := do
  let (mmr', index) ← mmr.appendLeafHash sha256 leafHash
  if mmr'.Fits then some (mmr', index) else none

section Walking

variable {nodes : List MmrNode} {siblings : List Hash32}

/-- Where the walk goes on to from a position. -/
def climbsTo (nodes : List MmrNode) (pos : Nat) : Option Nat :=
  (parentAt nodes pos).filter fun parentIdx => (climbOnce nodes pos parentIdx).isOk

theorem walkUp_isSome_iff (fuel curr : Nat)
    : (walkUp nodes fuel curr siblings).isSome ↔ Walk.EndsWithin (climbsTo nodes) fuel curr := by
  induction fuel generalizing curr siblings with
  | zero => simp [walkUp, Walk.EndsWithin]
  | succ fuel ih =>
      rw [walkUp, Walk.EndsWithin, climbsTo, parentAt]
      cases parent : nodes[curr]?.bind MmrNode.parent with
      | none => simp
      | some parentIdx =>
          cases climbed : climbOnce nodes curr parentIdx with
          | error error => simp [climbed, Except.isOk, Except.toBool]
          | ok hash => simp [climbed, Except.isOk, Except.toBool, ih]

theorem lt_length_of_climbsTo {pos parentIdx : Nat} (climbs : climbsTo nodes pos = some parentIdx)
    : pos ∈ Finset.range nodes.length := by
  obtain ⟨linked, -⟩ := Option.filter_eq_some_iff.mp climbs
  obtain ⟨node, found, -⟩ := Option.bind_eq_some_iff.mp linked
  exact Finset.mem_range.mpr (List.getElem?_eq_some_iff.mp found).1

end Walking

/-- The parent links above a leaf never lead back to a node they have left. -/
def MerkleMountainRange.LinksEnd (mmr : MerkleMountainRange) : Prop :=
  ∀ leafPos ∈ mmr.leafPositions, ¬ Walk.MeetsCycle (climbsTo mmr.nodes) leafPos

section Proving

variable {mmr : MerkleMountainRange} {leafIndex nodePos : Nat}

theorem MerkleMountainRange.exists_generateProof_iff
    (position : mmr.leafPositions[leafIndex]? = some nodePos)
    : (∃ outcome, mmr.generateProof leafIndex = some outcome)
      ↔ ¬ Walk.MeetsCycle (climbsTo mmr.nodes) nodePos := by
  have ends
      : Walk.EndsWithin (climbsTo mmr.nodes) ((Finset.range mmr.nodes.length).card + 1) nodePos
      ↔ ¬ Walk.MeetsCycle (climbsTo mmr.nodes) nodePos :=
    Walk.endsWithin_iff fun _ _ => lt_length_of_climbsTo
  rw [Finset.card_range] at ends
  rw [← ends, ← @walkUp_isSome_iff _ [], generateProof, position]
  simp [Option.isSome_iff_exists]

/-- What the model calls a walk without an end has none, however long it is given. -/
theorem MerkleMountainRange.generateProof_eq_none_iff
    : mmr.generateProof leafIndex = none
      ↔ ∃ nodePos, mmr.leafPositions[leafIndex]? = some nodePos
          ∧ ∀ fuel, walkUp mmr.nodes fuel nodePos [] = none := by
  constructor
  · intro endless
    cases position : mmr.leafPositions[leafIndex]? with
    | none => simp [generateProof, position] at endless
    | some nodePos =>
        refine ⟨nodePos, rfl, fun fuel => ?_⟩
        have meets : Walk.MeetsCycle (climbsTo mmr.nodes) nodePos := by
          by_contra free
          obtain ⟨outcome, generated⟩ := (exists_generateProof_iff position).mpr free
          rw [endless] at generated
          cases generated
        have goes := meets.not_endsWithin fuel
        rwa [← @walkUp_isSome_iff _ [], Option.not_isSome_iff_eq_none] at goes
  · intro ⟨nodePos, position, endless⟩
    simp [generateProof, position, endless]

/-- Every leaf index is answered exactly if no links above a leaf run in a circle. -/
theorem MerkleMountainRange.generateProof_total_iff
    : (∀ leafIndex, ∃ outcome, mmr.generateProof leafIndex = some outcome) ↔ mmr.LinksEnd := by
  constructor
  · intro answered leafPos mem
    obtain ⟨leafIndex, position⟩ := List.mem_iff_getElem?.mp mem
    exact (exists_generateProof_iff position).mp (answered leafIndex)
  · intro ends leafIndex
    cases position : mmr.leafPositions[leafIndex]? with
    | none => simp [generateProof, position]
    | some nodePos =>
        exact (exists_generateProof_iff position).mpr (ends nodePos (List.mem_of_getElem? position))

end Proving

section Merging

/-- The merge loop seen from the heights of the nodes. -/
def mergeHeights : (heights peaks : List Nat) → (currentHeight : Nat) → Option (List Nat)
  | heights, [], _ => some heights
  | heights, lastPeakIdx :: peaks, currentHeight => do
      let left ← heights[lastPeakIdx]?
      if left = currentHeight then
        mergeHeights (heights ++ [currentHeight + 1]) peaks (currentHeight + 1)
      else
        some heights

theorem map_height_setParent (nodes : List MmrNode) (position parentIdx : Nat)
    : (setParent nodes position parentIdx).map MmrNode.height = nodes.map MmrNode.height := by
  refine List.ext_getElem? fun pos => ?_
  rw [List.getElem?_map, List.getElem?_map, getElem?_setParent, Option.map_map]
  congr 1
  funext node
  dsimp only [Function.comp]
  split
  · rfl
  · rfl

theorem mergePeaks_heights {sha256 : Bytes → Hash32} {nodes : List MmrNode} {peaks : List Nat}
    {currentPos currentHeight : Nat} (stored : currentPos < nodes.length)
    : (mergePeaks sha256 nodes peaks currentPos currentHeight).map
          (fun made => made.1.map MmrNode.height)
      = mergeHeights (nodes.map MmrNode.height) peaks currentHeight := by
  induction peaks generalizing nodes currentPos currentHeight with
  | nil => rfl
  | cons lastPeakIdx peaks ih =>
      rw [mergePeaks, mergeHeights, List.getElem?_map]
      cases nodes[lastPeakIdx]? with
      | none => rfl
      | some left =>
          simp only [Option.bind_eq_bind, Option.bind_some, Option.map_some]
          split
          · rw [List.getElem?_eq_getElem stored, Option.bind_some, ih]
            · simp only [map_height_setParent, List.map_append, List.map_cons, List.map_nil]
            · simp only [length_setParent, List.length_append, List.length_singleton]
              omega
          · rfl

/-- The height found at a position when a merge has made nodes of the heights up to `k` behind the
stored ones.
-/
def heightAt (heights : List Nat) (k pos : Nat) : Option Nat :=
  (heights ++ List.range (k + 1))[pos]?

/-- Every peak that the merge comes to, last peak first, is stored by then; and if it has the height
reached, the next height is a 32-bit integer. The merge comes to a peak if all peaks behind it have
the heights counted up from the start.
-/
def PeaksStored (heights : List Nat) (start : Nat) (peaks : List Nat) : Prop :=
  ∀ k pos, peaks[k]? = some pos →
    (∀ j < k, ∃ behind, peaks[j]? = some behind
      ∧ heightAt heights (start + j) behind = some (start + j)) →
    ∃ height, heightAt heights (start + k) pos = some height
      ∧ (height = start + k → start + k + 1 < 2 ^ 32)

section Stored

variable {heights peaks : List Nat} {start lastPeakIdx : Nat}

theorem peaksStored_nil : PeaksStored heights start [] :=
  fun _ _ there => by simp at there

theorem peaksStored_cons
    : PeaksStored heights start (lastPeakIdx :: peaks)
      ↔ ∃ height, heightAt heights start lastPeakIdx = some height
          ∧ (height = start → start + 1 < 2 ^ 32 ∧ PeaksStored heights (start + 1) peaks) := by
  constructor
  · intro stored
    obtain ⟨height, found, fits⟩ := stored 0 lastPeakIdx rfl (by simp)
    refine ⟨height, found, fun level => ⟨fits level, ?_⟩⟩
    intro k pos there reached
    have shift (j : Nat) : start + (j + 1) = start + 1 + j := by omega
    have later := stored (k + 1) pos there
    rw [shift] at later
    refine later fun j early => ?_
    cases j with
    | zero => exact ⟨lastPeakIdx, rfl, found.trans (congrArg some level)⟩
    | succ j =>
        rw [shift]
        exact reached j (Nat.lt_of_succ_lt_succ early)
  · intro ⟨height, found, stored⟩ k pos there reached
    cases k with
    | zero =>
        obtain rfl : lastPeakIdx = pos := by simpa using there
        exact ⟨height, found, fun level => (stored level).1⟩
    | succ k =>
        have level : height = start := by
          obtain ⟨behind, first, height'⟩ := reached 0 (Nat.succ_pos k)
          obtain rfl : lastPeakIdx = behind := by simpa using first
          rw [Nat.add_zero, found] at height'
          exact Option.some.inj height'
        have shift (j : Nat) : start + (j + 1) = start + 1 + j := by omega
        rw [shift]
        refine (stored level).2 k pos (by simpa using there) fun j early => ?_
        rw [← shift]
        exact reached (j + 1) (Nat.succ_lt_succ early)

theorem mergeHeights_subset {made : List Nat} (run : mergeHeights heights peaks start = some made)
    : heights ⊆ made := by
  induction peaks generalizing heights start with
  | nil => exact Option.some.inj run ▸ List.Subset.refl _
  | cons lastPeakIdx peaks ih =>
      obtain ⟨left, -, run⟩ := Option.bind_eq_some_iff.mp run
      split at run
      · exact List.Subset.trans (List.subset_append_left heights _) (ih run)
      · exact Option.some.inj run ▸ List.Subset.refl _

/-- The merge ends with heights that fit exactly if it finds every peak it comes to. -/
theorem exists_mergeHeights_iff (fits : ∀ height ∈ heights, height < 2 ^ 32)
    (small : start < 2 ^ 32)
    : (∃ made, mergeHeights (heights ++ List.range (start + 1)) peaks start = some made
        ∧ ∀ height ∈ made, height < 2 ^ 32)
      ↔ PeaksStored heights start peaks := by
  have now : ∀ height ∈ heights ++ List.range (start + 1), height < 2 ^ 32 := by
    intro height mem
    rcases List.mem_append.mp mem with old | new
    · exact fits height old
    · have := List.mem_range.mp new
      omega
  induction peaks generalizing start with
  | nil => exact iff_of_true ⟨_, rfl, now⟩ peaksStored_nil
  | cons lastPeakIdx peaks ih =>
      rw [peaksStored_cons, heightAt, mergeHeights]
      cases found : (heights ++ List.range (start + 1))[lastPeakIdx]? with
      | none => simp
      | some left =>
          simp only [Option.bind_eq_bind, Option.bind_some, Option.some.injEq, exists_eq_left']
          split
          · rename_i level
            rw [List.append_assoc, ← List.range_succ, imp_iff_right level]
            by_cases next : start + 1 < 2 ^ 32
            · rw [and_iff_right next]
              refine ih next fun height mem => ?_
              rw [List.range_succ, ← List.append_assoc] at mem
              rcases List.mem_append.mp mem with old | new
              · exact now height old
              · exact List.mem_singleton.mp new ▸ next
            · -- the height that does not fit is among those made
              refine iff_of_false ?_ fun stored => next stored.1
              intro ⟨made, run, bounded⟩
              exact next (bounded _ (mergeHeights_subset run (by simp)))
          · rename_i differs
            exact iff_of_true ⟨_, rfl, now⟩ fun level => absurd level differs

end Stored

end Merging

section Using

variable {sha256 : Bytes → Hash32} {mmr : MerkleMountainRange}

theorem MerkleMountainRange.exists_appendLeafHashChecked_iff (fits : mmr.Fits) (leafHash : Hash32)
    : (∃ appended, mmr.appendLeafHashChecked sha256 leafHash = some appended)
      ↔ PeaksStored (mmr.nodes.map MmrNode.height) 0 mmr.peakPositions.reverse := by
  have bounded : ∀ height ∈ mmr.nodes.map MmrNode.height, height < 2 ^ 32 := by
    intro height mem
    obtain ⟨node, there, rfl⟩ := List.mem_map.mp mem
    exact fits node there
  rw [← exists_mergeHeights_iff bounded (by decide)]
  let leaf : MmrNode :=
    { hash := leafHash, height := 0, leftChild := none, rightChild := none, parent := none }
  have stored : mmr.nodes.length < (mmr.nodes ++ [leaf]).length := by simp
  have merged : (mergePeaks sha256 (mmr.nodes ++ [leaf]) mmr.peakPositions.reverse
        mmr.nodes.length 0).map (fun made => made.1.map MmrNode.height)
      = mergeHeights (mmr.nodes.map MmrNode.height ++ List.range (0 + 1))
          mmr.peakPositions.reverse 0 := by
    rw [mergePeaks_heights stored, List.map_append]
    rfl
  rw [← merged, appendLeafHashChecked, appendLeafHash]
  cases mergePeaks sha256 (mmr.nodes ++ [leaf]) mmr.peakPositions.reverse mmr.nodes.length 0 with
  | none => simp
  | some made => simp [Fits]

/-- Both operations on a range read from bytes. -/
structure MerkleMountainRange.Usable (sha256 : Bytes → Hash32) (mmr : MerkleMountainRange)
    : Prop where
  proves : ∀ leafIndex, ∃ outcome, mmr.generateProof leafIndex = some outcome
  appends : ∀ leafHash, ∃ appended, mmr.appendLeafHashChecked sha256 leafHash = some appended

end Using

namespace MerkleMountainRange

/-- A decoded range is safe to use exactly if no parent links above a leaf run in a circle and the
merge finds every peak it comes to.
-/
theorem decoded_range_usable_iff (sha256 : Bytes → Hash32) {bytes : Bytes}
    {mmr : MerkleMountainRange} (decoded : fromBytes bytes = some mmr)
    : mmr.Usable sha256
      ↔ mmr.LinksEnd ∧ PeaksStored (mmr.nodes.map MmrNode.height) 0 mmr.peakPositions.reverse := by
  have fits := fits_of_fromBytes decoded
  constructor
  · intro usable
    exact ⟨generateProof_total_iff.mp usable.proves,
      (exists_appendLeafHashChecked_iff fits Hash32.zero).mp (usable.appends Hash32.zero)⟩
  · intro ⟨ends, stored⟩
    exact ⟨generateProof_total_iff.mpr ends,
      fun leafHash => (exists_appendLeafHashChecked_iff fits leafHash).mpr stored⟩

section Examples

/-- A leaf whose parent and children are the leaf itself. -/
def circularBytes : Bytes :=
  [1] ++ List.replicate 32 0 ++ [0] ++ [1, 0] ++ [1, 0] ++ [1, 0] ++ [0] ++ [1, 0]

def circularRange : MerkleMountainRange :=
  {
    nodes := [⟨Hash32.zero, 0, some 0, some 0, some 0⟩]
    peakPositions := []
    leafPositions := [0]
  }

/-- No nodes, and a peak at position 5. -/
def strayBytes : Bytes :=
  [0] ++ [1, 5] ++ [0]

def strayRange : MerkleMountainRange :=
  { nodes := [], peakPositions := [5], leafPositions := [] }

/-- Accepted bytes of which one range sends a proof walking forever, and the other sends every
append past the end of its nodes.
-/
theorem decoded_ranges_unusable
    : (fromBytes circularBytes = some circularRange
        ∧ ∀ fuel, walkUp circularRange.nodes fuel 0 [] = none)
      ∧ fromBytes strayBytes = some strayRange
      ∧ ∀ (sha256 : Bytes → Hash32) (leafHash : Hash32),
          strayRange.appendLeafHashChecked sha256 leafHash = none := by
  have endless : circularRange.generateProof 0 = none := by decide +kernel
  obtain ⟨nodePos, position, walks⟩ := generateProof_eq_none_iff.mp endless
  obtain rfl : 0 = nodePos := by simpa [circularRange] using position
  exact ⟨⟨by decide +kernel, walks⟩, by decide +kernel, fun _ _ => rfl⟩

/-- Three leaves: two below one peak, and the third a peak of its own. -/
def threeBytes : Bytes :=
  [4]
  ++ List.replicate 32 1 ++ [0] ++ [0] ++ [0] ++ [1, 2]
  ++ List.replicate 32 2 ++ [0] ++ [0] ++ [0] ++ [1, 2]
  ++ List.replicate 32 3 ++ [1] ++ [1, 0] ++ [1, 1] ++ [0]
  ++ List.replicate 32 4 ++ [0] ++ [0] ++ [0] ++ [0]
  ++ [2, 2, 3] ++ [3, 0, 1, 3]

/-- Witness: a range of three leaves. -/
theorem decoded_range_usable_three
    : ∃ mmr, fromBytes threeBytes = some mmr ∧ mmr.leafPositions = [0, 1, 3]
        ∧ mmr.peakPositions = [2, 3] ∧ mmr.Usable polynomialHash := by
  have facts : (fromBytes threeBytes).any fun mmr =>
      decide (mmr.leafPositions = [0, 1, 3] ∧ mmr.peakPositions = [2, 3]
        ∧ mmr.nodes.map MmrNode.height = [0, 0, 1, 0]
        ∧ ∀ leafPos ∈ mmr.leafPositions, (walkUp mmr.nodes 2 leafPos []).isSome) := by
    decide +kernel
  obtain ⟨mmr, decoded, holds⟩ := Option.any_eq_true .. |>.mp facts
  obtain ⟨leaves, peaks, heights, ends⟩ := of_decide_eq_true holds
  refine ⟨mmr, decoded, leaves, peaks,
    (decoded_range_usable_iff polynomialHash decoded).mpr ⟨fun leafPos mem meets => ?_, ?_⟩⟩
  · exact meets.not_endsWithin 2 ((walkUp_isSome_iff 2 leafPos).mp (ends leafPos mem))
  · rw [heights, peaks]
    refine peaksStored_cons.mpr ⟨0, rfl, fun _ => ⟨by decide, ?_⟩⟩
    exact peaksStored_cons.mpr ⟨1, rfl, fun _ => ⟨by decide, peaksStored_nil⟩⟩

end Examples

end MerkleMountainRange

end TrustLedger.Merkle
