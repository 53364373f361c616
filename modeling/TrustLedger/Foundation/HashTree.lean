import Mathlib

/-! Binary hash trees over an arbitrary combining function: the root, the sibling path of a
leaf, and the climb that recomputes a root from a leaf and a path. A genuine path climbs to the
root; and where combining is injective on the pairs that occur, whatever climbs to the root is a
leaf.
-/

namespace Foundation

/-- Binary trees with values at the leaves. -/
inductive HashTree (H : Type) where
  | leaf (value : H)
  | node (left right : HashTree H)

namespace HashTree

variable {H : Type} {k : Nat} {t : HashTree H}

/-- The values at the leaves, from left to right. -/
def leaves : HashTree H → List H
  | .leaf value => [value]
  | .node left right => left.leaves ++ right.leaves

/-- Length of the leftmost branch. -/
def height : HashTree H → Nat
  | .leaf _ => 0
  | .node left _ => left.height + 1

/-- All leaves are at depth `k`. -/
inductive Perfect : Nat → HashTree H → Prop where
  | leaf (value : H) : Perfect 0 (.leaf value)
  | node {k : Nat} {left right : HashTree H} (leftPerfect : Perfect k left)
    (rightPerfect : Perfect k right)
    : Perfect (k + 1) (.node left right)

theorem Perfect.height_eq (perfect : Perfect k t) : t.height = k := by
  induction perfect with
  | leaf value => rfl
  | node leftPerfect rightPerfect leftIh rightIh => rw [height, leftIh]

theorem Perfect.length_leaves (perfect : Perfect k t) : t.leaves.length = 2 ^ k := by
  induction perfect with
  | leaf value => rfl
  | node leftPerfect rightPerfect leftIh rightIh =>
      rw [leaves, List.length_append, leftIh, rightIh, Nat.pow_succ, Nat.mul_two]

section Hashing

variable (combine : H → H → H)

/-- The value at the top. -/
def root : HashTree H → H
  | .leaf value => value
  | .node left right => combine left.root right.root

/-- The pairs combined inside a tree. -/
def pairs : HashTree H → List (H × H)
  | .leaf _ => []
  | .node left right =>
      (left.root combine, right.root combine) :: (left.pairs ++ right.pairs)

/-- The siblings on the way from leaf `i` to the top, lowest first. -/
def path : HashTree H → Nat → List H
  | .leaf _, _ => []
  | .node left right, i =>
      if i < 2 ^ left.height then
        left.path i ++ [right.root combine]
      else
        right.path (i - 2 ^ left.height) ++ [left.root combine]

/-- The two values combined at one level: a set bit puts the sibling on the left. -/
def joined (bit : Bool) (current sibling : H) : H × H :=
  if bit then (sibling, current) else (current, sibling)

/-- Combine a value with siblings, lowest first; the bits of `index` from `level` on say on
which side it stands.
-/
def climb (index : Nat) : Nat → H → List H → H
  | _, current, [] => current
  | level, current, sibling :: rest =>
      climb index (level + 1)
        (combine (joined (index.testBit level) current sibling).1
          (joined (index.testBit level) current sibling).2) rest

/-- The pairs combined along a climb. -/
def climbPairs (index : Nat) : Nat → H → List H → List (H × H)
  | _, _, [] => []
  | level, current, sibling :: rest =>
      joined (index.testBit level) current sibling
        :: climbPairs index (level + 1)
          (combine (joined (index.testBit level) current sibling).1
            (joined (index.testBit level) current sibling).2) rest

end Hashing

section Climbing

variable {combine : H → H → H} {index level : Nat} {current : H} {k : Nat} {t : HashTree H}

/-- The last sibling is combined last, at the highest bit. -/
theorem climb_append (siblings : List H) (sibling : H)
    : climb combine index level current (siblings ++ [sibling])
      = combine
          (joined (index.testBit (level + siblings.length))
            (climb combine index level current siblings) sibling).1
          (joined (index.testBit (level + siblings.length))
            (climb combine index level current siblings) sibling).2 := by
  induction siblings generalizing level current with
  | nil => rfl
  | cons first rest ih =>
      simp only [List.cons_append, climb, List.length_cons]
      rw [ih, Nat.add_right_comm, Nat.add_assoc]

theorem climbPairs_append (siblings : List H) (sibling : H)
    : climbPairs combine index level current (siblings ++ [sibling])
      = climbPairs combine index level current siblings
        ++ [joined (index.testBit (level + siblings.length))
            (climb combine index level current siblings) sibling] := by
  induction siblings generalizing level current with
  | nil => rfl
  | cons first rest ih =>
      simp only [List.cons_append, climbPairs, climb, List.length_cons]
      rw [ih, Nat.add_right_comm, Nat.add_assoc]

/-- A perfect tree's path has one sibling for each level. -/
theorem Perfect.length_path (perfect : Perfect k t) (i : Nat) : (t.path combine i).length = k := by
  induction perfect generalizing i with
  | leaf value => rfl
  | node leftPerfect rightPerfect leftIh rightIh =>
      rw [path]
      split
      · rw [List.length_append, leftIh, List.length_singleton]
      · rw [List.length_append, rightIh, List.length_singleton]

/-- The path of a leaf climbs to the root, for every index with the leaf's low bits. -/
theorem Perfect.climb_path {i : Nat} {value : H} (perfect : Perfect k t)
    (there : t.leaves[i]? = some value) (bits : ∀ b < k, index.testBit b = i.testBit b)
    : climb combine index 0 value (t.path combine i) = t.root combine := by
  induction perfect generalizing i with
  | leaf stored =>
      have found : i = 0 ∧ stored = value := by
        simpa [leaves, List.getElem?_singleton] using there
      simp [path, climb, root, found.2]
  | @node k left right leftPerfect rightPerfect leftIh rightIh =>
      rw [path, leftPerfect.height_eq, root]
      rw [leaves] at there
      split
      · -- the leaf is on the left: bit `k` is clear
        rename_i low
        rw [List.getElem?_append_left (by rw [leftPerfect.length_leaves]; exact low)] at there
        have clear : index.testBit k = false := by
          rw [bits k (Nat.lt_succ_self k), Nat.testBit_lt_two_pow low]
        rw [climb_append, leftPerfect.length_path, Nat.zero_add,
          leftIh there (fun b bound => bits b (Nat.lt_succ_of_lt bound)), clear]
        rfl
      · -- the leaf is on the right: bit `k` is set, and the lower bits are those of the rest
        rename_i high
        have above : 2 ^ k ≤ i := Nat.le_of_not_lt high
        have bound : i < 2 ^ (k + 1) := by
          have := (List.getElem?_eq_some_iff.mp there).1
          rw [List.length_append, leftPerfect.length_leaves, rightPerfect.length_leaves] at this
          omega
        have split : i = 2 ^ k + (i - 2 ^ k) := by omega
        rw [List.getElem?_append_right (by rw [leftPerfect.length_leaves]; exact above),
          leftPerfect.length_leaves] at there
        have set : index.testBit k = true := by
          rw [bits k (Nat.lt_succ_self k), split, Nat.testBit_two_pow_add_eq,
            Nat.testBit_lt_two_pow (by omega)]
          rfl
        have lower : ∀ b < k, index.testBit b = (i - 2 ^ k).testBit b := by
          intro b small
          rw [bits b (Nat.lt_succ_of_lt small)]
          nth_rewrite 1 [split]
          exact Nat.testBit_two_pow_add_gt small _
        rw [climb_append, rightPerfect.length_path, Nat.zero_add, rightIh there lower, set]
        rfl

end Climbing

section Soundness

/-- Combining is injective on `pairs`, and no value of `leaves` is combined from one of them. -/
structure Separated (combine : H → H → H) (leaves : Set H) (pairs : Set (H × H)) : Prop where
  combine_inj : ∀ {a b c d : H}, (a, b) ∈ pairs → (c, d) ∈ pairs →
    combine a b = combine c d → a = c ∧ b = d
  leaf_ne_combine : ∀ {x a b : H}, x ∈ leaves → (a, b) ∈ pairs → x ≠ combine a b

/-- A tree whose leaves and combined pairs are among the given ones. -/
structure Within (combine : H → H → H) (leaves : Set H) (pairs : Set (H × H)) (t : HashTree H)
    : Prop where
  leaves_mem : ∀ x ∈ t.leaves, x ∈ leaves
  pairs_mem : ∀ p ∈ t.pairs combine, p ∈ pairs

variable {combine : H → H → H} {leaves : Set H} {pairs : Set (H × H)} {value current current' : H}
  {index : Nat} {siblings : List H} {t : HashTree H}

theorem Within.left {left right : HashTree H}
    (within : Within combine leaves pairs (.node left right))
    : Within combine leaves pairs left where
  leaves_mem x mem := within.leaves_mem x (List.mem_append_left _ mem)
  pairs_mem p mem := within.pairs_mem p (List.mem_cons_of_mem _ (List.mem_append_left _ mem))

theorem Within.right {left right : HashTree H}
    (within : Within combine leaves pairs (.node left right))
    : Within combine leaves pairs right where
  leaves_mem x mem := within.leaves_mem x (List.mem_append_right _ mem)
  pairs_mem p mem := within.pairs_mem p (List.mem_cons_of_mem _ (List.mem_append_right _ mem))

theorem Within.top {left right : HashTree H}
    (within : Within combine leaves pairs (.node left right))
    : (left.root combine, right.root combine) ∈ pairs :=
  within.pairs_mem _ List.mem_cons_self

theorem Within.leaf_mem (within : Within combine leaves pairs (.leaf value)) : value ∈ leaves :=
  within.leaves_mem value (List.mem_singleton_self value)

/-- Whatever climbs to a tree's root, along any siblings at all, is one of its leaves. -/
theorem Separated.climb_sound (separated : Separated combine leaves pairs)
    (within : Within combine leaves pairs t) (valueLeaf : value ∈ leaves)
    (climbed : ∀ p ∈ climbPairs combine index 0 value siblings, p ∈ pairs)
    (top : climb combine index 0 value siblings = t.root combine)
    : value ∈ t.leaves := by
  -- from the top down: the last pair combined is the pair at the tree's root
  induction siblings using List.reverseRecOn generalizing t with
  | nil =>
      cases t with
      | leaf stored => exact List.mem_singleton.mpr top
      | node left right => exact absurd top (separated.leaf_ne_combine valueLeaf within.top)
  | append_singleton siblings sibling ih =>
      rw [climb_append] at top
      rw [climbPairs_append] at climbed
      have lower := fun p mem => climbed p (List.mem_append_left _ mem)
      have last := climbed _ (List.mem_append_right _ (List.mem_singleton_self _))
      cases t with
      | leaf stored =>
          exact absurd top.symm (separated.leaf_ne_combine within.leaf_mem last)
      | node left right =>
          cases side : index.testBit (0 + siblings.length) with
          | true =>
              rw [side] at top last
              obtain ⟨-, rightEq⟩ := separated.combine_inj last within.top top
              exact List.mem_append_right _ (ih within.right lower rightEq)
          | false =>
              rw [side] at top last
              obtain ⟨leftEq, -⟩ := separated.combine_inj last within.top top
              exact List.mem_append_left _ (ih within.left lower leftEq)

/-- Combining is injective on a set of pairs. -/
def Injective (combine : H → H → H) (pairs : Set (H × H)) : Prop :=
  ∀ {a b c d : H}, (a, b) ∈ pairs → (c, d) ∈ pairs → combine a b = combine c d → a = c ∧ b = d

instance Injective.decidable [DecidableEq H] (combine : H → H → H) (pairs : List (H × H))
    : Decidable (Injective combine { pair | pair ∈ pairs }) :=
  decidable_of_iff
    (∀ p ∈ pairs, ∀ q ∈ pairs, combine p.1 p.2 = combine q.1 q.2 → p = q)
    ⟨fun check _ _ _ _ first second same => Prod.mk.inj (check _ first _ second same),
      fun injective _ first _ second same => Prod.ext_iff.mpr (injective first second same)⟩

theorem joined_inj {bit : Bool} {sibling sibling' : H}
    (same : joined bit current sibling = joined bit current' sibling')
    : current = current' ∧ sibling = sibling' := by
  cases bit with
  | true => exact (Prod.mk.inj same).symm
  | false => exact Prod.mk.inj same

/-- Climbs along equally many siblings from one index that arrive at one value started from one
value and met the same siblings.
-/
theorem Injective.climb_inj {level : Nat} {siblings' : List H} (injective : Injective combine pairs)
    (climbed : ∀ p ∈ climbPairs combine index level current siblings, p ∈ pairs)
    (climbed' : ∀ p ∈ climbPairs combine index level current' siblings', p ∈ pairs)
    (length : siblings.length = siblings'.length) (same : climb combine index level current siblings
      = climb combine index level current' siblings')
    : current = current' ∧ siblings = siblings' := by
  induction siblings generalizing level current current' siblings' with
  | nil =>
      obtain rfl := List.length_eq_zero_iff.mp length.symm
      exact ⟨same, rfl⟩
  | cons sibling rest ih =>
      match siblings' with
      | sibling' :: rest' =>
          -- the parents agree by induction, so what was combined into them does
          obtain ⟨parents, restEq⟩ := ih
            (fun p mem => climbed p (List.mem_cons_of_mem _ mem))
            (fun p mem => climbed' p (List.mem_cons_of_mem _ mem)) (Nat.succ.inj length) same
          have pair := injective (climbed _ List.mem_cons_self) (climbed' _ List.mem_cons_self)
            parents
          obtain ⟨currentEq, siblingEq⟩ := joined_inj (Prod.ext_iff.mpr pair)
          exact ⟨currentEq, by rw [siblingEq, restEq]⟩

/-- A climb of a perfect tree's height that arrives at its root started from the leaf at its index:
what is climbed from need not be known to be a leaf.
-/
theorem Perfect.leaf_of_climb {k : Nat} (perfect : Perfect k t)
    (injective : Injective combine pairs) (within : ∀ p ∈ t.pairs combine, p ∈ pairs)
    (long : siblings.length = k)
    (climbed : ∀ p ∈ climbPairs combine index 0 value siblings, p ∈ pairs)
    (top : climb combine index 0 value siblings = t.root combine)
    : t.leaves[index % 2 ^ k]? = some value := by
  induction perfect generalizing siblings with
  | leaf stored =>
      obtain rfl := List.length_eq_zero_iff.mp long
      simp only [climb, root] at top
      simp [HashTree.leaves, Nat.mod_one, top]
  | @node k left right leftPerfect rightPerfect leftIh rightIh =>
      obtain ⟨lower, last, rfl⟩ : ∃ lower last, siblings = lower ++ [last] := by
        rcases List.eq_nil_or_concat siblings with rfl | ⟨lower, last, rfl⟩
        · cases long
        · exact ⟨lower, last, List.concat_eq_append⟩
      have short : lower.length = k := by simpa using long
      rw [climb_append, root, Nat.zero_add, short] at top
      rw [climbPairs_append, Nat.zero_add, short] at climbed
      have lowerPairs := fun p mem => climbed p (List.mem_append_left _ mem)
      have lastPair := climbed _ (List.mem_append_right _ (List.mem_singleton_self _))
      have here : (left.root combine, right.root combine) ∈ pairs :=
        within _ List.mem_cons_self
      have half : left.leaves.length = 2 ^ k := leftPerfect.length_leaves
      have low : index % 2 ^ k < 2 ^ k := Nat.mod_lt _ (Nat.two_pow_pos k)
      rw [HashTree.leaves, Nat.mod_pow_succ]
      -- the bit of the index at this level says which child was climbed
      cases side : index.testBit k with
      | true =>
          rw [side] at top lastPair
          obtain ⟨-, rightEq⟩ := injective lastPair here top
          have found := rightIh (fun p mem => within p (List.mem_cons_of_mem _
            (List.mem_append_right _ mem))) short lowerPairs rightEq
          have set : index / 2 ^ k % 2 = 1 := by
            simpa [Nat.testBit_eq_decide_div_mod_eq] using side
          rw [set, Nat.mul_one, List.getElem?_append_right (by simp [half]), half,
            Nat.add_sub_cancel]
          exact found
      | false =>
          rw [side] at top lastPair
          obtain ⟨leftEq, -⟩ := injective lastPair here top
          have found := leftIh (fun p mem => within p (List.mem_cons_of_mem _
            (List.mem_append_left _ mem))) short lowerPairs leftEq
          have clear : index / 2 ^ k % 2 = 0 := by
            simpa [Nat.testBit_eq_decide_div_mod_eq] using side
          rw [clear, Nat.mul_zero, Nat.add_zero, List.getElem?_append_left (half ▸ low)]
          exact found

/-- The root determines the tree. -/
theorem Separated.root_inj {t' : HashTree H} (separated : Separated combine leaves pairs)
    (within : Within combine leaves pairs t) (within' : Within combine leaves pairs t')
    (same : t.root combine = t'.root combine)
    : t = t' := by
  induction t generalizing t' with
  | leaf value =>
      cases t' with
      | leaf value' => exact congrArg HashTree.leaf same
      | node left' right' =>
          exact absurd same (separated.leaf_ne_combine within.leaf_mem within'.top)
  | node left right leftIh rightIh =>
      cases t' with
      | leaf value' =>
          exact absurd same.symm (separated.leaf_ne_combine within'.leaf_mem within.top)
      | node left' right' =>
          obtain ⟨leftEq, rightEq⟩ := separated.combine_inj within.top within'.top same
          rw [leftIh within.left within'.left leftEq, rightIh within.right within'.right rightEq]

end Soundness

end HashTree

end Foundation
