import TrustLedger.Foundation.HashTree

/-! Mountain ranges: a growing list of leaves kept as perfect trees of strictly falling heights,
one for each set bit of the leaf count, and the tree roots bagged from the right into one value.
Where bagging is injective on the pairs that occur, the bag determines the roots.
-/

namespace Foundation

/-- How many bits of a number are set. -/
def countOnes (n : Nat) : Nat :=
  (List.range (n.log2 + 1)).countP n.testBit

variable {n b : Nat}

theorem countP_testBit_of_le {c : Nat} (bound : n < 2 ^ b) (longer : b ≤ c)
    : (List.range c).countP n.testBit = (List.range b).countP n.testBit := by
  induction c, longer using Nat.le_induction with
  | base => rfl
  | succ c longer ih =>
      have clear : n.testBit c = false :=
        Nat.testBit_lt_two_pow (bound.trans_le (Nat.pow_le_pow_right Nat.two_pos longer))
      simp [List.range_succ, ih, clear]

theorem countOnes_eq_countP (bound : n < 2 ^ b)
    : countOnes n = (List.range b).countP n.testBit := by
  rcases Nat.le_total b (n.log2 + 1) with shorter | longer
  · exact countP_testBit_of_le bound shorter
  · exact (countP_testBit_of_le Nat.lt_log2_self longer).symm

theorem countOnes_two_pow_add {k : Nat} (bound : n < 2 ^ k)
    : countOnes (2 ^ k + n) = countOnes n + 1 := by
  have sum : 2 ^ k + n < 2 ^ (k + 1) := by omega
  have lower : (List.range k).countP (2 ^ k + n).testBit = (List.range k).countP n.testBit := by
    refine List.countP_congr fun b mem => ?_
    rw [Nat.testBit_two_pow_add_gt (List.mem_range.mp mem)]
  rw [countOnes_eq_countP sum, countOnes_eq_countP bound, List.range_succ, List.countP_append,
    lower]
  simp [Nat.testBit_two_pow_add_eq, Nat.testBit_lt_two_pow bound]

theorem countOnes_sub_log2 (positive : n ≠ 0) : countOnes n = countOnes (n - 2 ^ n.log2) + 1 := by
  have low := Nat.log2_self_le positive
  have high : n < 2 ^ (n.log2 + 1) := Nat.lt_log2_self
  rw [← countOnes_two_pow_add (show n - 2 ^ n.log2 < 2 ^ n.log2 by omega), Nat.add_sub_cancel' low]

theorem countOnes_le (bound : n < 2 ^ b) : countOnes n ≤ b := by
  rw [countOnes_eq_countP bound]
  exact List.countP_le_length.trans_eq List.length_range

/-- The sum of the powers of two with the given exponents. -/
def powers (exponents : List Nat) : Nat :=
  (exponents.map (2 ^ ·)).sum

@[simp] theorem powers_nil : powers [] = 0 :=
  rfl

@[simp] theorem powers_cons (k : Nat) (rest : List Nat)
    : powers (k :: rest) = 2 ^ k + powers rest :=
  List.sum_cons

theorem powers_append (exponents more : List Nat)
    : powers (exponents ++ more) = powers exponents + powers more := by
  simp [powers]

section Powers

variable {k : Nat} {rest exponents : List Nat}

theorem powers_lt (falling : (k :: rest).Pairwise (· > ·)) : powers rest < 2 ^ k := by
  induction rest generalizing k with
  | nil => exact Nat.two_pow_pos k
  | cons next rest ih =>
      rw [List.pairwise_cons] at falling
      have below : next + 1 ≤ k := falling.1 next List.mem_cons_self
      have smaller := ih falling.2
      have room : 2 ^ (next + 1) ≤ 2 ^ k := Nat.pow_le_pow_right Nat.two_pos below
      rw [powers_cons]
      omega

theorem powers_pos : 0 < powers (k :: rest) := by
  have := Nat.two_pow_pos k
  rw [powers_cons]
  omega

/-- The first of falling exponents is the highest bit of the sum. -/
theorem log2_powers (falling : (k :: rest).Pairwise (· > ·)) : (powers (k :: rest)).log2 = k := by
  have smaller := powers_lt falling
  refine (Nat.log2_eq_iff (Nat.pos_iff_ne_zero.mp powers_pos)).mpr ?_
  rw [powers_cons]
  omega

theorem countOnes_powers (falling : exponents.Pairwise (· > ·))
    : countOnes (powers exponents) = exponents.length := by
  induction exponents with
  | nil => rfl
  | cons k rest ih =>
      rw [powers_cons, countOnes_two_pow_add (powers_lt falling), ih falling.of_cons,
        List.length_cons]

/-- Falling exponents are the set bits of the sum. -/
theorem mem_iff_testBit_powers (falling : exponents.Pairwise (· > ·)) (b : Nat)
    : b ∈ exponents ↔ (powers exponents).testBit b = true := by
  induction exponents with
  | nil => simp
  | cons k rest ih =>
      have smaller := powers_lt falling
      rw [List.mem_cons, ih falling.of_cons, powers_cons]
      rcases Nat.lt_trichotomy b k with below | rfl | above
      · rw [Nat.testBit_two_pow_add_gt below]
        simp [below.ne]
      · simp [Nat.testBit_two_pow_add_eq, Nat.testBit_lt_two_pow smaller]
      · have room : 2 ^ (k + 1) ≤ 2 ^ b := Nat.pow_le_pow_right Nat.two_pos above
        have clear : (2 ^ k + powers rest).testBit b = false :=
          Nat.testBit_lt_two_pow (by omega)
        have restClear : (powers rest).testBit b = false := Nat.testBit_lt_two_pow (by omega)
        simp [clear, restClear, above.ne']

end Powers

section Blocks

variable {H : Type} (join : H → H → H) (empty : H)

/-- The root of the perfect tree of a height over a block of leaves. -/
def blockRoot : Nat → List H → H
  | 0, leaves => leaves.headD empty
  | height + 1, leaves =>
      join (blockRoot height (leaves.take (2 ^ height)))
        (blockRoot height (leaves.drop (2 ^ height)))

/-- The roots of the perfect trees of the given heights over consecutive blocks of leaves. -/
def blockRoots : List Nat → List H → List H
  | [], _ => []
  | height :: rest, leaves =>
      blockRoot join empty height (leaves.take (2 ^ height))
        :: blockRoots rest (leaves.drop (2 ^ height))

variable {join empty}

theorem HashTree.Perfect.blockRoot_leaves {k : Nat} {t : HashTree H} (perfect : t.Perfect k)
    : blockRoot join empty k t.leaves = t.root join := by
  induction perfect with
  | leaf value => rfl
  | node leftPerfect rightPerfect leftIh rightIh =>
      have half := leftPerfect.length_leaves
      rw [blockRoot, HashTree.leaves, List.take_left' half, List.drop_left' half, leftIh, rightIh,
        HashTree.root]

theorem blockRoots_flatMap {trees : List (HashTree H)} (perfect : ∀ t ∈ trees, t.Perfect t.height)
    : blockRoots join empty (trees.map HashTree.height) (trees.flatMap HashTree.leaves)
      = trees.map (HashTree.root join) := by
  induction trees with
  | nil => rfl
  | cons t rest ih =>
      have own := perfect t List.mem_cons_self
      rw [List.map_cons, List.flatMap_cons, blockRoots, List.take_left' own.length_leaves,
        List.drop_left' own.length_leaves, own.blockRoot_leaves,
        ih fun u mem => perfect u (List.mem_cons_of_mem t mem), List.map_cons]

end Blocks

namespace MountainRange

open HashTree

variable {H : Type} {t : HashTree H} {range : List (HashTree H)} {h : Nat}

/-- Add a tree after the lowest one: equal heights are joined, which may cascade. The lowest tree
comes first here.
-/
def push : HashTree H → List (HashTree H) → List (HashTree H)
  | t, [] => [t]
  | t, lowest :: rest =>
      if lowest.height = t.height then push (.node lowest t) rest else t :: lowest :: rest

/-- Perfect trees of strictly growing heights, from height `h` on. -/
def Staircase : Nat → List (HashTree H) → Prop
  | _, [] => True
  | h, t :: rest => h ≤ t.height ∧ Perfect t.height t ∧ Staircase (t.height + 1) rest

/-- The leaves of a range, whose lowest tree comes first, in the order they were added. -/
def rangeLeaves (range : List (HashTree H)) : List H :=
  range.reverse.flatMap HashTree.leaves

theorem rangeLeaves_cons (t : HashTree H) (range : List (HashTree H))
    : rangeLeaves (t :: range) = rangeLeaves range ++ t.leaves := by
  simp [rangeLeaves]

theorem rangeLeaves_push (t : HashTree H) (range : List (HashTree H))
    : rangeLeaves (push t range) = rangeLeaves range ++ t.leaves := by
  induction range generalizing t with
  | nil => exact rangeLeaves_cons t []
  | cons lowest rest ih =>
      rw [push]
      split
      · rw [ih, HashTree.leaves, rangeLeaves_cons, List.append_assoc]
      · exact rangeLeaves_cons t (lowest :: rest)

theorem Staircase.push (perfect : Perfect t.height t) (stairs : Staircase t.height range)
    : Staircase 0 (push t range) := by
  induction range generalizing t with
  | nil => exact ⟨Nat.zero_le _, perfect, trivial⟩
  | cons lowest rest ih =>
      obtain ⟨above, lowestPerfect, upper⟩ := stairs
      rw [MountainRange.push]
      split
      · rename_i level
        rw [level] at lowestPerfect
        exact ih (by simpa [HashTree.height, level] using lowestPerfect.node perfect)
          (by simpa [HashTree.height] using upper)
      · rename_i differs
        exact ⟨Nat.zero_le _, perfect, by omega, lowestPerfect, upper⟩

theorem Staircase.mem (stairs : Staircase h range) (mem : t ∈ range)
    : Perfect t.height t ∧ h ≤ t.height := by
  induction range generalizing h with
  | nil => cases mem
  | cons lowest rest ih =>
      obtain ⟨above, perfect, upper⟩ := stairs
      rcases List.mem_cons.mp mem with rfl | mem
      · exact ⟨perfect, above⟩
      · obtain ⟨perfect, later⟩ := ih upper mem
        exact ⟨perfect, by omega⟩

/-- From the highest tree down, the heights fall strictly. -/
theorem Staircase.falling (stairs : Staircase h range)
    : (range.reverse.map HashTree.height).Pairwise (· > ·) := by
  rw [List.map_reverse, List.pairwise_reverse]
  induction range generalizing h with
  | nil => exact List.Pairwise.nil
  | cons lowest rest ih =>
      obtain ⟨above, perfect, upper⟩ := stairs
      refine List.pairwise_cons.mpr ⟨fun height mem => ?_, ih upper⟩
      obtain ⟨t, later, rfl⟩ := List.mem_map.mp mem
      exact (upper.mem later).2

/-- The leaf count is the sum of the trees' powers of two. -/
theorem length_flatMap_leaves (perfect : ∀ t ∈ range, Perfect t.height t)
    : (range.flatMap HashTree.leaves).length = powers (range.map HashTree.height) := by
  induction range with
  | nil => rfl
  | cons t rest ih =>
      rw [List.flatMap_cons, List.length_append, (perfect t List.mem_cons_self).length_leaves,
        ih fun u mem => perfect u (List.mem_cons_of_mem t mem), List.map_cons, powers_cons]

theorem Staircase.length_rangeLeaves (stairs : Staircase h range)
    : (rangeLeaves range).length = powers (range.reverse.map HashTree.height) :=
  length_flatMap_leaves fun _ mem => (stairs.mem (List.mem_reverse.mp mem)).1

section Bagging

variable (join : H → H → H) (empty : H)

/-- Join values from the right. -/
def bag : List H → H
  | [] => empty
  | [last] => last
  | first :: next :: rest => join first (bag (next :: rest))

/-- The pairs joined by a bag. -/
def bagPairs : List H → List (H × H)
  | [] => []
  | [_] => []
  | first :: next :: rest => (first, bag join empty (next :: rest)) :: bagPairs (next :: rest)

/-- The right fold as a loop over the reversed list. -/
theorem foldl_reverse_eq_bag (values : List H) (last : H)
    : values.reverse.foldl (fun acc value => join value acc) last
      = bag join empty (values ++ [last]) := by
  induction values with
  | nil => rfl
  | cons first rest ih =>
      rw [List.reverse_cons, List.foldl_append, ih]
      cases rest with
      | nil => rfl
      | cons next rest => rfl

end Bagging

/-- Lists of one length with the same bag are equal, whatever their values. -/
theorem eq_of_bag_eq_of_length {join : H → H → H} {empty : H} {pairs : Set (H × H)}
    {values others : List H} (injective : Injective join pairs)
    (valuePairs : ∀ p ∈ bagPairs join empty values, p ∈ pairs)
    (otherPairs : ∀ p ∈ bagPairs join empty others, p ∈ pairs)
    (length : values.length = others.length) (same : bag join empty values = bag join empty others)
    : values = others := by
  induction values generalizing others with
  | nil => exact (List.length_eq_zero_iff.mp length.symm).symm
  | cons first rest ih =>
      match rest, others with
      | [], [other] => exact congrArg (fun y => [y]) same
      | next :: rest, other :: further :: others =>
          obtain ⟨firstEq, restEq⟩ := injective (valuePairs _ List.mem_cons_self)
            (otherPairs _ List.mem_cons_self) same
          rw [firstEq, ih (fun p mem => valuePairs p (List.mem_cons_of_mem _ mem))
            (fun p mem => otherPairs p (List.mem_cons_of_mem _ mem))
            (Nat.succ.inj length) restEq]

/-- Joining is injective on `pairs` and yields neither a value of `tops` nor the empty value. -/
structure Separated (join : H → H → H) (empty : H) (tops : Set H) (pairs : Set (H × H))
    : Prop where
  join_inj : ∀ {a b c d : H}, (a, b) ∈ pairs → (c, d) ∈ pairs →
    join a b = join c d → a = c ∧ b = d
  top_ne_join : ∀ {x a b : H}, x ∈ tops → (a, b) ∈ pairs → x ≠ join a b
  join_ne_empty : ∀ {a b : H}, (a, b) ∈ pairs → join a b ≠ empty
  top_ne_empty : ∀ {x : H}, x ∈ tops → x ≠ empty

section Soundness

variable {join : H → H → H} {empty : H} {tops : Set H} {pairs : Set (H × H)}
  {values genuine : List H} {x : H}

variable (separated : Separated join empty tops pairs)

include separated

/-- A list of any values with the same bag as a list of tops follows it up to its last value, which
is the bag of the tops that remain.
-/
theorem Separated.peel (valuePairs : ∀ p ∈ bagPairs join empty values, p ∈ pairs)
    (genuinePairs : ∀ p ∈ bagPairs join empty genuine, p ∈ pairs)
    (genuineTops : ∀ y ∈ genuine, y ∈ tops) (nonempty : values ≠ [])
    (same : bag join empty values = bag join empty genuine)
    : ∃ start last rest, values = start ++ [last] ∧ genuine = start ++ rest
      ∧ (∀ p ∈ bagPairs join empty rest, p ∈ pairs) ∧ last = bag join empty rest := by
  induction values generalizing genuine with
  | nil => exact absurd rfl nonempty
  | cons first others ih =>
      match others, genuine with
      | [], genuine => exact ⟨[], first, genuine, rfl, rfl, genuinePairs, same⟩
      | second :: others, [] =>
          exact absurd same (separated.join_ne_empty (valuePairs _ List.mem_cons_self))
      | second :: others, [only] =>
          exact absurd same.symm
            (separated.top_ne_join (genuineTops only List.mem_cons_self)
              (valuePairs _ List.mem_cons_self))
      | second :: others, g :: next :: later =>
          obtain ⟨firstEq, restEq⟩ :=
            separated.join_inj (valuePairs _ List.mem_cons_self)
              (genuinePairs _ List.mem_cons_self) same
          obtain ⟨start, last, rest, valuesEq, genuineEq, restPairs, lastEq⟩ :=
            ih (fun p there => valuePairs p (List.mem_cons_of_mem _ there))
              (fun p there => genuinePairs p (List.mem_cons_of_mem _ there))
              (fun y there => genuineTops y (List.mem_cons_of_mem _ there))
              (List.cons_ne_nil second others) restEq
          exact ⟨first :: start, last, rest, by simp [valuesEq], by simp [firstEq, genuineEq],
            restPairs, lastEq⟩

theorem Separated.eq_of_top_eq_bag {rest : List H}
    (restPairs : ∀ p ∈ bagPairs join empty rest, p ∈ pairs) (xTop : x ∈ tops)
    (bagged : x = bag join empty rest)
    : rest = [x] :=
  match rest with
  | [] => absurd bagged (separated.top_ne_empty xTop)
  | [_] => congrArg (fun y => [y]) bagged.symm
  | _ :: _ :: _ => absurd bagged (separated.top_ne_join xTop (restPairs _ List.mem_cons_self))

/-- A top found in any list with the same bag as a list of tops is one of them. -/
theorem Separated.mem_of_bag_eq (valuePairs : ∀ p ∈ bagPairs join empty values, p ∈ pairs)
    (genuinePairs : ∀ p ∈ bagPairs join empty genuine, p ∈ pairs)
    (genuineTops : ∀ y ∈ genuine, y ∈ tops) (xTop : x ∈ tops) (mem : x ∈ values)
    (same : bag join empty values = bag join empty genuine)
    : x ∈ genuine := by
  obtain ⟨start, last, rest, rfl, rfl, restPairs, lastEq⟩ :=
    separated.peel valuePairs genuinePairs genuineTops (List.ne_nil_of_mem mem) same
  rcases List.mem_append.mp mem with early | final
  · exact List.mem_append_left rest early
  · rw [List.mem_singleton] at final
    have alone := separated.eq_of_top_eq_bag restPairs xTop (final.trans lastEq)
    simp [alone]

theorem Separated.bag_inj {others : List H}
    (valuePairs : ∀ p ∈ bagPairs join empty values, p ∈ pairs)
    (otherPairs : ∀ p ∈ bagPairs join empty others, p ∈ pairs) (valueTops : ∀ x ∈ values, x ∈ tops)
    (otherTops : ∀ y ∈ others, y ∈ tops) (same : bag join empty values = bag join empty others)
    : values = others := by
  rcases eq_or_ne others [] with rfl | nonempty
  · match values with
    | [] => rfl
    | [only] => exact absurd same (separated.top_ne_empty (valueTops only List.mem_cons_self))
    | _ :: _ :: _ => exact absurd same (separated.join_ne_empty (valuePairs _ List.mem_cons_self))
  · obtain ⟨start, last, rest, rfl, rfl, restPairs, lastEq⟩ :=
      separated.peel otherPairs valuePairs valueTops nonempty same.symm
    have lastTop : last ∈ tops := otherTops last (List.mem_append_right start List.mem_cons_self)
    rw [separated.eq_of_top_eq_bag restPairs lastTop lastEq]

end Soundness

end MountainRange

end Foundation
