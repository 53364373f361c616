import Mathlib

/-! Fixed-width unsigned integers as bounded naturals. Arithmetic on them is never implicit:
a program that checks or saturates says so through one of the operations below.
-/

namespace Foundation

abbrev U32 := Fin (2 ^ 32)
abbrev U64 := Fin (2 ^ 64)
abbrev U128 := Fin (2 ^ 128)

instance neZeroThree : NeZero 3 := ⟨by decide⟩
instance U8.neZero : NeZero 256 := ⟨by decide⟩
instance U32.neZero : NeZero (2 ^ 32) := ⟨by decide⟩
instance U64.neZero : NeZero (2 ^ 64) := ⟨by decide⟩
instance U128.neZero : NeZero (2 ^ 128) := ⟨by decide⟩

instance U64.transOrd : Std.TransOrd U64 := inferInstance
instance U128.transOrd : Std.TransOrd U128 := inferInstance

/-- Addition that reports a result past the largest value. -/
def checkedAdd {n : Nat} (a b : Fin n) : Option (Fin n) :=
  if fits : a.val + b.val < n then some ⟨a.val + b.val, fits⟩ else none

/-- Subtraction that reports a negative result. -/
def checkedSub {n : Nat} (a b : Fin n) : Option (Fin n) :=
  if b.val ≤ a.val then some ⟨a.val - b.val, by omega⟩ else none

/-- Addition that stops at the largest value. -/
def saturatingAdd {n : Nat} (a b : Fin n) : Fin n :=
  ⟨min (a.val + b.val) (n - 1), by omega⟩

/-- How many bits above the highest set one. -/
def leadingZeros (a : U64) : U64 :=
  if a.val = 0 then 64 else ⟨63 - a.val.log2, by omega⟩

/-- Left shift that reports a distance past the width; bits past the width are dropped. -/
def checkedShl (a distance : U64) : Option U64 :=
  if distance.val < 64 then some ⟨a.val * 2 ^ distance.val % 2 ^ 64, Nat.mod_lt _ (by decide)⟩
  else none

/-- Right shift that reports a distance past the width. -/
def checkedShr (a : U64) (distance : Nat) : Option U64 :=
  if distance < 64 then some ⟨a.val / 2 ^ distance, Nat.lt_of_le_of_lt (Nat.div_le_self _ _) a.isLt⟩
  else none

theorem checkedAdd_eq_some {n : Nat} {a b c : Fin n}
    : checkedAdd a b = some c ↔ c.val = a.val + b.val := by
  unfold checkedAdd
  split
  · simp only [Option.some.injEq, Fin.ext_iff]
    omega
  · simp only [reduceCtorEq, false_iff]
    have bound := c.isLt
    omega

theorem checkedSub_eq_some {n : Nat} {a b c : Fin n}
    : checkedSub a b = some c ↔ c.val + b.val = a.val := by
  unfold checkedSub
  split
  · simp only [Option.some.injEq, Fin.ext_iff]
    omega
  · simp only [reduceCtorEq, false_iff]
    omega

section Bits

variable {a : U64}

theorem log2_lt_64 (a : U64) : a.val.log2 < 64 := by
  rcases Nat.eq_zero_or_pos a.val with zero | positive
  · simp [zero]
  · exact (Nat.log2_lt positive.ne').mpr a.isLt

theorem checkedSub_leadingZeros (nonzero : a.val ≠ 0)
    : checkedSub 63 (leadingZeros a) = some ⟨a.val.log2, (log2_lt_64 a).trans (by decide)⟩ := by
  have bound := log2_lt_64 a
  rw [checkedSub_eq_some, leadingZeros, if_neg nonzero]
  show a.val.log2 + (63 - a.val.log2) = 63
  omega

theorem checkedShl_one {distance : Nat} (bound : distance < 64)
    : checkedShl 1 ⟨distance, bound.trans (by decide)⟩
      = some ⟨2 ^ distance, Nat.pow_lt_pow_right (by decide) bound⟩ := by
  have fits : 2 ^ distance < 2 ^ 64 := Nat.pow_lt_pow_right (by decide) bound
  have one : (1 : U64).val = 1 := rfl
  simp only [checkedShl, if_pos bound, one, Nat.one_mul, Nat.mod_eq_of_lt fits]

theorem checkedShr_testBit {distance : Nat} (bound : distance < 64)
    : ∃ shifted, checkedShr a distance = some shifted
      ∧ (shifted.val % 2 = 1 ↔ a.val.testBit distance = true) := by
  refine ⟨_, if_pos bound, ?_⟩
  rw [Nat.testBit_eq_decide_div_mod_eq, decide_eq_true_iff]

end Bits

@[simp] theorem saturatingAdd_val {n : Nat} (a b : Fin n)
    : (saturatingAdd a b).val = min (a.val + b.val) (n - 1) :=
  rfl

end Foundation
