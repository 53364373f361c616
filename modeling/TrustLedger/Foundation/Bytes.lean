import TrustLedger.Foundation.Machine

/-! Little-endian integers in byte strings. -/

namespace Foundation

abbrev Bytes := List UInt8

namespace Bytes

/-- The low `count` bytes of a number, least significant first. -/
def ofNat : (count : Nat) → Nat → Bytes
  | 0, _ => []
  | count + 1, n => UInt8.ofNat n :: ofNat count (n / 256)

/-- The number a byte string denotes, least significant byte first. -/
def toNat : Bytes → Nat
  | [] => 0
  | byte :: rest => byte.toNat + 256 * toNat rest

@[simp] theorem length_ofNat (count n : Nat) : (ofNat count n).length = count := by
  induction count generalizing n with
  | zero => rfl
  | succ count ih => simp only [ofNat, List.length_cons, ih]

theorem toNat_lt (bytes : Bytes) : toNat bytes < 256 ^ bytes.length := by
  induction bytes with
  | nil => exact Nat.one_pos
  | cons byte rest ih =>
      have digit := byte.toNat_lt
      simp only [toNat, List.length_cons, Nat.pow_succ]
      omega

/-- A number that fits in the bytes is read back exactly. -/
theorem toNat_ofNat {count n : Nat} (fits : n < 256 ^ count) : toNat (ofNat count n) = n := by
  induction count generalizing n with
  | zero => simp only [Nat.pow_zero, Nat.lt_one_iff] at fits; simp [ofNat, toNat, fits]
  | succ count ih =>
      have rest : n / 256 < 256 ^ count := by
        rw [Nat.div_lt_iff_lt_mul (by decide)]
        rwa [Nat.pow_succ] at fits
      simp only [ofNat, toNat, ih rest, UInt8.toNat_ofNat']
      omega

/-- Byte strings of one length denote different numbers. -/
theorem eq_of_toNat_eq {first second : Bytes} (length : first.length = second.length)
    (same : toNat first = toNat second)
    : first = second := by
  induction first generalizing second with
  | nil => exact (List.length_eq_zero_iff.mp length.symm).symm
  | cons byte rest ih =>
      obtain ⟨byte', rest', rfl⟩ : ∃ byte' rest', second = byte' :: rest' :=
        List.exists_cons_of_length_eq_add_one length.symm
      have digit := byte.toNat_lt
      have digit' := byte'.toNat_lt
      simp only [toNat] at same
      rw [UInt8.toNat_inj.mp (show byte.toNat = byte'.toNat by omega),
        ih (Nat.succ.inj length) (by omega)]

/-- Every byte string is written back from the number it denotes. -/
theorem ofNat_toNat (bytes : Bytes) : ofNat bytes.length (toNat bytes) = bytes :=
  eq_of_toNat_eq (length_ofNat ..) (toNat_ofNat (toNat_lt bytes))

/-- A field of a byte string is written back from the number read there. -/
theorem ofNat_slice {bytes : Bytes} {offset count : Nat} (complete : offset + count ≤ bytes.length)
    : ofNat count (toNat ((bytes.drop offset).take count) % 256 ^ count)
      = (bytes.drop offset).take count := by
  have length : ((bytes.drop offset).take count).length = count := by
    rw [List.length_take, List.length_drop]
    omega
  have bound := toNat_lt ((bytes.drop offset).take count)
  have written := ofNat_toNat ((bytes.drop offset).take count)
  rw [length] at bound written
  rw [Nat.mod_eq_of_lt bound, written]

/-- One bit of the byte at `position` is flipped. -/
def flipBit (bytes : Bytes) (position : Nat) (bit : Fin 8) : Bytes :=
  bytes.modify position fun byte => byte ^^^ (1 <<< UInt8.ofNat bit.val)

section FlipBit

variable {bytes : Bytes} {position : Nat} (bit : Fin 8)

@[simp] theorem length_flipBit : (bytes.flipBit position bit).length = bytes.length :=
  List.length_modify ..

theorem take_flipBit (count : Nat)
    : (bytes.flipBit position bit).take count = flipBit (bytes.take count) position bit :=
  List.take_modify ..

theorem drop_flipBit_behind {count : Nat} (behind : position < count)
    : (bytes.flipBit position bit).drop count = bytes.drop count :=
  List.drop_modify_of_lt _ _ _ _ behind

theorem drop_flipBit {count : Nat} (before : count ≤ position)
    : (bytes.flipBit position bit).drop count
      = flipBit (bytes.drop count) (position - count) bit :=
  List.drop_modify_of_ge _ _ _ _ before

theorem flipBit_outside (outside : bytes.length ≤ position) : bytes.flipBit position bit = bytes :=
  List.modify_eq_self outside

theorem flipBit_append {first : Bytes} (second : Bytes) (behind : first.length ≤ position)
    : (first ++ second : Bytes).flipBit position bit
      = first ++ second.flipBit (position - first.length) bit := by
  rw [← List.take_append_drop first.length ((first ++ second : Bytes).flipBit position bit),
    take_flipBit, drop_flipBit bit behind, List.take_left, List.drop_left,
    flipBit_outside bit behind]

/-- A flip inside replaces one byte by another. -/
theorem exists_flipBit (inside : position < bytes.length)
    : ∃ before byte byte' after,
        bytes = before ++ byte :: after
        ∧ bytes.flipBit position bit = before ++ byte' :: after
        ∧ byte' ≠ byte := by
  obtain ⟨before, byte, after, split, -, flipped⟩ :=
    List.exists_of_modify (fun byte => byte ^^^ (1 <<< UInt8.ofNat bit.val)) inside
  refine ⟨before, byte, _, after, split, flipped, ?_⟩
  intro same
  have mask : ∀ bit : Fin 8, (1 : UInt8) <<< UInt8.ofNat bit.val ≠ 0 := by
    decide
  exact mask bit (UInt8.xor_right_inj byte |>.mp (same.trans (UInt8.xor_zero).symm))

theorem flipBit_ne (inside : position < bytes.length) : bytes.flipBit position bit ≠ bytes := by
  obtain ⟨before, byte, byte', after, split, flipped, differs⟩ := exists_flipBit bit inside
  rw [flipped, split]
  simpa using differs

end FlipBit

end Bytes

end Foundation
