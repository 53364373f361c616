import TrustLedger.Foundation.Bytes

/-! The CRC-32C checksum (Castagnoli polynomial, reflected), bit by bit. -/

namespace Foundation

namespace Crc32c

/-- The reflected generator polynomial. -/
def polynomial : BitVec 32 := 0x82F63B78#32

/-- Shift one bit out of the remainder. -/
def shift (remainder : BitVec 32) : BitVec 32 :=
  if remainder.getLsbD 0 then (remainder >>> 1) ^^^ polynomial else remainder >>> 1

/-- Feed one byte into the remainder. -/
def feed (remainder : BitVec 32) (byte : UInt8) : BitVec 32 :=
  shift <| shift <| shift <| shift <| shift <| shift <| shift <| shift <|
    remainder ^^^ byte.toBitVec.setWidth 32

/-- Feed a byte string into the remainder. -/
def feedAll (remainder : BitVec 32) (bytes : Bytes) : BitVec 32 :=
  bytes.foldl feed remainder

/-- Shifting loses nothing. Witness: the bit shifted out is the top bit of what it leaves. -/
theorem shift_injective : Function.Injective shift := by
  intro x y same
  have low : x.getLsbD 0 = y.getLsbD 0 := by
    have top (r : BitVec 32) : (shift r).getLsbD 31 = r.getLsbD 0 := by
      unfold shift
      cases r.getLsbD 0 <;> simp [polynomial]
    rw [← top x, ← top y, same]
  have high : x >>> 1 = y >>> 1 := by
    simp only [shift, low] at same
    split at same
    · exact (BitVec.xor_left_inj _).mp same
    · exact same
  apply BitVec.eq_of_getLsbD_eq
  intro i _
  cases i with
  | zero => exact low
  | succ i =>
      have bit := congrArg (BitVec.getLsbD · i) high
      simpa [BitVec.getLsbD_ushiftRight, Nat.add_comm 1 i] using bit

theorem feed_inj {x y : BitVec 32} {byte byte' : UInt8}
    : feed x byte = feed y byte'
      ↔ x ^^^ byte.toBitVec.setWidth 32 = y ^^^ byte'.toBitVec.setWidth 32 := by
  simp only [feed, shift_injective.eq_iff]

theorem feed_byte_injective (remainder : BitVec 32) : Function.Injective (feed remainder) := by
  intro byte byte' same
  have widened := (BitVec.xor_right_inj _).mp (feed_inj.mp same)
  have narrowed := congrArg (BitVec.setWidth 8) widened
  simpa [UInt8.toBitVec_inj] using narrowed

theorem feedAll_injective (bytes : Bytes) : Function.Injective (feedAll · bytes) := by
  induction bytes with
  | nil => exact fun x y same => same
  | cons byte rest ih => exact fun x y same => (BitVec.xor_left_inj _).mp (feed_inj.mp (ih same))

end Crc32c

/-- Continue a checksum over more bytes. -/
def crc32cAppend (crc : U32) (bytes : Bytes) : U32 :=
  (~~~ Crc32c.feedAll (~~~ (BitVec.ofFin crc)) bytes).toFin

/-- The checksum of a byte string. -/
def crc32c (bytes : Bytes) : U32 :=
  crc32cAppend 0 bytes

/-- Continuing twice is continuing over both parts. -/
theorem crc32cAppend_append (crc : U32) (first second : Bytes)
    : crc32cAppend (crc32cAppend crc first) second = crc32cAppend crc (first ++ second) := by
  simp only [crc32cAppend, Crc32c.feedAll, List.foldl_append, BitVec.ofFin_toFin,
    BitVec.not_not]

/-- Appending continues the checksum of what came before. -/
theorem crc32cAppend_crc32c (first second : Bytes)
    : crc32cAppend (crc32c first) second = crc32c (first ++ second) :=
  crc32cAppend_append 0 first second

theorem crc32cAppend_nil (crc : U32) : crc32cAppend crc [] = crc := by
  simp only [crc32cAppend, Crc32c.feedAll, List.foldl_nil, BitVec.not_not, BitVec.toFin_ofFin]

/-- Replacing one byte changes the checksum. Witness: the remainders differ right behind the byte,
and feeding more bytes never brings different remainders together.
-/
theorem crc32c_byte_injective (before after : Bytes)
    : Function.Injective fun byte => crc32c (before ++ byte :: after) := by
  intro byte byte' same
  simp only [crc32c, crc32cAppend, Crc32c.feedAll, List.foldl_append, List.foldl_cons,
    BitVec.toFin_inj, BitVec.not_inj] at same
  exact Crc32c.feed_byte_injective _ (Crc32c.feedAll_injective after same)

/-- Flipping one bit changes the checksum. -/
theorem crc32c_flipBit_ne {bytes : Bytes} {position : Nat} (bit : Fin 8)
    (inside : position < bytes.length)
    : crc32c (bytes.flipBit position bit) ≠ crc32c bytes := by
  obtain ⟨before, byte, byte', after, split, flipped, differs⟩ :=
    Bytes.exists_flipBit bit inside
  rw [flipped, split]
  exact fun same => differs (crc32c_byte_injective before after same)

/-- The check value of the CRC-32C standard, over the digits 1 to 9. -/
example : crc32c [0x31, 0x32, 0x33, 0x34, 0x35, 0x36, 0x37, 0x38, 0x39] = 0xE3069283 := by
  decide +kernel

end Foundation
