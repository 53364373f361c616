import TrustLedger.Foundation.Wire

/-! A wire format of fixed layouts: little-endian integers, raw arrays, one byte for the case of an
enumeration. A layout has one width, so a value can be written over the start of a buffer and read
back whatever stands behind it.
-/

namespace Foundation

namespace Codec

/-- Exactly `count` raw bytes. -/
def array (count : Nat) : Codec { bytes : Bytes // bytes.length = count } where
  encode value := value.1
  decode bytes :=
    if enough : count ≤ bytes.length then
      some (⟨bytes.take count, by rw [List.length_take, Nat.min_eq_left enough]⟩,
        bytes.drop count)
    else none
  decode_encode value rest := by
    have enough : count ≤ (value.1 ++ rest).length := by
      rw [List.length_append, value.2]
      omega
    rw [dif_pos enough]
    simp [List.take_left' value.2, List.drop_left' value.2]
  decode_append := by
    intro bytes value rest read more
    split at read
    · rename_i enough
      cases read
      have longer : count ≤ (bytes ++ more).length := by
        rw [List.length_append]
        omega
      rw [dif_pos longer]
      simp [List.take_append_of_le_length enough, List.drop_append_of_le_length enough]
    · cases read

/-- An integer in exactly `count` bytes. -/
def littleEndian (bound count : Nat) (exact : bound = 256 ^ count) : Codec (Fin bound) :=
  (array count).map
    (fun bytes => ⟨Bytes.toNat bytes.1, by
      have := Bytes.toNat_lt bytes.1
      rwa [bytes.2, ← exact] at this⟩)
    (fun value => ⟨Bytes.ofNat count value.val, Bytes.length_ofNat ..⟩)
    fun value => Fin.ext (Bytes.toNat_ofNat (exact ▸ value.isLt))

section Combinators

variable {α β : Type}

/-- A tag, and a payload of the type that the tag names. -/
def tagged {payload : α → Type} (tag : Codec α) (codec : ∀ a, Codec (payload a))
    : Codec (Σ a, payload a) where
  encode value := tag.encode value.1 ++ (codec value.1).encode value.2
  decode bytes := do
    let (a, rest) ← tag.decode bytes
    let (value, rest) ← (codec a).decode rest
    some (⟨a, value⟩, rest)
  decode_encode value rest := by
    simp [List.append_assoc, tag.decode_encode, (codec value.1).decode_encode]
  decode_append := by
    intro bytes value rest read more
    simp only [Option.bind_eq_bind, Option.bind_eq_some_iff] at read ⊢
    obtain ⟨⟨a, mid⟩, inner, ⟨fields, left⟩, outer, whole⟩ := read
    cases whole
    exact ⟨_, tag.decode_append inner more, _, (codec a).decode_append outer more, rfl⟩

/-- Values of a type that satisfy a check; others are refused. -/
def subtype (codec : Codec α) (p : α → Prop) [DecidablePred p] : Codec { a // p a } where
  encode value := codec.encode value.1
  decode bytes := do
    let (a, rest) ← codec.decode bytes
    if holds : p a then some (⟨a, holds⟩, rest) else none
  decode_encode value rest := by
    simp [codec.decode_encode, value.2]
  decode_append := by
    intro bytes value rest read more
    simp only [Option.bind_eq_bind, Option.bind_eq_some_iff] at read ⊢
    obtain ⟨⟨a, left⟩, inner, whole⟩ := read
    refine ⟨_, codec.decode_append inner more, ?_⟩
    split at whole
    · rename_i holds
      cases whole
      rw [dif_pos holds]
    · cases whole

/-- One of `count` numbered cases, in one byte. -/
def caseByte (count : Nat) (small : count ≤ 256) : Codec (Fin count) :=
  (byte.subtype fun value => value.val < count).map (fun value => ⟨value.1.val, value.2⟩)
    (fun number => ⟨⟨number.val, Nat.lt_of_lt_of_le number.isLt small⟩, number.isLt⟩)
    fun _ => rfl

/-- A value that takes all of the bytes. -/
def readAll (codec : Codec α) (bytes : Bytes) : Option α :=
  match codec.decode bytes with
  | some (value, []) => some value
  | _ => none

theorem readAll_eq_some {codec : Codec α} {bytes : Bytes} {value : α}
    : codec.readAll bytes = some value ↔ codec.decode bytes = some (value, []) := by
  unfold readAll
  split
  · rename_i found read
    simp [read]
  · rename_i other
    simp only [reduceCtorEq, false_iff]
    exact fun read => other value read

@[simp] theorem decode_encode_self (codec : Codec α) (value : α)
    : codec.decode (codec.encode value) = some (value, []) := by
  simpa using codec.decode_encode value []

@[simp] theorem readAll_encode (codec : Codec α) (value : α)
    : codec.readAll (codec.encode value) = some value :=
  readAll_eq_some.mpr (codec.decode_encode_self value)

/-- Every value takes `width` bytes. -/
def HasWidth (codec : Codec α) (width : Nat) : Prop :=
  ∀ value, (codec.encode value).length = width

theorem array_width (count : Nat) : (array count).HasWidth count :=
  fun value => value.2

theorem byte_width : byte.HasWidth 1 :=
  fun _ => rfl

theorem HasWidth.pair {first : Codec α} {second : Codec β} {m n : Nat} (left : first.HasWidth m)
    (right : second.HasWidth n)
    : (first.pair second).HasWidth (m + n) := by
  intro value
  change (first.encode value.1 ++ second.encode value.2).length = m + n
  rw [List.length_append, left, right]

theorem HasWidth.map {codec : Codec α} {n : Nat} (width : codec.HasWidth n) {pack : α → β}
    {unpack : β → α} (inverse : ∀ value, pack (unpack value) = value)
    : (codec.map pack unpack inverse).HasWidth n :=
  fun value => width (unpack value)

theorem littleEndian_width {bound count : Nat} (exact : bound = 256 ^ count)
    : (littleEndian bound count exact).HasWidth count :=
  (array_width count).map _

end Combinators

end Codec

/-- Copy bytes over the start of a buffer, as far as they fit. -/
def overwrite (bytes buffer : Bytes) : Bytes :=
  bytes.take buffer.length ++ buffer.drop bytes.length

section Overwriting

variable {α : Type} {bytes buffer : Bytes}

theorem overwrite_of_le (fits : bytes.length ≤ buffer.length)
    : overwrite bytes buffer = bytes ++ buffer.drop bytes.length := by
  rw [overwrite, List.take_of_length_le fits]

/-- What is written over the start of a buffer is read back. -/
theorem Codec.decode_overwrite (codec : Codec α) (value : α)
    (fits : (codec.encode value).length ≤ buffer.length)
    : codec.decode (overwrite (codec.encode value) buffer)
      = some (value, buffer.drop (codec.encode value).length) := by
  rw [overwrite_of_le fits, codec.decode_encode]

end Overwriting

end Foundation
