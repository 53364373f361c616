import TrustLedger.Foundation.Bytes

/-! A wire format without field names or type tags, built from codecs: base-128 integers, raw
bytes, one byte for booleans and options, numbered variants, and counted sequences.
-/

namespace Foundation

/-- A writer and a reader that consumes exactly what was written. Bytes behind a value never
change how it is read.
-/
structure Codec (α : Type) where
  encode : α → Bytes
  decode : Bytes → Option (α × Bytes)
  decode_encode : ∀ value rest, decode (encode value ++ rest) = some (value, rest)
  decode_append
    : ∀ {bytes value rest}, decode bytes = some (value, rest)
      → ∀ more, decode (bytes ++ more) = some (value, rest ++ more)

namespace Codec

variable {α : Type} {value : α} {digits n : Nat}

theorem encode_injective (codec : Codec α) {value' : α}
    (same : codec.encode value = codec.encode value')
    : value = value' := by
  have read := codec.decode_encode value []
  rw [same, codec.decode_encode value' []] at read
  exact (Prod.mk.inj (Option.some.inj read)).1.symm

/-- A torn value is never read: reading it would leave the missing bytes over once they are put
back.
-/
theorem decode_torn (codec : Codec α) {cut : Nat} (torn : cut < (codec.encode value).length)
    : codec.decode ((codec.encode value).take cut) = none := by
  cases read : codec.decode ((codec.encode value).take cut) with
  | none => rfl
  | some found =>
      have whole := codec.decode_append read ((codec.encode value).drop cut)
      have exactly := codec.decode_encode value []
      rw [List.take_append_drop] at whole
      rw [List.append_nil, whole] at exactly
      have left := congrArg (List.length ∘ Prod.snd) (Option.some.inj exactly)
      simp only [Function.comp_apply, List.length_append, List.length_drop, List.length_nil]
        at left
      omega

/-- Seven bits a byte, least significant first, with a continuation bit on all but the last. -/
def writeVarint : (digits : Nat) → Nat → Bytes
  | 0, _ => []
  | digits + 1, n =>
      if n < 128 then [UInt8.ofNat n]
      else UInt8.ofNat (n % 128 + 128) :: writeVarint digits (n / 128)

/-- Read at most `digits` bytes of a base-128 integer. -/
def readVarint : (digits : Nat) → Bytes → Option (Nat × Bytes)
  | 0, _ => none
  | _ + 1, [] => none
  | digits + 1, byte :: rest =>
      if byte.toNat < 128 then some (byte.toNat, rest)
      else (readVarint digits rest).map fun read => (byte.toNat - 128 + 128 * read.1, read.2)

theorem readVarint_writeVarint (positive : 0 < digits) (fits : n < 128 ^ digits) (rest : Bytes)
    : readVarint digits (writeVarint digits n ++ rest) = some (n, rest) := by
  induction digits generalizing n with
  | zero => omega
  | succ digits ih =>
      unfold writeVarint
      split
      · rename_i small
        have byte : (UInt8.ofNat n).toNat = n := by
          rw [UInt8.toNat_ofNat']
          omega
        simp [readVarint, byte, small]
      · rename_i large
        have byte : (UInt8.ofNat (n % 128 + 128)).toNat = n % 128 + 128 := by
          rw [UInt8.toNat_ofNat']
          omega
        have high : n / 128 < 128 ^ digits := by
          rw [Nat.div_lt_iff_lt_mul (by decide)]
          rwa [Nat.pow_succ] at fits
        -- A byte with the continuation bit set is never the last one allowed.
        have further : 0 < digits := by
          rcases Nat.eq_zero_or_pos digits with none_left | some_left
          · subst none_left
            omega
          · exact some_left
        simp only [List.cons_append, readVarint, byte, ih further high, Option.map_some]
        rw [if_neg (by omega)]
        congr 2
        omega

theorem length_writeVarint_le (digits n : Nat) : (writeVarint digits n).length ≤ digits := by
  induction digits generalizing n with
  | zero => simp [writeVarint]
  | succ digits ih =>
      unfold writeVarint
      split
      · simp
      · rw [List.length_cons]
        exact Nat.succ_le_succ (ih _)

theorem readVarint_append {bytes : Bytes} {rest : Bytes}
    (read : readVarint digits bytes = some (n, rest)) (more : Bytes)
    : readVarint digits (bytes ++ more) = some (n, rest ++ more) := by
  induction digits generalizing bytes n rest with
  | zero => cases read
  | succ digits ih =>
      cases bytes with
      | nil => cases read
      | cons byte later =>
          simp only [readVarint, List.cons_append] at read ⊢
          split at read
          · rename_i small
            cases read
            rw [if_pos small]
          · rename_i large
            obtain ⟨⟨high, left⟩, inner, whole⟩ := Option.map_eq_some_iff.mp read
            cases whole
            rw [if_neg large, ih inner, Option.map_some]

/-- An unsigned integer below `bound` in at most `digits` bytes; larger values are refused. -/
def varint (bound digits : Nat) (positive : 0 < digits) (fits : bound ≤ 128 ^ digits)
    : Codec (Fin bound) where
  encode value := writeVarint digits value.val
  decode bytes := do
    let (n, rest) ← readVarint digits bytes
    if small : n < bound then some (⟨n, small⟩, rest) else none
  decode_encode value rest := by
    simp [readVarint_writeVarint positive (Nat.lt_of_lt_of_le value.isLt fits)]
  decode_append := by
    intro bytes value rest read more
    simp only [Option.bind_eq_bind, Option.bind_eq_some_iff] at read ⊢
    obtain ⟨⟨n, left⟩, inner, small⟩ := read
    refine ⟨(n, left ++ more), readVarint_append inner more, ?_⟩
    split at small
    · rename_i within
      cases small
      rw [dif_pos within]
    · cases small

/-- One of `count` numbered cases, written as a 32-bit integer. -/
def index (count : Nat) (small : count ≤ 2 ^ 32) : Codec (Fin count) :=
  varint count 5 (by decide) (Nat.le_trans small (by decide))

def u32 : Codec U32 := varint (2 ^ 32) 5 (by decide) (by decide)

def u64 : Codec U64 := varint (2 ^ 64) 10 (by decide) (by decide)

def u128 : Codec U128 := varint (2 ^ 128) 19 (by decide) (by decide)

/-- One raw byte. -/
def byte : Codec (Fin 256) where
  encode value := [UInt8.ofNat value.val]
  decode
    | [] => none
    | first :: rest => some (⟨first.toNat, first.toNat_lt⟩, rest)
  decode_encode value rest := by simp
  decode_append := by
    intro bytes value rest read more
    cases bytes with
    | nil => cases read
    | cons first later =>
        cases read
        rfl

/-- One byte, zero or one. -/
def bool : Codec Bool where
  encode value := [if value then 1 else 0]
  decode
    | 0 :: rest => some (false, rest)
    | 1 :: rest => some (true, rest)
    | _ => none
  decode_encode value rest := by cases value <;> rfl
  decode_append := by
    intro bytes value rest read more
    split at read
    · cases read
      rfl
    · cases read
      rfl
    · cases read

section Combinators

variable {α β : Type} {count width : Nat} {codec : Codec α}

/-- Two values, one after the other. -/
def pair (first : Codec α) (second : Codec β) : Codec (α × β) where
  encode value := first.encode value.1 ++ second.encode value.2
  decode bytes := do
    let (a, rest) ← first.decode bytes
    let (b, rest) ← second.decode rest
    some ((a, b), rest)
  decode_encode value rest := by
    simp [List.append_assoc, first.decode_encode, second.decode_encode]
  decode_append := by
    intro bytes value rest read more
    simp only [Option.bind_eq_bind, Option.bind_eq_some_iff] at read ⊢
    obtain ⟨⟨a, mid⟩, inner, ⟨b, left⟩, outer, whole⟩ := read
    cases whole
    exact ⟨_, first.decode_append inner more, _, second.decode_append outer more, rfl⟩

/-- Another type with the same bytes. -/
def map (codec : Codec α) (pack : α → β) (unpack : β → α)
    (inverse : ∀ value, pack (unpack value) = value)
    : Codec β where
  encode value := codec.encode (unpack value)
  decode bytes := (codec.decode bytes).map fun read => (pack read.1, read.2)
  decode_encode value rest := by simp [codec.decode_encode, inverse]
  decode_append := by
    intro bytes value rest read more
    obtain ⟨⟨a, left⟩, inner, whole⟩ := Option.map_eq_some_iff.mp read
    cases whole
    rw [codec.decode_append inner more, Option.map_some]

/-- A marker byte, and the value if there is one. -/
def option (codec : Codec α) : Codec (Option α) where
  encode
    | none => [0]
    | some value => 1 :: codec.encode value
  decode
    | 0 :: rest => some (none, rest)
    | 1 :: rest => (codec.decode rest).map fun read => (some read.1, read.2)
    | _ => none
  decode_encode value rest := by
    cases value with
    | none => rfl
    | some value => simp [codec.decode_encode]
  decode_append := by
    intro bytes value rest read more
    split at read
    · cases read
      rfl
    · obtain ⟨⟨a, left⟩, inner, whole⟩ := Option.map_eq_some_iff.mp read
      cases whole
      simp [codec.decode_append inner more]
    · cases read

/-- The number of a variant and the payload that goes with it. Variant numbers are written
as 32-bit integers.
-/
def variant {count : Nat} (small : count ≤ 2 ^ 32) {payload : Fin count → Type}
    (codec : ∀ index, Codec (payload index))
    : Codec (Σ index, payload index) where
  encode value := (index count small).encode value.1 ++ (codec value.1).encode value.2
  decode bytes := do
    let (index, rest) ← (index count small).decode bytes
    let (value, rest) ← (codec index).decode rest
    some (⟨index, value⟩, rest)
  decode_encode value rest := by
    simp [List.append_assoc, (index count small).decode_encode,
      (codec value.1).decode_encode]
  decode_append := by
    intro bytes value rest read more
    simp only [Option.bind_eq_bind, Option.bind_eq_some_iff] at read ⊢
    obtain ⟨⟨tag, mid⟩, inner, ⟨fields, left⟩, outer, whole⟩ := read
    cases whole
    exact ⟨_, (index count small).decode_append inner more, _,
      (codec tag).decode_append outer more, rfl⟩

def writeMany (codec : Codec α) (values : List α) : Bytes :=
  values.flatMap codec.encode

def readMany (codec : Codec α) : (count : Nat) → Bytes → Option (List α × Bytes)
  | 0, bytes => some ([], bytes)
  | count + 1, bytes => do
      let (value, rest) ← codec.decode bytes
      let (values, rest) ← readMany codec count rest
      some (value :: values, rest)

theorem readMany_writeMany (codec : Codec α) (values : List α) (rest : Bytes)
    : codec.readMany values.length (codec.writeMany values ++ rest) = some (values, rest) := by
  induction values with
  | nil => rfl
  | cons value values ih =>
      simp only [writeMany] at ih
      simp [writeMany, readMany, List.append_assoc, codec.decode_encode, ih]

theorem readMany_append (codec : Codec α) {bytes : Bytes} {values : List α} {rest : Bytes}
    (read : codec.readMany count bytes = some (values, rest)) (more : Bytes)
    : codec.readMany count (bytes ++ more) = some (values, rest ++ more) := by
  induction count generalizing bytes values with
  | zero =>
      cases read
      rfl
  | succ count ih =>
      simp only [readMany, Option.bind_eq_bind, Option.bind_eq_some_iff] at read ⊢
      obtain ⟨⟨value, mid⟩, inner, ⟨later, left⟩, outer, whole⟩ := read
      cases whole
      exact ⟨_, codec.decode_append inner more, _, ih outer, rfl⟩

/-- A sequence behind its length. A length is a 64-bit integer, so a value of this codec is a
list that is short enough to have one.
-/
def list (codec : Codec α) : Codec { values : List α // values.length < 2 ^ 64 } where
  encode values := u64.encode ⟨values.1.length, values.2⟩ ++ codec.writeMany values.1
  decode bytes := do
    let (count, rest) ← u64.decode bytes
    let (values, rest) ← codec.readMany count.val rest
    if small : values.length < 2 ^ 64 then some (⟨values, small⟩, rest) else none
  decode_encode values rest := by
    simp only [List.append_assoc, u64.decode_encode, readMany_writeMany, values.2,
      Option.bind_eq_bind, Option.bind_some, dif_pos]
  decode_append := by
    intro bytes values rest read more
    simp only [Option.bind_eq_bind, Option.bind_eq_some_iff] at read ⊢
    obtain ⟨⟨count, mid⟩, inner, ⟨found, left⟩, outer, whole⟩ := read
    refine ⟨_, u64.decode_append inner more, _, codec.readMany_append outer more, ?_⟩
    split at whole
    · rename_i small
      cases whole
      rw [dif_pos small]
    · cases whole

/-- No value takes more than `width` bytes. -/
def AtMost (codec : Codec α) (width : Nat) : Prop :=
  ∀ value, (codec.encode value).length ≤ width

theorem atMost_u64 : u64.AtMost 10 :=
  fun value => length_writeVarint_le 10 value.val

theorem atMost_u128 : u128.AtMost 19 :=
  fun value => length_writeVarint_le 19 value.val

theorem AtMost.mono {wider : Nat} (small : codec.AtMost width) (wide : width ≤ wider)
    : codec.AtMost wider :=
  fun value => Nat.le_trans (small value) wide

theorem AtMost.pair {first : Codec α} {second : Codec β} {m n : Nat} (left : first.AtMost m)
    (right : second.AtMost n)
    : (first.pair second).AtMost (m + n) := by
  intro value
  have parts := Nat.add_le_add (left value.1) (right value.2)
  rwa [← List.length_append] at parts

theorem AtMost.map (small : codec.AtMost width) {pack : α → β} {unpack : β → α}
    (inverse : ∀ value, pack (unpack value) = value)
    : (codec.map pack unpack inverse).AtMost width :=
  fun value => small (unpack value)

theorem atMost_variant (few : count ≤ 2 ^ 32) {payload : Fin count → Type}
    {codec : ∀ index, Codec (payload index)} (small : ∀ index, (codec index).AtMost width)
    : (variant few codec).AtMost (5 + width) := by
  intro value
  have tag : ((index count few).encode value.1).length ≤ 5 := length_writeVarint_le 5 value.1.val
  have parts := Nat.add_le_add tag (small value.1 value.2)
  rwa [← List.length_append] at parts

end Combinators

end Codec

end Foundation
