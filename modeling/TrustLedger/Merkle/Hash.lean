import TrustLedger.Foundation.Bytes
import TrustLedger.Foundation.Fallible
import TrustLedger.Foundation.MountainRange

/-! Hashes with domain separation, over a 32-byte hash function on byte strings. The function is a
parameter: where a result needs collision resistance, it asks for it on the strings that are hashed.
-/

namespace TrustLedger.Merkle

open Foundation

/-- A 32-byte hash. -/
@[ext] structure Hash32 where
  bytes : Bytes
  size : bytes.length = 32
  deriving DecidableEq

/-- All-zero hash, the root of an empty tree. -/
def Hash32.zero : Hash32 :=
  ⟨List.replicate 32 0, List.length_replicate⟩

def hexByte (byte : UInt8) : List Char :=
  [Nat.digitChar (byte.toNat / 16), Nat.digitChar (byte.toNat % 16)]

/-- The lowercase hexadecimal text of a hash. -/
def Hash32.toHex (hash : Hash32) : String :=
  String.ofList (hash.bytes.flatMap hexByte)

/-- Why a text is not the hexadecimal text of a hash. -/
inductive HexError where
  | invalidLength (length : Nat)
  | invalidCharacter (char : Char) (index : Nat)
  deriving DecidableEq

def HexError.text : HexError → String
  | .invalidLength length => s!"invalid hex length: expected 64 characters, got {length}"
  | .invalidCharacter char index => s!"invalid hex character '{char}' at index {index}"

/-- The value of one hexadecimal digit, in either case. -/
def decodeHexNibble (byte : UInt8) (index : Nat) : Except HexError UInt8 :=
  if 0x30 ≤ byte ∧ byte ≤ 0x39 then
    .ok (byte - 0x30)
  else if 0x61 ≤ byte ∧ byte ≤ 0x66 then
    .ok (byte - 0x61 + 10)
  else if 0x41 ≤ byte ∧ byte ≤ 0x46 then
    .ok (byte - 0x41 + 10)
  else
    .error (.invalidCharacter (Char.ofNat byte.toNat) index)

/-- Read two digits for each byte; `index` is where the input starts in the whole text. -/
def decodeHexPairs : (index : Nat) → Bytes → Except HexError Bytes
  | index, hi :: lo :: rest => do
      let hi ← decodeHexNibble hi index
      let lo ← decodeHexNibble lo (index + 1)
      let bytes ← decodeHexPairs (index + 2) rest
      return (hi <<< 4 ||| lo) :: bytes
  | _, _ => return []

theorem length_decodeHexPairs {index : Nat} {input bytes : Bytes}
    (decoded : decodeHexPairs index input = .ok bytes)
    : bytes.length = input.length / 2 := by
  induction index, input using decodeHexPairs.induct generalizing bytes with
  | case1 index hi lo rest ih =>
      rw [decodeHexPairs] at decoded
      obtain ⟨high, -, decoded⟩ := bind_eq_ok.mp decoded
      obtain ⟨low, -, decoded⟩ := bind_eq_ok.mp decoded
      obtain ⟨behind, further, made⟩ := bind_eq_ok.mp decoded
      cases made
      simp only [List.length_cons, ih further]
      omega
  | case2 input index short =>
      match input with
      | [] | [_] =>
          cases decoded
          simp
      | hi :: lo :: rest => exact absurd rfl (short hi lo rest)

/-- The bytes of a text. -/
def textBytes (text : String) : Bytes :=
  text.toByteArray.data.toList

/-- Parse the hexadecimal text of a hash. -/
def Hash32.fromHex (text : String) : Except HexError Hash32 :=
  let input := textBytes text
  if length : input.length = 64 then
    match decoded : decodeHexPairs 0 input with
    | .error error => .error error
    | .ok bytes => .ok ⟨bytes, by rw [length_decodeHexPairs decoded, length]⟩
  else
    .error (.invalidLength input.length)

/-- The byte of a digit's character. -/
def digitByte (digit : Nat) : UInt8 :=
  (Nat.digitChar digit).val.toUInt8

theorem utf8EncodeChar_digitChar {digit : Nat} (small : digit < 16)
    : String.utf8EncodeChar (Nat.digitChar digit) = [digitByte digit] := by
  refine String.utf8EncodeChar_eq_singleton ?_
  have ascii : ∀ n : Fin 16, (Nat.digitChar n).utf8Size = 1 := by decide
  exact ascii ⟨digit, small⟩

theorem decodeHexNibble_digitByte {digit : Nat} (small : digit < 16) (index : Nat)
    : decodeHexNibble (digitByte digit) index = .ok (UInt8.ofNat digit) := by
  interval_cases digit <;> rfl

theorem nibbles_eq (byte : UInt8)
    : UInt8.ofNat (byte.toNat / 16) <<< 4 ||| UInt8.ofNat (byte.toNat % 16) = byte := by
  have all : ∀ n : Fin 256,
      UInt8.ofNat (n.val / 16) <<< 4 ||| UInt8.ofNat (n.val % 16) = UInt8.ofNat n.val := by
    decide +kernel
  have here := all ⟨byte.toNat, byte.toNat_lt⟩
  rwa [UInt8.ofNat_toNat] at here

theorem utf8Encode_hexByte (byte : UInt8)
    : (hexByte byte).flatMap String.utf8EncodeChar
      = [digitByte (byte.toNat / 16), digitByte (byte.toNat % 16)] := by
  have high : byte.toNat / 16 < 16 := Nat.div_lt_of_lt_mul byte.toNat_lt
  have low : byte.toNat % 16 < 16 := Nat.mod_lt _ (by decide)
  simp [hexByte, utf8EncodeChar_digitChar high, utf8EncodeChar_digitChar low]

theorem decodeHexPairs_hexByte (bytes : Bytes) (index : Nat)
    : decodeHexPairs index ((bytes.flatMap hexByte).flatMap String.utf8EncodeChar) = .ok bytes := by
  induction bytes generalizing index with
  | nil => rfl
  | cons byte rest ih =>
      have high : byte.toNat / 16 < 16 := Nat.div_lt_of_lt_mul byte.toNat_lt
      have low : byte.toNat % 16 < 16 := Nat.mod_lt _ (by decide)
      rw [List.flatMap_cons, List.flatMap_append, utf8Encode_hexByte, List.cons_append,
        List.cons_append, List.nil_append]
      simp only [decodeHexPairs, decodeHexNibble_digitByte high, decodeHexNibble_digitByte low, ih]
      exact congrArg (fun first => Except.ok (first :: rest)) (nibbles_eq byte)

theorem textBytes_toHex (hash : Hash32)
    : textBytes hash.toHex = (hash.bytes.flatMap hexByte).flatMap String.utf8EncodeChar := by
  rw [textBytes, Hash32.toHex, String.toByteArray_ofList, List.utf8Encode, List.data_toByteArray]

theorem length_textBytes_toHex (hash : Hash32)
    : (textBytes hash.toHex).length = 2 * hash.bytes.length := by
  rw [textBytes_toHex]
  induction hash.bytes with
  | nil => rfl
  | cons byte rest ih =>
      rw [List.flatMap_cons, List.flatMap_append, utf8Encode_hexByte, List.length_append, ih,
        List.length_cons]
      simp only [List.length_cons, List.length_nil]
      omega

theorem Hash32.fromHex_toHex (hash : Hash32) : fromHex hash.toHex = .ok hash := by
  have decoded : decodeHexPairs 0 (textBytes hash.toHex) = .ok hash.bytes := by
    rw [textBytes_toHex, decodeHexPairs_hexByte]
  have length : (textBytes hash.toHex).length = 64 := by
    rw [length_textBytes_toHex, hash.size]
  rw [fromHex, dif_pos length]
  split
  · rename_i error failed
    cases decoded.symm.trans failed
  · rename_i bytes read
    obtain rfl := Except.ok.inj (decoded.symm.trans read)
    rfl

def leafPrefix : UInt8 := 0x00
def nodePrefix : UInt8 := 0x01
def peakPrefix : UInt8 := 0x02

/-- The string hashed for a leaf. -/
def leafString (data : Bytes) : Bytes :=
  leafPrefix :: data

/-- The string hashed for an internal node. -/
def nodeString (left right : Hash32) : Bytes :=
  nodePrefix :: (left.bytes ++ right.bytes)

/-- The string hashed when two peaks are bagged. -/
def peakString (leftPeak rightPeak : Hash32) : Bytes :=
  peakPrefix :: (leftPeak.bytes ++ rightPeak.bytes)

section

variable (sha256 : Bytes → Hash32)

def hashLeaf (data : Bytes) : Hash32 :=
  sha256 (leafString data)

def combineNodes (left right : Hash32) : Hash32 :=
  sha256 (nodeString left right)

def combinePeaks (leftPeak rightPeak : Hash32) : Hash32 :=
  sha256 (peakString leftPeak rightPeak)

/-- Bag the peaks into one root, from the right. -/
def bagPeaks (peaks : List Hash32) : Hash32 :=
  match peaks.reverse with
  | [] => Hash32.zero
  | first :: rest => rest.foldl (fun acc peak => combinePeaks sha256 peak acc) first

theorem bagPeaks_eq_bag (peaks : List Hash32)
    : bagPeaks sha256 peaks = MountainRange.bag (combinePeaks sha256) Hash32.zero peaks := by
  induction peaks using List.reverseRecOn with
  | nil => rfl
  | append_singleton initial last ih =>
      rw [← MountainRange.foldl_reverse_eq_bag, bagPeaks, List.reverse_append]
      rfl

/-- The strings hashed while a list of peaks is bagged. -/
def bagStrings (peaks : List Hash32) : List Bytes :=
  (MountainRange.bagPairs (combinePeaks sha256) Hash32.zero peaks).map fun pair =>
    peakString pair.1 pair.2

end

theorem leafString_inj {d e : Bytes} (same : leafString d = leafString e) : d = e :=
  (List.cons.inj same).2

/-- Hashes have one length, so a pair of them can be read off its concatenation. -/
theorem Hash32.append_inj {a b c d : Hash32} (same : a.bytes ++ b.bytes = c.bytes ++ d.bytes)
    : a = c ∧ b = d := by
  obtain ⟨first, second⟩ := List.append_inj same (a.size.trans c.size.symm)
  exact ⟨Hash32.ext first, Hash32.ext second⟩

theorem nodeString_inj {a b c d : Hash32} (same : nodeString a b = nodeString c d)
    : a = c ∧ b = d :=
  Hash32.append_inj (List.cons.inj same).2

theorem peakString_inj {a b c d : Hash32} (same : peakString a b = peakString c d)
    : a = c ∧ b = d :=
  Hash32.append_inj (List.cons.inj same).2

/-- The hash function has no collision among the given strings and maps none of them to the zero
hash.
-/
structure CollisionFree (sha256 : Bytes → Hash32) (strings : Set Bytes) : Prop where
  inj : Set.InjOn sha256 strings
  nonzero : ∀ string ∈ strings, sha256 string ≠ Hash32.zero

instance CollisionFree.decidable (sha256 : Bytes → Hash32) (strings : List Bytes)
    : Decidable (CollisionFree sha256 { string | string ∈ strings }) :=
  decidable_of_iff
    ((∀ s ∈ strings, ∀ t ∈ strings, sha256 s = sha256 t → s = t)
      ∧ ∀ s ∈ strings, sha256 s ≠ Hash32.zero)
    ⟨fun check => ⟨fun s sMem t tMem same => check.1 s sMem t tMem same, check.2⟩,
      fun free => ⟨fun _ sMem _ tMem same => free.inj sMem tMem same, free.nonzero⟩⟩

/-- The leaf hashes of the given strings. -/
def leafHashes (sha256 : Bytes → Hash32) (strings : Set Bytes) : Set Hash32 :=
  { hash | ∃ data, leafString data ∈ strings ∧ hashLeaf sha256 data = hash }

/-- The pairs hashed into internal nodes by the given strings. -/
def nodePairs (strings : Set Bytes) : Set (Hash32 × Hash32) :=
  { pair | nodeString pair.1 pair.2 ∈ strings }

/-- The pairs hashed into bagged peaks by the given strings. -/
def peakPairs (strings : Set Bytes) : Set (Hash32 × Hash32) :=
  { pair | peakString pair.1 pair.2 ∈ strings }

/-- The hashes of trees: those of leaves and of internal nodes. -/
def treeHashes (sha256 : Bytes → Hash32) (strings : Set Bytes) : Set Hash32 :=
  { hash | hash ∈ leafHashes sha256 strings
    ∨ ∃ pair ∈ nodePairs strings, combineNodes sha256 pair.1 pair.2 = hash }

section Separation

variable {sha256 : Bytes → Hash32} {strings : Set Bytes}

/-- Two hashed strings with one hash start with the same prefix. -/
theorem CollisionFree.head_eq (free : CollisionFree sha256 strings) {s t : Bytes}
    (sMem : s ∈ strings) (tMem : t ∈ strings) (same : sha256 s = sha256 t)
    : s.head? = t.head? := by
  rw [free.inj sMem tMem same]

/-- The prefixes keep leaves and nodes apart. -/
theorem CollisionFree.treeSeparated (free : CollisionFree sha256 strings)
    : HashTree.Separated (combineNodes sha256) (leafHashes sha256 strings)
        (nodePairs strings) where
  combine_inj first second same := nodeString_inj (free.inj first second same)
  leaf_ne_combine leaf node same := by
    obtain ⟨data, hashed, rfl⟩ := leaf
    exact absurd (free.head_eq hashed node same)
      (by simp [leafString, nodeString, leafPrefix, nodePrefix])

/-- The prefixes keep bagged peaks apart from the trees, and nothing hashes to the empty root. -/
theorem CollisionFree.bagSeparated (free : CollisionFree sha256 strings)
    : MountainRange.Separated (combinePeaks sha256) Hash32.zero (treeHashes sha256 strings)
        (peakPairs strings) where
  join_inj first second same := peakString_inj (free.inj first second same)
  top_ne_join top peak same := by
    rcases top with ⟨data, hashed, rfl⟩ | ⟨pair, hashed, rfl⟩
    · exact absurd (free.head_eq hashed peak same)
        (by simp [leafString, peakString, leafPrefix, peakPrefix])
    · exact absurd (free.head_eq hashed peak same)
        (by simp [nodeString, peakString, nodePrefix, peakPrefix])
  join_ne_empty peak := free.nonzero _ peak
  top_ne_empty top := by
    rcases top with ⟨data, hashed, rfl⟩ | ⟨pair, hashed, rfl⟩
    · exact free.nonzero _ hashed
    · exact free.nonzero _ hashed

end Separation

/-- A polynomial in the bytes, to evaluate the functions above on short strings. -/
def polynomialHash (string : Bytes) : Hash32 where
  bytes := Bytes.ofNat 32 (string.foldl (fun acc byte => acc * 257 + byte.toNat + 1) 1)
  size := Bytes.length_ofNat 32 _

end TrustLedger.Merkle
