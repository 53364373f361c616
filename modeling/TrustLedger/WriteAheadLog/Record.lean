import TrustLedger.WriteAheadLog.Error
import TrustLedger.Foundation.Crc32c
import TrustLedger.Foundation.Reader

/-! Binary record framing for the write-ahead log: a fixed header with magic, version, flags,
sequence number and payload length, the payload, and a CRC-32C trailer over both.
-/

namespace TrustLedger.WriteAheadLog

open Foundation

/-- First four bytes of every frame, the letters `LETW`. -/
def magic : U32 := ⟨Bytes.toNat [0x4C, 0x45, 0x54, 0x57], by decide⟩

/-- On-disk format version. -/
def version : UInt8 := 1

/-- Header length: magic, version, flags, seq, payload length. -/
def headerLen : Nat := 18

/-- Trailer length holding the frame checksum. -/
def trailerLen : Nat := 4

/-- Framing bytes added to every record. -/
def frameOverhead : Nat := headerLen + trailerLen

def defaultMaxPayloadLen : Nat := 256 * 1024

/-- Byte offset of the sequence number within a header. -/
def seqOffset : Nat := 6

/-- Byte offset of the payload length within a header. -/
def lenOffset : Nat := 14

/-- Size of the buffer the payload is read through. -/
def chunkLen : Nat := 64 * 1024

/-- A verified record replayed from the log. -/
structure Record where
  seq : U64
  payload : Bytes
  deriving DecidableEq, Repr

/-- Total framed length in bytes of a payload. -/
def frameLen (payloadLen : Nat) : Nat :=
  payloadLen + frameOverhead

def readU32Le (bytes : Bytes) (offset : Nat) : U32 :=
  Fin.ofNat _ (Bytes.toNat ((bytes.drop offset).take 4))

def readU64Le (bytes : Bytes) (offset : Nat) : U64 :=
  Fin.ofNat _ (Bytes.toNat ((bytes.drop offset).take 8))

/-- One step of a streaming scan. -/
inductive ScanStep where
  | record (seq : U64) (len : Nat) (payload : Option Bytes)
  | finished
  | broken
  deriving DecidableEq, Repr

/-- A computation over a byte source; an error keeps the source as it was left. -/
abbrev ReadM := EStateM IoError (Reader IoError)

/-- Read up to `want` bytes; fewer means the source ended. -/
def readUpto (want : Nat) : ReadM Bytes :=
  fun r => Reader.fill r.schedule r.bytes want

/-- Read and checksum the payload chunk by chunk; nothing when the source ends first. Each
round reads at least one byte, so `remaining` rounds are enough.
-/
def readPayload : (rounds remaining : Nat) → U32 → Bytes → ReadM (Option (U32 × Bytes))
  | 0, _, crc, payload => pure (some (crc, payload))
  | rounds + 1, remaining, crc, payload =>
      if remaining = 0 then pure (some (crc, payload))
      else do
        let got ← readUpto (min remaining chunkLen)
        if got.length = 0 then pure none
        else
          readPayload rounds (remaining - got.length) (crc32cAppend crc got) (payload ++ got)

/-- Read and verify the next frame. The payload is handed out only when asked for, but it is
read and checksummed either way.
-/
def nextRecord (maxPayloadLen : Nat) (fetchPayload : Bool) : ReadM ScanStep := do
  let head ← readUpto headerLen
  if head.length = 0 then return .finished
  if head.length < headerLen then return .broken
  if readU32Le head 0 ≠ magic ∨ head[4]? ≠ some version then return .broken
  -- the flags byte is not looked at
  let seq := readU64Le head seqOffset
  let len := (readU32Le head lenOffset).val
  if maxPayloadLen < len then return .broken
  match ← readPayload len len (crc32c head) [] with
  | none => return .broken
  | some (crc, payload) =>
      let trailer ← readUpto trailerLen
      if trailer.length < trailerLen then return .broken
      if crc ≠ readU32Le trailer 0 then return .broken
      return .record seq len (if fetchPayload then some payload else none)

/-- The header of a frame. The length field keeps the low 32 bits of the length. -/
def header (magic : U32) (version : UInt8) (seq : U64) (payloadLen : Nat) : Bytes :=
  Bytes.ofNat 4 magic.val ++ [version, 0] ++ Bytes.ofNat 8 seq.val ++ Bytes.ofNat 4 payloadLen

/-- Append a frame for any consumer of the layout. -/
def encodeFrameAppend (magic : U32) (version : UInt8) (seq : U64) (payload : Bytes)
    (maxPayloadLen : Nat) (dest : Bytes)
    : Except WalError Bytes :=
  if maxPayloadLen < payload.length then
    .error (.payloadTooLarge payload.length maxPayloadLen)
  else
    let covered := header magic version seq payload.length ++ payload
    .ok (dest ++ covered ++ Bytes.ofNat 4 (crc32c covered).val)

/-- Encode a frame into a buffer, which is cleared first. -/
def encodeFrameInto (magic : U32) (version : UInt8) (seq : U64) (payload : Bytes)
    (maxPayloadLen : Nat) (_dest : Bytes)
    : Except WalError Bytes :=
  encodeFrameAppend magic version seq payload maxPayloadLen []

def encodeInto (seq : U64) (payload : Bytes) (maxPayloadLen : Nat) (dest : Bytes)
    : Except WalError Bytes :=
  encodeFrameInto magic version seq payload maxPayloadLen dest

/-- Encode one record frame. -/
def encode (seq : U64) (payload : Bytes) (maxPayloadLen : Nat) : Except WalError Bytes :=
  encodeInto seq payload maxPayloadLen []

/-- Append one encoded record frame to `dest`. -/
def encodeAppend (seq : U64) (payload : Bytes) (maxPayloadLen : Nat) (dest : Bytes)
    : Except WalError Bytes :=
  encodeFrameAppend magic version seq payload maxPayloadLen dest

/-- Validate a complete frame of a layout with this magic and version; returns its sequence
number and payload length.
-/
def decodeFrameWith (magic : U32) (version : UInt8) (frame : Bytes) (maxPayloadLen : Nat)
    : Except WalError (U64 × Nat) := do
  let len := frame.length
  ensure (frameOverhead ≤ len) (.invalidHeader 0 .truncatedFrame)
  -- the offset reported from here on is the header's length, not a position in the file
  let offset := headerLen
  ensure (readU32Le frame 0 = magic) (.invalidHeader offset .badMagic)
  let actualVersion := frame[4]?.getD 0
  ensure (actualVersion = version) (.invalidHeader offset (.unsupportedVersion actualVersion))
  let payloadLen := (readU32Le frame lenOffset).val
  ensure (payloadLen ≤ maxPayloadLen) (.invalidHeader offset .payloadTooLarge)
  ensure (len = frameLen payloadLen) (.invalidHeader offset .truncatedFrame)
  let seq := readU64Le frame seqOffset
  let checksum := readU32Le frame (len - trailerLen)
  let computed := crc32c (frame.take (len - trailerLen))
  ensure (computed = checksum) (.checksumMismatch offset)
  return (seq, payloadLen)

def decodeFrame (frame : Bytes) (maxPayloadLen : Nat) : Except WalError (U64 × Nat) :=
  decodeFrameWith magic version frame maxPayloadLen

end TrustLedger.WriteAheadLog
