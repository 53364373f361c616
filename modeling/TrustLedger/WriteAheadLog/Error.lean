import TrustLedger.Foundation.Machine

/-! Errors returned by the write-ahead log, with the texts they are shown as. -/

namespace TrustLedger.WriteAheadLog

open Foundation

/-- An operating system error, known by its text. -/
structure IoError where
  text : String
  deriving DecidableEq, Repr

/-- The filesystem operation an error names. -/
inductive IoOp where
  | openFile
  | readFrame
  | metadata
  | setLen
  | syncAll
  | seekEnd
  | writeAll
  | syncData
  | seekStart
  | readRecord
  deriving DecidableEq, Repr

def IoOp.text : IoOp → String
  | .openFile => "open"
  | .readFrame => "read_frame"
  | .metadata => "metadata"
  | .setLen => "set_len"
  | .syncAll => "sync_all"
  | .seekEnd => "seek_end"
  | .writeAll => "write_all"
  | .syncData => "sync_data"
  | .seekStart => "seek_start"
  | .readRecord => "read_record"

/-- Reason a record header was rejected. -/
inductive HeaderError where
  | badMagic
  | unsupportedVersion (version : UInt8)
  | payloadTooLarge
  | truncatedFrame
  deriving DecidableEq, Repr

def HeaderError.text : HeaderError → String
  | .badMagic => "frame magic does not match the wal layout"
  | .unsupportedVersion version =>
      "unsupported on-disk schema version " ++ toString version.toNat
  | .payloadTooLarge => "declared payload length exceeds the configured maximum"
  | .truncatedFrame => "frame extends past the end of the file"

/-- Errors returned by the write-ahead log and its snapshots. -/
inductive WalError where
  | io (op : IoOp) (path : String) (source : IoError)
  | locked (path : String) (source : IoError)
  | payloadTooLarge (actual max : Nat)
  | invalidHeader (offset : Nat) (kind : HeaderError)
  | seqMismatch (offset : Nat) (actual expected : U64)
  | checksumMismatch (offset : Nat)
  | changedWhileOpen
  deriving DecidableEq, Repr

/-- The text an error is displayed as. -/
def WalError.text : WalError → String
  | .io op path source =>
      "wal io failure during " ++ op.text ++ " on " ++ path ++ ": " ++ source.text
  | .locked path source =>
      "wal file " ++ path ++ " is locked by another process: " ++ source.text
  | .payloadTooLarge actual max =>
      "payload of " ++ toString actual ++ " bytes exceeds the maximum record length of "
        ++ toString max ++ " bytes"
  | .invalidHeader offset kind =>
      "record header at byte " ++ toString offset ++ " violates the wal layout: " ++ kind.text
  | .seqMismatch offset actual expected =>
      "record at byte " ++ toString offset ++ " has seq " ++ toString actual.val ++ " but "
        ++ toString expected.val ++ " was expected"
  | .checksumMismatch offset => "checksum mismatch at byte " ++ toString offset
  | .changedWhileOpen => "the wal file changed while open; re-open to recover"

end TrustLedger.WriteAheadLog
