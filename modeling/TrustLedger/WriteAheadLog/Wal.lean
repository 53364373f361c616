import TrustLedger.WriteAheadLog.Record

/-! The write-ahead log handle over one append-only file. Every filesystem call takes its
outcome from an argument, so that each combination of failing calls is a run of the model.
-/

namespace TrustLedger.WriteAheadLog

open Foundation

-- The file

/-- The log file: its content and the position of the open handle. -/
structure File where
  bytes : Bytes
  cursor : Nat
  deriving DecidableEq, Repr

/-- Cut the file at `len`, or extend it with zeros up to there. -/
def File.setLen (f : File) (len : Nat) : File :=
  { f with bytes := f.bytes.take len ++ List.replicate (len - f.bytes.length) 0 }

def File.seek (f : File) (position : Nat) : File :=
  { f with cursor := position }

/-- Write at the cursor. A gap between the end of the file and the cursor reads as zeros. -/
def File.write (f : File) (data : Bytes) : File :=
  if data = [] then f
  else
    { bytes :=
        (f.setLen f.cursor).bytes ++ data ++ f.bytes.drop (f.cursor + data.length)
      cursor := f.cursor + data.length }

-- The handle

/-- Outcome of opening a log: where the caller resumes and what was discarded. -/
structure Recovery where
  nextSeq : U64
  truncatedBytes : Nat
  verifiedRecords : U64
  deriving DecidableEq, Repr

/-- Tunables for a log. -/
structure WalOptions where
  maxRecordPayloadLen : Nat := defaultMaxPayloadLen
  syncPerAppend : Bool := true
  deriving DecidableEq, Repr

/-- Write-ahead log over a single append-only file. -/
structure Wal where
  path : String
  file : File
  nextSeq : U64
  committedEnd : Nat
  options : WalOptions
  deriving DecidableEq, Repr

/-- A computation on a log handle; an error keeps the handle as it was left. -/
abbrev WalM := EStateM WalError Wal

/-- How the filesystem calls of an open go; the default is success. -/
structure OpenIo where
  opened : Option IoError := none
  locked : Option IoError := none
  schedule : List (ReadStep IoError) := []
  metadata : Option IoError := none
  setLen : Option IoError := none
  syncAll : Option IoError := none
  seek : Option IoError := none

/-- Report a failed call. -/
def reportIo {ε : Type} (outcome : Option IoError) (err : IoError → ε) : Except ε Unit :=
  match outcome with
  | none => .ok ()
  | some source => .error (err source)

/-- Progress of the recovery scan. -/
structure Scan where
  nextSeq : U64 := 0
  verifiedRecords : U64 := 0
  verifiedEnd : Nat := 0
  deriving DecidableEq, Repr

/-- Verify frames with contiguous sequence numbers until the first end or broken frame. Each
round consumes a whole frame, so one round per byte is more than enough.
-/
def scanLog (path : String) (maxPayloadLen : Nat)
    : (rounds : Nat) → Scan → Reader IoError → Except WalError Scan
  | 0, scan, _ => .ok scan
  | rounds + 1, scan, reader =>
      match nextRecord maxPayloadLen false reader with
      | .error source _ => .error (.io .readFrame path source)
      | .ok (.record seq len _) reader' =>
          if seq ≠ scan.nextSeq then
            .error (.seqMismatch scan.verifiedEnd seq scan.nextSeq)
          else
            scanLog path maxPayloadLen rounds
              ⟨scan.nextSeq + 1, scan.verifiedRecords + 1, scan.verifiedEnd + frameLen len⟩
              reader'
      -- a clean end and a broken frame both end the log here
      | .ok .finished _ => .ok scan
      | .ok .broken _ => .ok scan

/-- Open the file, take the lock, scan, and read the file's length. -/
def openScan (path : String) (options : WalOptions) (io : OpenIo) (disk : Bytes)
    : Except WalError Scan := do
  reportIo io.opened (.io .openFile path)
  reportIo io.locked (.locked path)
  let scan ← scanLog path options.maxRecordPayloadLen (disk.length + 1) {} ⟨disk, io.schedule⟩
  reportIo io.metadata (.io .metadata path)
  return scan

/-- Open and recover the log whose file holds `disk`, with the bytes left on disk. Anything
after the first broken frame is cut off; a valid frame with the wrong number is an error.
-/
def Wal.open (path : String) (options : WalOptions) (io : OpenIo) (disk : Bytes)
    : Except WalError (Wal × Recovery) × Bytes :=
  match openScan path options io disk with
  | .error err => (.error err, disk)
  | .ok scan =>
      let truncatedBytes := disk.length - scan.verifiedEnd
      let finish (kept : Bytes) : Except WalError (Wal × Recovery) × Bytes :=
        match reportIo io.seek (.io .seekEnd path) with
        | .error err => (.error err, kept)
        | .ok _ =>
            (.ok (⟨path, ⟨kept, scan.verifiedEnd⟩, scan.nextSeq, scan.verifiedEnd, options⟩,
              ⟨scan.nextSeq, truncatedBytes, scan.verifiedRecords⟩), kept)
      if 0 < truncatedBytes then
        match reportIo io.setLen (.io .setLen path) with
        | .error err => (.error err, disk)
        | .ok _ =>
            let cut := (File.setLen ⟨disk, 0⟩ scan.verifiedEnd).bytes
            match reportIo io.syncAll (.io .syncAll path) with
            | .error err => (.error err, cut)
            | .ok _ => finish cut
      else finish disk

-- Appending

/-- How the filesystem calls of an append go; the default is success. A failing write has
written the given number of bytes.
-/
structure AppendIo where
  write : Option (Nat × IoError) := none
  sync : Option IoError := none
  setLen : Option IoError := none
  seek : Option IoError := none
  deriving DecidableEq, Repr

/-- Check every payload length and add up the frames, before anything is touched. -/
def validateLengths (maxPayloadLen : Nat) : List Bytes → Nat → Except WalError Nat
  | [], totalLen => .ok totalLen
  | payload :: rest, totalLen => do
      ensure (payload.length ≤ maxPayloadLen) (.payloadTooLarge payload.length maxPayloadLen)
      ensure (totalLen + frameLen payload.length < 2 ^ 64)
        (.payloadTooLarge (2 ^ 64 - 1) maxPayloadLen)
      validateLengths maxPayloadLen rest (totalLen + frameLen payload.length)

/-- Encode all payloads into one buffer, numbering them from `seq`. -/
def encodeBatch (maxPayloadLen : Nat)
    : List Bytes → U64 → Bytes → Except WalError (Bytes × U64)
  | [], seq, buffer => .ok (buffer, seq)
  | payload :: rest, seq, buffer => do
      let buffer ← encodeAppend seq payload maxPayloadLen buffer
      encodeBatch maxPayloadLen rest (seq + 1) buffer

/-- The frames of a batch and the sequence number after it. -/
def encodePayloads (w : Wal) (payloads : List Bytes) : Except WalError (Bytes × U64) := do
  let _ ← validateLengths w.options.maxRecordPayloadLen payloads 0
  encodeBatch w.options.maxRecordPayloadLen payloads w.nextSeq []

/-- After a failed write or sync: cut the file at the committed end and seek there. Neither
result is looked at.
-/
def Wal.repair (w : Wal) (io : AppendIo) : Wal :=
  let cut := if io.setLen.isNone then w.file.setLen w.committedEnd else w.file
  let back := if io.seek.isNone then cut.seek w.committedEnd else cut
  { w with file := back }

/-- Append a batch of payloads with a single write and a single sync. -/
def Wal.appendBatch (payloads : List Bytes) (io : AppendIo) : WalM (U64 × U64) := fun w =>
  if payloads = [] then .ok (w.nextSeq, w.nextSeq) w
  else
    match encodePayloads w payloads with
    | .error err => .error err w
    | .ok (buffer, endSeq) =>
        match io.write with
        | some (written, source) =>
            .error (.io .writeAll w.path source)
              (Wal.repair { w with file := w.file.write (buffer.take written) } io)
        | none =>
            -- a failed call keeps its number and committed end; only the file has moved
            let w' := { w with file := w.file.write buffer }
            match if w.options.syncPerAppend then io.sync else none with
            | some source => .error (.io .syncData w.path source) (w'.repair io)
            | none =>
                .ok (w.nextSeq, endSeq)
                  { w' with
                    committedEnd := w.committedEnd + buffer.length
                    nextSeq := endSeq }

/-- Append one payload and return its sequence number. -/
def Wal.append (payload : Bytes) (io : AppendIo) : WalM U64 := do
  let range ← Wal.appendBatch [payload] io
  return range.1

-- Streaming

/-- How the filesystem calls of a read go; the default is success. `leftAt` is where reading
ahead leaves the handle's cursor.
-/
structure StreamIo where
  seekStart : Option IoError := none
  schedule : List (ReadStep IoError) := []
  seekEnd : Option IoError := none
  dropSeek : Option IoError := none
  leftAt : Nat := 0

/-- A streaming record iterator over the log. -/
structure RecordStream where
  reader : Reader IoError
  path : String
  maxPayloadLen : Nat
  expectedNextSeq : U64
  committedEnd : Nat
  currentSeq : U64
  seekRestored : Bool
  finished : Bool
  deriving DecidableEq, Repr

/-- Create a streaming iterator from the start of the log. -/
def Wal.streamRecords (w : Wal) (io : StreamIo) : Except WalError RecordStream := do
  reportIo io.seekStart (.io .seekStart w.path)
  return ⟨⟨w.file.bytes, io.schedule⟩, w.path, w.options.maxRecordPayloadLen, w.nextSeq,
    w.committedEnd, 0, false, false⟩

/-- Move the cursor back to the end of the committed log, once. -/
def RecordStream.restoreCursor (s : RecordStream) (seek : Option IoError)
    : Except WalError RecordStream := do
  if s.seekRestored then return s
  else
    reportIo seek (.io .seekEnd s.path)
    return { s with seekRestored := true }

/-- The next record; after the last one the log has to end cleanly. -/
def RecordStream.next (s : RecordStream) (seekEnd : Option IoError)
    : Option (Except WalError Record) × RecordStream :=
  if s.finished then (none, s)
  else if s.currentSeq < s.expectedNextSeq then
    match nextRecord s.maxPayloadLen true s.reader with
    | .ok (.record seq _ (some payload)) reader =>
        if seq ≠ s.currentSeq then
          (some (.error .changedWhileOpen), { s with reader, finished := true })
        else
          (some (.ok ⟨seq, payload⟩), { s with reader, currentSeq := s.currentSeq + 1 })
    | .ok _ reader => (some (.error .changedWhileOpen), { s with reader, finished := true })
    | .error source reader =>
        (some (.error (.io .readRecord s.path source)), { s with reader, finished := true })
  else
    match nextRecord s.maxPayloadLen false s.reader with
    | .ok .finished reader =>
        let s' := { s with reader, finished := true }
        match s'.restoreCursor seekEnd with
        | .error err => (some (.error err), s')
        | .ok restored => (none, restored)
    | .ok _ reader => (some (.error .changedWhileOpen), { s with reader, finished := true })
    | .error source reader =>
        (some (.error (.io .readRecord s.path source)), { s with reader, finished := true })

/-- The handle after a stream over it is dropped, which restores the cursor if it can. -/
def Wal.afterStream (w : Wal) (s : RecordStream) (io : StreamIo) : Wal :=
  match s.restoreCursor io.dropSeek with
  | .ok _ => { w with file := w.file.seek w.committedEnd }
  | .error _ => { w with file := w.file.seek io.leftAt }

/-- Take at most `count` items from a stream. -/
def RecordStream.takeItems (seekEnd : Option IoError)
    : (count : Nat) → RecordStream → List (Except WalError Record) × RecordStream
  | 0, s => ([], s)
  | count + 1, s =>
      match s.next seekEnd with
      | (none, s') => ([], s')
      | (some item, s') =>
          let (items, final) := takeItems seekEnd count s'
          (item :: items, final)

/-- Open a stream, take at most `count` items and drop it. -/
def Wal.streamItems (count : Nat) (io : StreamIo) : WalM (List (Except WalError Record)) :=
  fun w =>
    match w.streamRecords io with
    | .error err => .error err w
    | .ok s =>
        let (items, final) := s.takeItems io.seekEnd count
        .ok items (w.afterStream final io)

/-- Collect the records of a stream up to its end or first error. A stream has at most one
item more than it expects records.
-/
def RecordStream.collect (seekEnd : Option IoError)
    : (rounds : Nat) → RecordStream → List Record
      → Except WalError (List Record) × RecordStream
  | 0, s, records => (.ok records, s)
  | rounds + 1, s, records =>
      match s.next seekEnd with
      | (none, s') => (.ok records, s')
      | (some (.ok record), s') => collect seekEnd rounds s' (records ++ [record])
      | (some (.error err), s') => (.error err, s')

/-- Replay the committed records. -/
def Wal.readRecords (io : StreamIo) : WalM (List Record) := fun w =>
  match w.streamRecords io with
  | .error err => .error err w
  | .ok s =>
      let (records, final) := s.collect io.seekEnd (s.expectedNextSeq.val + 1) []
      match records with
      | .ok records => .ok records (w.afterStream final io)
      | .error err => .error err (w.afterStream final io)

end TrustLedger.WriteAheadLog
