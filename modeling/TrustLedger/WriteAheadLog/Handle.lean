import TrustLedger.WriteAheadLog.Recovery

/-! What each call does on a handle that holds a list of payloads and whose cursor stands at
the end of the log, when the filesystem calls succeed.
-/

namespace TrustLedger.WriteAheadLog

open Foundation Wal

/-- A handle on a log that holds exactly these payloads, ready to append. -/
def Wal.holding (path : String) (options : WalOptions) (payloads : List Bytes) : Wal where
  path := path
  file := ⟨diskOf payloads, framedLen payloads⟩
  nextSeq := seqAfter 0 payloads.length
  committedEnd := framedLen payloads
  options := options

theorem length_diskOf (payloads : List Bytes) : (diskOf payloads).length = framedLen payloads :=
  length_logBytes 0 payloads

-- Opening

/-- Every filesystem call of an open succeeds; reads may be short or interrupted. -/
structure OpenIo.Succeeds (io : OpenIo) : Prop where
  opened : io.opened = none
  locked : io.locked = none
  reads : ∀ bytes, (Reader.mk bytes io.schedule).Reliable
  metadata : io.metadata = none
  setLen : io.setLen = none
  syncAll : io.syncAll = none
  seek : io.seek = none

theorem openIo_succeeds : ({} : OpenIo).Succeeds :=
  ⟨rfl, rfl, fun _ _ member => absurd member List.not_mem_nil, rfl, rfl, rfl, rfl⟩

variable {path : String} {options : WalOptions} {io : OpenIo} {disk rest tail : Bytes}
  {payloads batch : List Bytes} {w : Wal} {maxPayloadLen : Nat}

theorem openScan_eq (succeeds : io.Succeeds) (disk : Bytes)
    : openScan path options io disk
      = scanLog path options.maxRecordPayloadLen (disk.length + 1) {} ⟨disk, io.schedule⟩ := by
  simp only [openScan, succeeds.opened, succeeds.locked, succeeds.metadata, reportIo]
  cases scanLog path options.maxRecordPayloadLen (disk.length + 1) {} ⟨disk, io.schedule⟩ <;>
    rfl

/-- The scan of an open passes over valid frames and goes on with what follows them. -/
theorem openScan_framesAt (path : String) (succeeds : io.Succeeds)
    (frames : FramesAt options.maxRecordPayloadLen 0 disk payloads rest)
    : ∃ (reader : Reader IoError) (rounds : Nat), reader.Reliable
        ∧ reader.bytes = rest
        ∧ openScan path options io disk
          = scanLog path options.maxRecordPayloadLen (rounds + 1)
              ⟨seqAfter 0 payloads.length, seqAfter 0 payloads.length, framedLen payloads⟩
              reader := by
  have length := frames.length
  have bound := length_le_framedLen payloads
  have rounds : disk.length + 1 = payloads.length + (disk.length - payloads.length + 1) := by
    omega
  obtain ⟨reader, reliable, left, ran⟩ :=
    scanLog_framesAt path {} (succeeds.reads disk) frames (disk.length - payloads.length + 1)
  refine ⟨reader, disk.length - payloads.length, reliable, left, ?_⟩
  rw [openScan_eq succeeds, rounds, ran, Nat.zero_add]

/-- A successful scan decides the whole outcome of an open. -/
theorem Wal.open_eq (succeeds : io.Succeeds) {scan : Scan}
    (scanned : openScan path options io disk = .ok scan) (within : scan.verifiedEnd ≤ disk.length)
    : Wal.open path options io disk
      = (.ok (⟨path, ⟨disk.take scan.verifiedEnd, scan.verifiedEnd⟩, scan.nextSeq,
            scan.verifiedEnd, options⟩,
          ⟨scan.nextSeq, disk.length - scan.verifiedEnd, scan.verifiedRecords⟩),
        disk.take scan.verifiedEnd) := by
  simp only [Wal.open, scanned, succeeds.setLen, succeeds.syncAll, succeeds.seek, reportIo]
  split
  · simp [File.setLen, Nat.sub_eq_zero_of_le within]
  · -- nothing behind the verified end: the file is left as it is
    have whole : disk.take scan.verifiedEnd = disk := List.take_of_length_le (by omega)
    rw [whole]

/-- Behind every successful open stands the scan it made. -/
theorem Wal.open_scanned {recovery : Recovery}
    (opened : (Wal.open path options io disk).1 = .ok (w, recovery))
    : ∃ scan, openScan path options io disk = .ok scan
        ∧ recovery.truncatedBytes = disk.length - scan.verifiedEnd := by
  unfold Wal.open at opened
  cases scanned : openScan path options io disk with
  | error err =>
      rw [scanned] at opened
      cases opened
  | ok scan =>
      refine ⟨scan, rfl, ?_⟩
      simp only [scanned] at opened
      split at opened
      · split at opened
        · cases opened
        · split at opened
          · cases opened
          · split at opened
            · cases opened
            · cases opened
              rfl
      · split at opened
        · cases opened
        · cases opened
          rfl

/-- Opening a log that ends where no valid frame starts recovers it. -/
theorem Wal.open_framesAt (path : String) (succeeds : io.Succeeds)
    (frames : FramesAt options.maxRecordPayloadLen 0 disk payloads rest)
    (stops : Stops options.maxRecordPayloadLen rest)
    : Wal.open path options io disk
      = (.ok (⟨path, ⟨disk.take (framedLen payloads), framedLen payloads⟩,
            seqAfter 0 payloads.length, framedLen payloads, options⟩,
          ⟨seqAfter 0 payloads.length, rest.length, seqAfter 0 payloads.length⟩),
        disk.take (framedLen payloads)) := by
  have length := frames.length
  obtain ⟨reader, rounds, reliable, left, ran⟩ := openScan_framesAt path succeeds frames
  rw [scanLog_stops reliable (by rwa [left])] at ran
  rw [open_eq succeeds ran (by simp only; omega), length, Nat.add_sub_cancel_left]

/-- Opening recovers exactly the payloads, and cuts off what follows them. -/
theorem Wal.open_diskOf (path : String) (succeeds : io.Succeeds)
    (fits : Fits options.maxRecordPayloadLen payloads)
    (stops : Stops options.maxRecordPayloadLen tail)
    : Wal.open path options io (diskOf payloads ++ tail)
      = (.ok (Wal.holding path options payloads,
          ⟨seqAfter 0 payloads.length, tail.length, seqAfter 0 payloads.length⟩),
        diskOf payloads) := by
  have opened := open_framesAt path succeeds (framesAt_logBytes fits 0 tail) stops
  have kept : (diskOf payloads ++ tail).take (framedLen payloads) = diskOf payloads :=
    List.take_left' (length_diskOf payloads)
  rw [← diskOf, kept] at opened
  exact opened

-- Appending

/-- The size checks a batch has to pass. -/
structure Accepts (maxPayloadLen : Nat) (batch : List Bytes) : Prop where
  within : ∀ payload ∈ batch, payload.length ≤ maxPayloadLen
  total : framedLen batch < 2 ^ 64

instance (maxPayloadLen : Nat) (batch : List Bytes) : Decidable (Accepts maxPayloadLen batch) :=
  decidable_of_iff
    ((∀ payload ∈ batch, payload.length ≤ maxPayloadLen) ∧ framedLen batch < 2 ^ 64)
    ⟨fun ⟨within, total⟩ => ⟨within, total⟩, fun ⟨within, total⟩ => ⟨within, total⟩⟩

/-- The size checks pass exactly when every payload and the running total are small enough.
Witness: frame lengths are added up, so the last sum is the largest.
-/
theorem validateLengths_eq_ok {start total : Nat} (small : start < 2 ^ 64)
    : validateLengths maxPayloadLen batch start = .ok total
      ↔ (∀ payload ∈ batch, payload.length ≤ maxPayloadLen)
        ∧ start + framedLen batch < 2 ^ 64
        ∧ total = start + framedLen batch := by
  induction batch generalizing start with
  | nil =>
      simp only [validateLengths, framedLen, List.map_nil, List.sum_nil, Except.ok.injEq]
      grind
  | cons payload rest ih =>
      simp only [validateLengths, bind_eq_ok, ensure_eq_ok, exists_const, List.mem_cons,
        forall_eq_or_imp, framedLen, List.map_cons, List.sum_cons]
      constructor
      · rintro ⟨within, fits, passed⟩
        obtain ⟨others, bound, sum⟩ := (ih fits).mp passed
        simp only [framedLen] at bound sum
        exact ⟨⟨within, others⟩, by omega, by omega⟩
      · rintro ⟨⟨within, others⟩, bound, sum⟩
        have fits : start + frameLen payload.length < 2 ^ 64 := by omega
        refine ⟨within, fits, (ih fits).mpr ⟨others, ?_, ?_⟩⟩
        · simp only [framedLen]
          omega
        · simp only [framedLen]
          omega

theorem encodeBatch_eq_ok (within : ∀ payload ∈ batch, payload.length ≤ maxPayloadLen) (seq : U64)
    (buffer : Bytes)
    : encodeBatch maxPayloadLen batch seq buffer
      = .ok (buffer ++ logBytes (numbered seq batch), seqAfter seq batch.length) := by
  induction batch generalizing seq buffer with
  | nil => simp [encodeBatch, numbered, logBytes]
  | cons payload rest ih =>
      have first := encodeAppend_eq_ok seq (within payload List.mem_cons_self) buffer
      have later := ih (fun other member => within other (List.mem_cons_of_mem _ member))
        (seq + 1) (buffer ++ frame seq payload)
      simp only [encodeBatch, first, numbered, logBytes, List.flatMap_cons, Record.bytes,
        List.length_cons, ← seqAfter_succ, ← List.append_assoc]
      exact later

/-- Encoding an accepted batch gives the frames of its payloads, numbered on. -/
theorem encodePayloads_eq_ok (accepts : Accepts w.options.maxRecordPayloadLen batch)
    : encodePayloads w batch
      = .ok (logBytes (numbered w.nextSeq batch), seqAfter w.nextSeq batch.length) := by
  have passed : validateLengths w.options.maxRecordPayloadLen batch 0
      = .ok (0 + framedLen batch) :=
    (validateLengths_eq_ok (by decide)).mpr ⟨accepts.within, by simpa using accepts.total, rfl⟩
  simp only [encodePayloads, passed]
  exact encodeBatch_eq_ok accepts.within w.nextSeq []

theorem encodePayloads_rejected (rejected : ¬ Accepts w.options.maxRecordPayloadLen batch)
    : ∃ err, encodePayloads w batch = .error err := by
  cases checked : validateLengths w.options.maxRecordPayloadLen batch 0 with
  | ok total =>
      obtain ⟨within, bound, -⟩ := (validateLengths_eq_ok (by decide)).mp checked
      exact absurd ⟨within, by simpa using bound⟩ rejected
  | error err =>
      refine ⟨err, ?_⟩
      simp only [encodePayloads, checked]
      rfl

/-- A rejected batch leaves the handle and the file exactly as they were. -/
theorem appendBatch_rejected (rejected : ¬ Accepts w.options.maxRecordPayloadLen batch)
    (io : AppendIo)
    : ∃ err, appendBatch batch io w = .error err w := by
  have some : batch ≠ [] := by
    rintro rfl
    exact rejected ⟨by simp, by simp [framedLen]⟩
  obtain ⟨err, failed⟩ := encodePayloads_rejected rejected
  exact ⟨err, by simp only [appendBatch, if_neg some, failed]⟩

/-- Every filesystem call of an append that would be made succeeds. -/
def AppendIo.Succeeds (io : AppendIo) : Prop :=
  io.write = none ∧ io.sync = none

/-- The handle after an acknowledged append: its frames are written at the cursor. -/
def Wal.appended (w : Wal) (batch : List Bytes) : Wal :=
  { w with
    file := w.file.write (logBytes (numbered w.nextSeq batch))
    committedEnd := w.committedEnd + framedLen batch
    nextSeq := seqAfter w.nextSeq batch.length }

theorem Wal.appended_nil (w : Wal) : w.appended [] = w := by
  simp [Wal.appended, numbered, logBytes, File.write, framedLen]

/-- An accepted append whose calls succeed is acknowledged. -/
theorem appendBatch_accepted {io : AppendIo} (accepts : Accepts w.options.maxRecordPayloadLen batch)
    (succeeds : io.Succeeds)
    : appendBatch batch io w
      = .ok (w.nextSeq, seqAfter w.nextSeq batch.length) (w.appended batch) := by
  unfold appendBatch
  split
  · rename_i empty
    subst empty
    simp [appended_nil]
  · simp only [encodePayloads_eq_ok accepts, succeeds.1, succeeds.2, ite_self, length_logBytes,
      Wal.appended]

/-- An append is acknowledged with its frames written, rejected before anything is touched, or
fails in a write or sync and is repaired.
-/
theorem appendBatch_outcome (w : Wal) (batch : List Bytes) (io : AppendIo)
    : (Accepts w.options.maxRecordPayloadLen batch
        ∧ ∃ range, appendBatch batch io w = .ok range (w.appended batch))
      ∨ (∃ err, appendBatch batch io w = .error err w)
      ∨ (¬ io.Succeeds
        ∧ ∃ err data, appendBatch batch io w
          = .error err (Wal.repair { w with file := w.file.write data } io)) := by
  by_cases accepts : Accepts w.options.maxRecordPayloadLen batch
  · by_cases succeeds : io.Succeeds
    · exact .inl ⟨accepts, _, appendBatch_accepted accepts succeeds⟩
    by_cases empty : batch = []
    · subst empty
      exact .inl ⟨accepts, (w.nextSeq, w.nextSeq), by simp [appendBatch, appended_nil]⟩
    simp only [appendBatch, if_neg empty, encodePayloads_eq_ok accepts]
    cases io.write with
    | some failure => exact .inr (.inr ⟨succeeds, _, _, rfl⟩)
    | none =>
        cases if w.options.syncPerAppend then io.sync else none with
        | some source => exact .inr (.inr ⟨succeeds, _, _, rfl⟩)
        | none =>
            refine .inl ⟨accepts, (w.nextSeq, seqAfter w.nextSeq batch.length), ?_⟩
            simp only [length_logBytes, Wal.appended]
  · exact .inr (.inl (appendBatch_rejected accepts io))

theorem File.write_end {f : File} (atEnd : f.cursor = f.bytes.length) (data : Bytes)
    : f.write data = ⟨f.bytes ++ data, f.bytes.length + data.length⟩ := by
  unfold File.write
  split
  · rename_i empty
    subst empty
    obtain ⟨bytes, cursor⟩ := f
    simp only at atEnd
    simp [atEnd]
  · simp [File.setLen, atEnd]

theorem Wal.appended_holding (payloads batch : List Bytes)
    : (Wal.holding path options payloads).appended batch
      = Wal.holding path options (payloads ++ batch) := by
  simp only [Wal.appended, Wal.holding, seqAfter_add, List.length_append, framedLen_append,
    diskOf_append,
    File.write_end (f := ⟨diskOf payloads, framedLen payloads⟩) (length_diskOf payloads).symm,
    length_logBytes, length_diskOf]

theorem appendBatch_holding {io : AppendIo} (accepts : Accepts options.maxRecordPayloadLen batch)
    (succeeds : io.Succeeds)
    : appendBatch batch io (Wal.holding path options payloads)
      = .ok (seqAfter 0 payloads.length, seqAfter 0 (payloads ++ batch).length)
          (Wal.holding path options (payloads ++ batch)) := by
  rw [appendBatch_accepted accepts succeeds, appended_holding, List.length_append,
    ← seqAfter_add]
  rfl

/-- The calls of an append succeed, or its repair calls do. -/
def AppendIo.Repairs (io : AppendIo) : Prop :=
  io.Succeeds ∨ io.setLen = none ∧ io.seek = none

/-- Repairing after a write at the end of the log takes the write back. -/
theorem repair_holding {io : AppendIo} (setLen : io.setLen = none) (seek : io.seek = none)
    (data : Bytes)
    : Wal.repair
        { Wal.holding path options payloads with
          file := (Wal.holding path options payloads).file.write data }
        io
      = Wal.holding path options payloads := by
  have written : (Wal.holding path options payloads).file.write data
      = ⟨diskOf payloads ++ data, framedLen payloads + data.length⟩ := by
    rw [File.write_end (length_diskOf payloads).symm]
    simp only [Wal.holding, length_diskOf]
  have cut : (diskOf payloads ++ data).take (framedLen payloads) = diskOf payloads :=
    List.take_left' (length_diskOf payloads)
  have whole : framedLen payloads - (diskOf payloads ++ data).length = 0 := by
    rw [List.length_append, length_diskOf]
    omega
  rw [written]
  simp only [Wal.repair, setLen, seek, Option.isNone_none, if_true, File.setLen, File.seek,
    Wal.holding, cut, whole, List.replicate_zero, List.append_nil]

/-- A repaired append is acknowledged with all its frames in the log, or fails without a
trace.
-/
theorem appendBatch_repairs (path : String) (options : WalOptions) (payloads : List Bytes)
    {io : AppendIo} (repairs : io.Repairs) (batch : List Bytes)
    : (∃ range, appendBatch batch io (Wal.holding path options payloads)
          = .ok range (Wal.holding path options (payloads ++ batch))
        ∧ Accepts options.maxRecordPayloadLen batch)
      ∨ ∃ err, appendBatch batch io (Wal.holding path options payloads)
          = .error err (Wal.holding path options payloads) := by
  rcases appendBatch_outcome (Wal.holding path options payloads) batch io with
    ⟨accepts, range, acknowledged⟩ | ⟨err, rejected⟩ | ⟨failed, err, data, repaired⟩
  · rw [appended_holding] at acknowledged
    exact .inl ⟨range, acknowledged, accepts⟩
  · exact .inr ⟨err, rejected⟩
  · obtain ⟨setLen, seek⟩ := repairs.resolve_left failed
    rw [repair_holding setLen seek] at repaired
    exact .inr ⟨err, repaired⟩

-- Reading

/-- Every filesystem call of a read succeeds; reads may be short or interrupted. -/
structure StreamIo.Succeeds (io : StreamIo) : Prop where
  seekStart : io.seekStart = none
  reads : ∀ bytes, (Reader.mk bytes io.schedule).Reliable
  seekEnd : io.seekEnd = none
  dropSeek : io.dropSeek = none

theorem restoreCursor_succeeds (s : RecordStream) : ∃ s', s.restoreCursor none = .ok s' := by
  unfold RecordStream.restoreCursor
  split
  · exact ⟨_, rfl⟩
  · exact ⟨_, rfl⟩

theorem afterStream_holding {io : StreamIo} (succeeds : io.Succeeds) (s : RecordStream)
    : (Wal.holding path options payloads).afterStream s io
      = Wal.holding path options payloads := by
  obtain ⟨s', restored⟩ := restoreCursor_succeeds s
  simp only [afterStream, succeeds.dropSeek, restored]
  rfl

/-- A stream that still expects exactly the records in front of it yields them all and then
ends. The induction is on the payloads left, one item each.
-/
theorem collect_framesAt {rounds : Nat} {s : RecordStream} (enough : payloads.length < rounds)
    (reliable : s.reader.Reliable)
    (frames : FramesAt s.maxPayloadLen s.currentSeq s.reader.bytes payloads [])
    (expected : s.expectedNextSeq.val = s.currentSeq.val + payloads.length)
    (running : s.finished = false) (records : List Record)
    : ∃ s', s.collect none rounds records
        = (.ok (records ++ numbered s.currentSeq payloads), s') := by
  induction payloads generalizing rounds s records with
  | nil =>
      obtain ⟨rounds, rfl⟩ : ∃ n, rounds = n + 1 := ⟨rounds - 1, by simp at enough; omega⟩
      obtain ⟨reader', -, ran, -⟩ := nextRecord_reliable reliable s.maxPayloadLen false
      have ended : scanFrame s.maxPayloadLen false s.reader.bytes = .finished := by
        generalize s.reader.bytes = bytes at frames
        cases frames
        rfl
      have last : ¬ s.currentSeq < s.expectedNextSeq := by
        rw [Fin.lt_def, expected]
        simp
      rw [ended] at ran
      obtain ⟨s', restored⟩ :=
        restoreCursor_succeeds { s with reader := reader', finished := true }
      refine ⟨s', ?_⟩
      simp only [RecordStream.collect, RecordStream.next, running, last, ran, if_false,
        Bool.false_eq_true, restored, numbered, List.append_nil]
  | cons payload rest ih =>
      obtain ⟨rounds, rfl⟩ : ∃ n, rounds = n + 1 := ⟨rounds - 1, by omega⟩
      obtain ⟨reader', reliable', ran, left⟩ :=
        nextRecord_reliable reliable s.maxPayloadLen true
      cases frames with
      | cons valid behind =>
      have step : scanFrame s.maxPayloadLen true s.reader.bytes
          = .record s.currentSeq payload.length (some payload) :=
        scanFrame_eq_record.mpr ⟨payload, valid, rfl, rfl⟩
      have more : s.currentSeq < s.expectedNextSeq := by
        rw [Fin.lt_def, expected]
        simp
      -- the counter cannot wrap: the expected end is itself a 64-bit number
      have next : (s.currentSeq + 1).val = s.currentSeq.val + 1 := by
        have bound := s.expectedNextSeq.isLt
        rw [Fin.val_add]
        simp only [List.length_cons] at expected
        exact Nat.mod_eq_of_lt (by simp only [Fin.val_one]; omega)
      rw [step] at ran
      simp only [RecordStream.collect, RecordStream.next, running, more, ran, if_true,
        Bool.false_eq_true, if_false, ne_eq, not_true_eq_false]
      obtain ⟨s', collected⟩ :=
        ih
          (s := { s with reader := reader', currentSeq := s.currentSeq + 1, finished := false })
          (Nat.lt_of_succ_lt_succ enough) reliable' (left _ _ _ step ▸ behind)
          (by simp only [expected, next, List.length_cons]; omega)
          rfl (records ++ [⟨s.currentSeq, payload⟩])
      exact ⟨s', by simpa [numbered] using collected⟩

/-- Reading a log that consists of valid frames, as many as the handle expects, returns their
payloads with their numbers.
-/
theorem readRecords_framesAt {io : StreamIo}
    (frames : FramesAt w.options.maxRecordPayloadLen 0 w.file.bytes payloads [])
    (expected : w.nextSeq.val = payloads.length) (succeeds : io.Succeeds)
    : ∃ s, readRecords io w = .ok (numbered 0 payloads) (w.afterStream s io) := by
  have opened : w.streamRecords io
      = .ok ⟨⟨w.file.bytes, io.schedule⟩, w.path, w.options.maxRecordPayloadLen, w.nextSeq,
          w.committedEnd, 0, false, false⟩ := by
    simp only [streamRecords, succeeds.seekStart, reportIo]
    rfl
  obtain ⟨s, collected⟩ :=
    collect_framesAt
      (s := ⟨⟨w.file.bytes, io.schedule⟩, w.path, w.options.maxRecordPayloadLen, w.nextSeq,
          w.committedEnd, 0, false, false⟩)
      (Nat.lt_succ_self payloads.length) (succeeds.reads _) frames (by simp [expected]) rfl []
  refine ⟨s, ?_⟩
  simp only [readRecords, opened, expected, succeeds.seekEnd, collected, List.nil_append]

/-- Reading returns exactly the payloads with their numbers, and leaves the handle ready to
append.
-/
theorem readRecords_holding {io : StreamIo} (fits : Fits options.maxRecordPayloadLen payloads)
    (small : payloads.length < 2 ^ 64) (succeeds : io.Succeeds)
    : readRecords io (Wal.holding path options payloads)
      = .ok (numbered 0 payloads) (Wal.holding path options payloads) := by
  have frames := framesAt_logBytes fits 0 []
  rw [List.append_nil] at frames
  obtain ⟨s, read⟩ :=
    readRecords_framesAt (w := Wal.holding path options payloads) frames (seqAfter_zero_val small)
      succeeds
  rw [read, afterStream_holding succeeds]

-- Exact recovery

/-- Opening the file recovers exactly these payloads: the counts and the discarded remainder
are right, reading returns the payloads numbered from zero, and appends go on behind them.
-/
def RecoversExactly (path : String) (options : WalOptions) (io : OpenIo) (disk : Bytes)
    (payloads : List Bytes)
    : Prop :=
  ∃ w recovery,
    (Wal.open path options io disk).1 = .ok (w, recovery)
    ∧ recovery.nextSeq.val = payloads.length
    ∧ recovery.verifiedRecords.val = payloads.length
    ∧ framedLen payloads + recovery.truncatedBytes = disk.length
    ∧ (∀ readIo : StreamIo, readIo.Succeeds
      → ∃ w', readRecords readIo w = .ok (numbered 0 payloads) w')
    ∧ (∀ (batch : List Bytes) (appendIo : AppendIo),
      Accepts options.maxRecordPayloadLen batch → appendIo.Succeeds
      → ∃ range w', appendBatch batch appendIo w = .ok range w'
        ∧ range.1.val = payloads.length
        ∧ w'.file.bytes = diskOf (payloads ++ batch))

theorem recoversExactly_diskOf (path : String) (succeeds : io.Succeeds)
    (fits : Fits options.maxRecordPayloadLen payloads)
    (stops : Stops options.maxRecordPayloadLen tail) (small : payloads.length < 2 ^ 64)
    : RecoversExactly path options io (diskOf payloads ++ tail) payloads := by
  have count : (seqAfter 0 payloads.length).val = payloads.length := seqAfter_zero_val small
  refine ⟨Wal.holding path options payloads, _,
    congrArg Prod.fst (open_diskOf path succeeds fits stops), count, count, ?_, ?_, ?_⟩
  · rw [List.length_append, length_diskOf]
  · intro readIo reads
    exact ⟨_, readRecords_holding fits small reads⟩
  · intro batch appendIo accepts appends
    exact ⟨_, _, appendBatch_holding accepts appends, count, rfl⟩

end TrustLedger.WriteAheadLog
