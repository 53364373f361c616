import TrustLedger.WriteAheadLog.Handle

/-! Appends whose filesystem calls fail. A failed write or sync is repaired by cutting the file
and seeking back, but neither result is looked at: what an acknowledged append is worth then
depends on where the cursor stands and on what is left behind the committed end.
-/

namespace TrustLedger.WriteAheadLog

open Foundation

/-- One append call with the outcomes of its filesystem calls. -/
structure AppendCall where
  batch : List Bytes
  io : AppendIo
  deriving DecidableEq, Repr

/-- A handle in use, with what was acknowledged on it and how the last call went. -/
structure Progress where
  acknowledged : List Bytes
  lastOk : Bool
  wal : Wal
  deriving DecidableEq, Repr

def AppendCall.run (c : AppendCall) (p : Progress) : Progress :=
  match Wal.appendBatch c.batch c.io p.wal with
  | .ok _ w => ⟨p.acknowledged ++ c.batch, true, w⟩
  | .error _ w => ⟨p.acknowledged, false, w⟩

/-- Make the calls in order on one handle. -/
def runAppends (calls : List AppendCall) (p : Progress) : Progress :=
  calls.foldl (fun p c => c.run p) p

/-- A freshly opened handle on a log that holds `history`. -/
def Progress.start (path : String) (options : WalOptions) (history : List Bytes) : Progress :=
  ⟨history, true, Wal.holding path options history⟩

variable {f : File} {n : Nat} {options : WalOptions} {p : Progress} {calls : List AppendCall}

theorem File.write_keeps (data : Bytes) (before : n ≤ f.cursor) (within : n ≤ f.bytes.length)
    : (f.write data).bytes.take n = f.bytes.take n := by
  unfold File.write
  split
  · rfl
  · simp only [File.setLen]
    rw [List.append_assoc, List.append_assoc, List.take_append_of_le_length, List.take_take,
      Nat.min_eq_left before]
    rw [List.length_take]
    omega

theorem File.le_write_cursor (f : File) (data : Bytes) : f.cursor ≤ (f.write data).cursor := by
  unfold File.write
  split
  · exact Nat.le_refl _
  · exact Nat.le_add_right _ _

theorem File.setLen_bytes (within : n ≤ f.bytes.length) : (f.setLen n).bytes = f.bytes.take n := by
  simp [File.setLen, Nat.sub_eq_zero_of_le within]

/-- The committed part of the file holds the acknowledged payloads, and the handle's counters
and cursor agree with it. What lies behind the committed end is left open.
-/
structure Committed (w : Wal) (acknowledged : List Bytes) : Prop where
  kept : w.file.bytes.take w.committedEnd = diskOf acknowledged
  committedEnd : w.committedEnd = framedLen acknowledged
  past : w.committedEnd ≤ w.file.cursor
  nextSeq : w.nextSeq = seqAfter 0 acknowledged.length
  fits : Fits w.options.maxRecordPayloadLen acknowledged

namespace Committed

variable {w : Wal} {acknowledged : List Bytes}

theorem within (committed : Committed w acknowledged) : w.committedEnd ≤ w.file.bytes.length := by
  have length := congrArg List.length committed.kept
  rw [List.length_take, length_diskOf, ← committed.committedEnd] at length
  omega

theorem split (committed : Committed w acknowledged)
    : w.file.bytes = diskOf acknowledged ++ w.file.bytes.drop w.committedEnd := by
  rw [← committed.kept, List.take_append_drop]

theorem holding {path : String} {options : WalOptions}
    (fits : Fits options.maxRecordPayloadLen acknowledged)
    : Committed (Wal.holding path options acknowledged) acknowledged := by
  refine ⟨?_, rfl, Nat.le_refl _, rfl, fits⟩
  exact List.take_of_length_le (Nat.le_of_eq (length_diskOf acknowledged))

theorem write (committed : Committed w acknowledged) (data : Bytes)
    : Committed { w with file := w.file.write data } acknowledged where
  kept := (File.write_keeps data committed.past committed.within).trans committed.kept
  committedEnd := committed.committedEnd
  past := Nat.le_trans committed.past (File.le_write_cursor _ _)
  nextSeq := committed.nextSeq
  fits := committed.fits

theorem repair (committed : Committed w acknowledged) (io : AppendIo)
    : Committed (w.repair io) acknowledged := by
  have cut : ∀ f : File, f = w.file.setLen w.committedEnd ∨ f = w.file
      → f.bytes.take w.committedEnd = diskOf acknowledged ∧ w.committedEnd ≤ f.cursor := by
    rintro f (rfl | rfl)
    · rw [File.setLen_bytes committed.within, List.take_take, Nat.min_self]
      exact ⟨committed.kept, committed.past⟩
    · exact ⟨committed.kept, committed.past⟩
  have kept := cut (if io.setLen.isNone then w.file.setLen w.committedEnd else w.file) (by
    split
    · exact .inl rfl
    · exact .inr rfl)
  unfold Wal.repair
  refine ⟨?_, committed.committedEnd, ?_, committed.nextSeq, committed.fits⟩
  · simp only
    split
    · exact kept.1
    · exact kept.1
  · simp only
    split
    · exact Nat.le_refl _
    · exact kept.2

/-- An append written at the committed end extends the committed part by its batch. -/
theorem append (committed : Committed w acknowledged) {batch : List Bytes}
    (within : ∀ payload ∈ batch, payload.length ≤ w.options.maxRecordPayloadLen)
    (nonempty : batch ≠ []) (aligned : w.file.cursor = w.committedEnd)
    : Committed (w.appended batch) (acknowledged ++ batch) := by
  have data : (logBytes (numbered w.nextSeq batch)).length = framedLen batch :=
    length_logBytes w.nextSeq batch
  have some : logBytes (numbered w.nextSeq batch) ≠ [] := by
    intro empty
    rw [empty] at data
    have bound := length_le_framedLen batch
    have positive := List.length_pos_iff.mpr nonempty
    rw [List.length_nil] at data
    omega
  refine ⟨?_, ?_, ?_, ?_, committed.fits.append within⟩
  · have front : (w.file.setLen w.file.cursor).bytes = diskOf acknowledged := by
      rw [aligned, File.setLen_bytes committed.within, committed.kept]
    have frontLength : (diskOf acknowledged).length = w.committedEnd := by
      rw [length_diskOf, committed.committedEnd]
    simp only [Wal.appended, File.write, if_neg some, front]
    rw [diskOf_append, ← committed.nextSeq]
    exact List.take_left' (by rw [List.length_append, frontLength, data])
  · rw [framedLen_append, ← committed.committedEnd]
    rfl
  · simp only [Wal.appended, File.write, if_neg some, data, aligned]
    exact Nat.le_refl _
  · rw [List.length_append, ← seqAfter_add, ← committed.nextSeq]
    rfl

end Committed

/-- If the call is acknowledged and writes anything, it writes at the committed end. -/
def AppendCall.Aligned (c : AppendCall) (w : Wal) : Prop :=
  c.batch ≠ [] → (∃ range w', Wal.appendBatch c.batch c.io w = .ok range w')
    → w.file.cursor = w.committedEnd

/-- Every acknowledged call of the run is aligned where it is made. -/
def AlignedRun : List AppendCall → Progress → Prop
  | [], _ => True
  | c :: rest, p => c.Aligned p.wal ∧ AlignedRun rest (c.run p)

/-- An aligned call, acknowledged or not, keeps the committed part right. -/
theorem AppendCall.run_committed {c : AppendCall} (committed : Committed p.wal p.acknowledged)
    (same : p.wal.options = options) (aligned : c.Aligned p.wal)
    : Committed (c.run p).wal (c.run p).acknowledged ∧ (c.run p).wal.options = options := by
  unfold AppendCall.run
  rcases appendBatch_outcome p.wal c.batch c.io with
    ⟨accepts, range, ran⟩ | ⟨err, ran⟩ | ⟨-, err, data, ran⟩
  · simp only [ran]
    by_cases empty : c.batch = []
    · rw [empty, Wal.appended_nil, List.append_nil]
      exact ⟨committed, same⟩
    · exact ⟨committed.append accepts.within empty (aligned empty ⟨range, _, ran⟩), same⟩
  · simp only [ran]
    exact ⟨committed, same⟩
  · simp only [ran]
    exact ⟨(committed.write data).repair c.io, same⟩

theorem runAppends_committed (committed : Committed p.wal p.acknowledged)
    (same : p.wal.options = options) (aligned : AlignedRun calls p)
    : Committed (runAppends calls p).wal (runAppends calls p).acknowledged
      ∧ (runAppends calls p).wal.options = options := by
  induction calls generalizing p with
  | nil => exact ⟨committed, same⟩
  | cons c rest ih =>
      obtain ⟨next, same'⟩ := c.run_committed committed same aligned.1
      exact ih next same' aligned.2

/-- A run whose failed calls are all repaired keeps the handle exactly on what it
acknowledged.
-/
theorem runAppends_repaired (path : String) (options : WalOptions)
    (repairs : ∀ c ∈ calls, c.io.Repairs)
    (settled : p.wal = Wal.holding path options p.acknowledged)
    (fits : Fits options.maxRecordPayloadLen p.acknowledged)
    : (runAppends calls p).wal = Wal.holding path options (runAppends calls p).acknowledged
      ∧ Fits options.maxRecordPayloadLen (runAppends calls p).acknowledged := by
  induction calls generalizing p with
  | nil => exact ⟨settled, fits⟩
  | cons c rest ih =>
      have later : ∀ c ∈ rest, c.io.Repairs :=
        fun other member => repairs other (List.mem_cons_of_mem _ member)
      rcases appendBatch_repairs path options p.acknowledged (repairs c List.mem_cons_self)
        c.batch with
        ⟨range, ran, accepts⟩ | ⟨err, ran⟩
      · have step : c.run p
            = ⟨p.acknowledged ++ c.batch, true,
                Wal.holding path options (p.acknowledged ++ c.batch)⟩ := by
          simp only [AppendCall.run, settled, ran]
        rw [runAppends, List.foldl_cons, step]
        exact ih later rfl (fits.append accepts.within)
      · have step : c.run p
            = ⟨p.acknowledged, false, Wal.holding path options p.acknowledged⟩ := by
          simp only [AppendCall.run, settled, ran]
        rw [runAppends, List.foldl_cons, step]
        exact ih later rfl fits

/-- A valid frame right behind the payloads spoils their exact recovery: the open fails on its
number, or keeps its bytes.
-/
theorem RecoversExactly.stops {path : String} {io : OpenIo} {payloads : List Bytes} {tail : Bytes}
    (succeeds : io.Succeeds) (fits : Fits options.maxRecordPayloadLen payloads)
    (exact' : RecoversExactly path options io (diskOf payloads ++ tail) payloads)
    : Stops options.maxRecordPayloadLen tail := by
  intro seq payload valid
  obtain ⟨w, recovery, opened, -, -, remainder, -, -⟩ := exact'
  obtain ⟨reader, rounds, reliable, left, scan⟩ :=
    openScan_framesAt path succeeds (framesAt_logBytes fits 0 tail)
  obtain ⟨found, scanned, truncated⟩ := Wal.open_scanned opened
  have complete := valid.complete
  have overhead : 0 < frameLen payload.length := Nat.lt_add_left _ (by decide)
  rw [List.length_append, length_diskOf] at remainder truncated
  rw [← left] at valid
  rw [← diskOf, scanned] at scan
  obtain ⟨reader', -, ran, -⟩ :=
    nextRecord_reliable reliable options.maxRecordPayloadLen false
  have step : scanFrame options.maxRecordPayloadLen false reader.bytes
      = .record seq payload.length none :=
    scanFrame_eq_record.mpr ⟨payload, valid, rfl, rfl⟩
  rw [step] at ran
  simp only [scanLog, ran] at scan
  -- a foreign number is an error, the expected one moves the verified end past the payloads
  split at scan
  · cases scan
  · have further := scanLog_verifiedEnd scan.symm
    simp only at further
    omega

/-- After any run of appends on one handle: when every failed call was repaired, reopening
recovers exactly the acknowledged payloads; and when every acknowledged call wrote at the
committed end, it does so exactly if no valid frame stands behind that end. File lengths are
64-bit numbers.
-/
theorem acknowledged_recover_iff {path : String} {options : WalOptions} {history : List Bytes}
    {calls : List AppendCall} {io : OpenIo} {p : Progress}
    (fits : Fits options.maxRecordPayloadLen history) (succeeds : io.Succeeds)
    (ran : runAppends calls (.start path options history) = p)
    (small : p.wal.file.bytes.length < 2 ^ 64)
    : ((∀ c ∈ calls, c.io.Repairs)
        → RecoversExactly path options io p.wal.file.bytes p.acknowledged)
      ∧ (AlignedRun calls (.start path options history)
        → (RecoversExactly path options io p.wal.file.bytes p.acknowledged
          ↔ Stops options.maxRecordPayloadLen
              (p.wal.file.bytes.drop p.wal.committedEnd))) := by
  subst ran
  constructor
  · intro repairs
    obtain ⟨settled, fits'⟩ :=
      runAppends_repaired path options (p := .start path options history) repairs rfl fits
    rw [settled] at small ⊢
    have count := length_le_framedLen
      (runAppends calls (.start path options history)).acknowledged
    have length := length_diskOf (runAppends calls (.start path options history)).acknowledged
    have exact' := recoversExactly_diskOf path succeeds fits' (stops_nil _)
      (Nat.lt_of_le_of_lt (count.trans length.ge) small)
    rwa [List.append_nil] at exact'
  · intro aligned
    obtain ⟨committed, same⟩ :=
      runAppends_committed (p := .start path options history) (Committed.holding fits) rfl
        aligned
    generalize runAppends calls (.start path options history) = p at *
    have fits' := committed.fits
    rw [same] at fits'
    have count : p.acknowledged.length < 2 ^ 64 := by
      have bound := length_le_framedLen p.acknowledged
      have within := committed.within
      rw [committed.committedEnd] at within
      omega
    rw [committed.split]
    constructor
    · intro exact'
      have stops := exact'.stops succeeds fits'
      rwa [← committed.split]
    · intro stops
      rw [← committed.split] at stops
      exact recoversExactly_diskOf path succeeds fits' stops count

/-- Two records are written in one batch, the sync fails, and so does the repair's cut. The
next append is acknowledged; it overwrites the first of the two and leaves the second.
-/
def unrepairedCalls : List AppendCall :=
  [⟨[[1], [2]], { sync := some ⟨"disk"⟩, setLen := some ⟨"disk"⟩ }⟩, ⟨[[3]], {}⟩]

/-- The last call is acknowledged, and reopening recovers a record of the failed call. -/
theorem failed_record_reappears
    : (runAppends unrepairedCalls (.start "ledger.wal" {} [])).lastOk = true
      ∧ (runAppends unrepairedCalls (.start "ledger.wal" {} [])).acknowledged = [[3]]
      ∧ ¬ RecoversExactly "ledger.wal" {} {}
          (runAppends unrepairedCalls (.start "ledger.wal" {} [])).wal.file.bytes [[3]]
      ∧ ((Wal.open "ledger.wal" {} {}
            (runAppends unrepairedCalls
              (.start "ledger.wal" {} [])).wal.file.bytes).1.toOption.bind
          fun opened =>
            match Wal.readRecords {} opened.1 with
            | .ok records _ => some records
            | .error _ _ => none)
        = some [⟨0, [3]⟩, ⟨1, [2]⟩] := by
  refine ⟨by decide +kernel, by decide +kernel, ?_, by decide +kernel⟩
  rintro ⟨w, recovery, opened, count, -⟩
  have two : ((Wal.open "ledger.wal" {} {}
      (runAppends unrepairedCalls (.start "ledger.wal" {} [])).wal.file.bytes).1.toOption.map
        fun opened => opened.2.nextSeq.val) = some 2 := by
    decide +kernel
  rw [opened] at two
  have same : recovery.nextSeq.val = 2 := Option.some.inj two
  rw [same] at count
  cases count

/-- A failed sync whose repair succeeds leaves no trace of its batch. -/
theorem repaired_call_recovers
    : RecoversExactly "ledger.wal" {} {}
        (runAppends [⟨[[1], [2]], { sync := some ⟨"disk"⟩ }⟩, ⟨[[3]], {}⟩]
          (.start "ledger.wal" {} [])).wal.file.bytes
        [[3]] := by
  have exact' :=
    (@acknowledged_recover_iff "ledger.wal" {} []
      [⟨[[1], [2]], { sync := some ⟨"disk"⟩ }⟩, ⟨[[3]], {}⟩] {} _
      ⟨by simp, by decide⟩
      openIo_succeeds
      rfl (by decide +kernel)).1
  have acknowledged
      : (runAppends [⟨[[1], [2]], { sync := some ⟨"disk"⟩ }⟩, ⟨[[3]], {}⟩]
          (.start "ledger.wal" {} [])).acknowledged = [[3]] := by
    decide +kernel
  rw [acknowledged] at exact'
  apply exact'
  intro c member
  exact .inr (by
    simp only [List.mem_cons, List.not_mem_nil, or_false] at member
    rcases member with rfl | rfl <;> exact ⟨rfl, rfl⟩)

end TrustLedger.WriteAheadLog
