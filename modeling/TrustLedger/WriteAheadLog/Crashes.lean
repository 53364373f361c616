import TrustLedger.WriteAheadLog.Sessions

/-! What a crash leaves of a log whose last append may have failed at any point. Synced records all
survive, and behind them a number of whole records of that append.
-/

namespace TrustLedger.WriteAheadLog

open Foundation

theorem length_le_framesWithin {payloads : List Bytes} (more : List Bytes) {cut : Nat}
    (before : framedLen payloads ≤ cut)
    : payloads.length ≤ framesWithin cut (payloads ++ more) := by
  rw [← length_logBytes 0 payloads] at before
  rw [framesWithin, numbered_append, ← length_numbered 0 payloads]
  exact TornLog.length_le_wholeWithin Record.bytes _ before

/-- A handle on which `payloads` are committed, and an append of `pending` may have failed: the file
goes on behind the committed records with some first bytes of the others.
-/
structure Wal.Unfinished (options : WalOptions) (payloads pending : List Bytes) (w : Wal)
    : Prop where
  sameOptions : w.options = options
  committed : w.committedEnd = framedLen payloads
  fits : Fits options.maxRecordPayloadLen (payloads ++ pending)
  file : ∃ n, framedLen payloads ≤ n ∧ w.file.bytes = (diskOf (payloads ++ pending)).take n

section Appends

variable {options : WalOptions} {payloads : List Bytes}

theorem take_diskOf_committed (payloads batch : List Bytes)
    : (diskOf (payloads ++ batch)).take (framedLen payloads) = diskOf payloads := by
  rw [diskOf_append]
  exact List.take_left' (length_diskOf payloads)

theorem Wal.unfinished_holding (path : String) (fits : Fits options.maxRecordPayloadLen payloads)
    : (Wal.holding path options payloads).Unfinished options payloads [] where
  sameOptions := rfl
  committed := rfl
  fits := by rwa [List.append_nil]
  file := ⟨_, le_rfl, (take_diskOf_committed payloads []).symm⟩

/-- However the repair goes, a failed append leaves some first bytes of its frames. -/
theorem repair_unfinished (path : String) {batch : List Bytes}
    (fits : Fits options.maxRecordPayloadLen (payloads ++ batch)) (io : AppendIo) (written : Nat)
    : (Wal.repair
        { Wal.holding path options payloads with
          file := (Wal.holding path options payloads).file.write
            ((logBytes (numbered (seqAfter 0 payloads.length) batch)).take written) }
        io).Unfinished options payloads batch := by
  have wrote (data : Bytes) : (Wal.holding path options payloads).file.write data
      = ⟨diskOf payloads ++ data, framedLen payloads + data.length⟩ := by
    rw [File.write_end (length_diskOf payloads).symm]
    simp only [Wal.holding, length_diskOf]
  rw [wrote]
  refine ⟨rfl, rfl, fits, ?_⟩
  have seeks (f : File) (position : Nat)
      : (if io.seek.isNone then f.seek position else f).bytes = f.bytes := by
    split <;> rfl
  simp only [Wal.repair, seeks]
  split
  · refine ⟨framedLen payloads, le_rfl, ?_⟩
    rw [take_diskOf_committed]
    simp [File.setLen, Wal.holding, ← length_diskOf]
  · refine ⟨framedLen payloads + written, Nat.le_add_right _ _, ?_⟩
    have kept : (diskOf payloads).take (framedLen payloads + written) = diskOf payloads :=
      List.take_of_length_le ((length_diskOf payloads).le.trans (Nat.le_add_right _ _))
    rw [diskOf_append, List.take_append, length_diskOf, Nat.add_sub_cancel_left, kept]

/-- An append is acknowledged with all its frames in the log, or leaves some first bytes of them. -/
theorem appendBatch_unfinished (path : String) (fits : Fits options.maxRecordPayloadLen payloads)
    (batch : List Bytes) (io : AppendIo)
    : (∃ range, Wal.appendBatch batch io (Wal.holding path options payloads)
          = .ok range (Wal.holding path options (payloads ++ batch))
        ∧ Accepts options.maxRecordPayloadLen batch)
      ∨ ∃ err w pending,
        Wal.appendBatch batch io (Wal.holding path options payloads) = .error err w
        ∧ (pending = [] ∨ pending = batch) ∧ w.Unfinished options payloads pending := by
  by_cases accepts : Accepts options.maxRecordPayloadLen batch
  · have fits' := fits.append accepts.within
    by_cases empty : batch = []
    · subst empty
      exact .inl ⟨_, by rw [Wal.appendBatch, if_pos rfl, List.append_nil], accepts⟩
    have encoded := encodePayloads_eq_ok (w := Wal.holding path options payloads) accepts
    have whole : (logBytes (numbered (seqAfter 0 payloads.length) batch)).take (framedLen batch)
        = logBytes (numbered (seqAfter 0 payloads.length) batch) :=
      List.take_of_length_le (length_logBytes _ _).le
    simp only [Wal.appendBatch, if_neg empty, encoded]
    cases io.write with
    | some failure =>
        obtain ⟨written, source⟩ := failure
        exact .inr ⟨_, _, batch, rfl, .inr rfl, repair_unfinished path fits' io written⟩
    | none =>
        cases if (Wal.holding path options payloads).options.syncPerAppend then io.sync
          else none with
        | some source =>
            have left := repair_unfinished path fits' io (framedLen batch)
            rw [whole] at left
            exact .inr ⟨_, _, batch, rfl, .inr rfl, left⟩
        | none =>
            refine .inl ⟨(seqAfter 0 payloads.length,
                seqAfter (seqAfter 0 payloads.length) batch.length),
              ?_, accepts⟩
            have appended : (Wal.holding path options payloads).appended batch = _ :=
              Wal.appended_holding payloads batch
            simp only [Wal.appended] at appended
            rw [length_logBytes, appended]
            rfl
  · obtain ⟨err, rejected⟩ := appendBatch_rejected (w := Wal.holding path options payloads)
      accepts io
    exact .inr ⟨err, _, [], rejected, .inl rfl, Wal.unfinished_holding path fits⟩

end Appends

/-- The file after a crash. Bytes that were synced are there; of those that were not, the first
`kept` bytes of the file are.
-/
def Wal.diskAfterCrash (kept : Nat) (w : Wal) : Bytes :=
  w.file.bytes.take (max kept (if w.options.syncPerAppend then w.committedEnd else 0))

/-- After a crash the log opens, with whole records: all the committed ones, if they were synced. -/
theorem Wal.Unfinished.reopen {options : WalOptions} {payloads pending : List Bytes} {w : Wal}
    (unfinished : w.Unfinished options payloads pending) (path : String) {io : OpenIo}
    (succeeds : io.Succeeds) (kept : Nat)
    : ∃ count recovery tail,
        w.diskAfterCrash kept = diskOf ((payloads ++ pending).take count) ++ tail
        ∧ (Wal.open path options io (w.diskAfterCrash kept)).1
          = .ok (Wal.holding path options ((payloads ++ pending).take count), recovery)
        ∧ (options.syncPerAppend = true → payloads.length ≤ count) := by
  obtain ⟨n, committed, file⟩ := unfinished.file
  have left : w.diskAfterCrash kept = (diskOf (payloads ++ pending)).take
      (min (max kept (if options.syncPerAppend then framedLen payloads else 0)) n) := by
    rw [Wal.diskAfterCrash, file, List.take_take, unfinished.sameOptions, unfinished.committed]
  generalize reached : min (max kept (if options.syncPerAppend then framedLen payloads else 0)) n
    = cut at left
  obtain ⟨tail, stops, torn⟩ := take_diskOf unfinished.fits cut
  have opened := Wal.open_diskOf path succeeds
    (unfinished.fits.take (framesWithin cut (payloads ++ pending))) stops
  rw [← torn, ← left] at opened
  refine ⟨_, _, tail, left.trans torn, congrArg Prod.fst opened, fun synced => ?_⟩
  apply length_le_framesWithin
  rw [← reached, if_pos synced]
  exact le_min (le_max_right _ _) committed

end TrustLedger.WriteAheadLog
