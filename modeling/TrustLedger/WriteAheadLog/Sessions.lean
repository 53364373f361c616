import TrustLedger.WriteAheadLog.Handle

/-! Crash recovery over any number of sessions: each opens the log, makes calls on the handle,
and ends with the file cut at an arbitrary byte.
-/

namespace TrustLedger.WriteAheadLog

open Foundation

/-- Read outcomes without a failure: short and interrupted reads in any order. -/
def ReliableReads : Type :=
  { schedule : List (ReadStep IoError) // ∀ step ∈ schedule, ∀ err, step ≠ .failed err }

/-- A call on an open handle. A stream is dropped after at most `items` items. -/
inductive Call where
  | append (payload : Bytes)
  | appendBatch (payloads : List Bytes)
  | readRecords (reads : ReliableReads)
  | streamRecords (items : Nat) (reads : ReliableReads)

/-- The handle after a call, with the payloads the call acknowledged. -/
def Call.run : Call → Wal → List Bytes × Wal
  | .append payload, w =>
      match Wal.append payload {} w with
      | .ok _ w' => ([payload], w')
      | .error _ w' => ([], w')
  | .appendBatch payloads, w =>
      match Wal.appendBatch payloads {} w with
      | .ok _ w' => (payloads, w')
      | .error _ w' => ([], w')
  | .readRecords reads, w => ([], stateAfter (Wal.readRecords { schedule := reads.val } w))
  | .streamRecords items reads, w =>
      ([], stateAfter (Wal.streamItems items { schedule := reads.val } w))

/-- Make calls in order, collecting what they acknowledge. -/
def runCalls : List Call → Wal → List Bytes × Wal
  | [], w => ([], w)
  | call :: rest, w =>
      let (acknowledged, w') := call.run w
      let (later, final) := runCalls rest w'
      (acknowledged ++ later, final)

/-- One opening of the log, the calls made, and how many bytes of the file a crash leaves. -/
structure Session where
  reads : ReliableReads
  calls : List Call
  cut : Nat

/-- How many of the payloads' frames lie wholly inside the first `cut` bytes of the log. -/
def framesWithin (cut : Nat) (payloads : List Bytes) : Nat :=
  TornLog.wholeWithin Record.bytes cut (numbered 0 payloads)

/-- The file between sessions, and the acknowledged payloads whose frames it still holds. -/
structure Trace where
  history : List Bytes
  disk : Bytes

/-- Run one session. -/
def Session.run (path : String) (options : WalOptions) (s : Session) (t : Trace)
    : Except WalError Trace :=
  match (Wal.open path options { schedule := s.reads.val } t.disk).1 with
  | .error err => .error err
  | .ok (w, _) =>
      let (acknowledged, w') := runCalls s.calls w
      let history := t.history ++ acknowledged
      .ok ⟨history.take (framesWithin s.cut history), w'.file.bytes.take s.cut⟩

/-- Run sessions one after the other on one file. -/
def runSessions (path : String) (options : WalOptions) (sessions : List Session) (t : Trace)
    : Except WalError Trace :=
  sessions.foldlM (fun t s => s.run path options t) t

variable {payloads : List Bytes} {path : String} {options : WalOptions} {io : StreamIo} {t : Trace}

theorem mem_numbered {seq : U64} {r : Record} (member : r ∈ numbered seq payloads)
    : r.payload ∈ payloads := by
  induction payloads generalizing seq with
  | nil => cases member
  | cons payload rest ih =>
      rcases List.mem_cons.mp member with rfl | later
      · exact List.mem_cons_self
      · exact List.mem_cons_of_mem _ (ih later)

/-- Whatever byte a log is cut at, its whole frames are left and no frame after them. -/
theorem take_diskOf {maxPayloadLen : Nat} (fits : Fits maxPayloadLen payloads) (cut : Nat)
    : ∃ tail,
        Stops maxPayloadLen tail
        ∧ (diskOf payloads).take cut
          = diskOf (payloads.take (framesWithin cut payloads)) ++ tail := by
  obtain ⟨tail, torn, kept⟩ := TornLog.take_flatMap Record.bytes (numbered 0 payloads) cut
  refine ⟨tail, ?_, ?_⟩
  · rcases torn with rfl | ⟨r, member, position, shorter, rfl⟩
    · exact stops_nil maxPayloadLen
    · intro seq payload
      rw [Record.bytes, length_frame] at shorter
      exact not_frameAt_torn (fits.length_lt (mem_numbered member)) shorter
  · rw [numbered_take] at kept
    exact kept

theorem framesWithin_all {cut : Nat} (whole : (diskOf payloads).length ≤ cut)
    : framesWithin cut payloads = payloads.length := by
  rw [← length_numbered 0 payloads]
  unfold framesWithin
  unfold diskOf logBytes at whole
  generalize numbered 0 payloads = records at whole
  induction records generalizing cut with
  | nil => rfl
  | cons r rest ih =>
      rw [List.flatMap_cons, List.length_append] at whole
      rw [TornLog.wholeWithin, if_pos (by omega), ih (by omega), List.length_cons]

theorem appendIo_succeeds : ({} : AppendIo).Succeeds :=
  ⟨rfl, rfl⟩

theorem reads_succeed (reads : ReliableReads) : ({ schedule := reads.val } : StreamIo).Succeeds :=
  ⟨rfl, fun _ => reads.property, rfl, rfl⟩

theorem readRecords_keeps (succeeds : io.Succeeds)
    : stateAfter (Wal.readRecords io (Wal.holding path options payloads))
      = Wal.holding path options payloads := by
  unfold Wal.readRecords
  cases (Wal.holding path options payloads).streamRecords io with
  | error err => rfl
  | ok s =>
      simp only
      cases (s.collect io.seekEnd (s.expectedNextSeq.val + 1) []).1 with
      | error err => exact afterStream_holding succeeds _
      | ok records => exact afterStream_holding succeeds _

theorem streamItems_keeps (succeeds : io.Succeeds) (items : Nat)
    : stateAfter (Wal.streamItems items io (Wal.holding path options payloads))
      = Wal.holding path options payloads := by
  unfold Wal.streamItems
  cases (Wal.holding path options payloads).streamRecords io with
  | error err => rfl
  | ok s => exact afterStream_holding succeeds _

theorem Call.run_holding (path : String) (fits : Fits options.maxRecordPayloadLen payloads)
    (call : Call)
    : ∃ acknowledged,
        call.run (Wal.holding path options payloads)
          = (acknowledged, Wal.holding path options (payloads ++ acknowledged))
        ∧ Fits options.maxRecordPayloadLen (payloads ++ acknowledged) := by
  cases call with
  | append payload =>
      rcases appendBatch_repairs path options payloads
        (.inl appendIo_succeeds) [payload] with ⟨range, accepted, accepts⟩ | ⟨err, rejected⟩
      · refine ⟨[payload], ?_, fits.append accepts.within⟩
        simp only [Call.run, Wal.append, bind_run_of_ok accepted]
        rfl
      · refine ⟨[], ?_, by rwa [List.append_nil]⟩
        simp only [Call.run, Wal.append, bind_run_of_error rejected, List.append_nil]
  | appendBatch batch =>
      rcases appendBatch_repairs path options payloads
        (.inl appendIo_succeeds) batch with ⟨range, accepted, accepts⟩ | ⟨err, rejected⟩
      · exact ⟨batch, by simp only [Call.run, accepted], fits.append accepts.within⟩
      · exact ⟨[], by simp only [Call.run, rejected, List.append_nil], by rwa [List.append_nil]⟩
  | readRecords reads =>
      refine ⟨[], ?_, by rwa [List.append_nil]⟩
      simp only [Call.run, readRecords_keeps (reads_succeed reads), List.append_nil]
  | streamRecords items reads =>
      refine ⟨[], ?_, by rwa [List.append_nil]⟩
      simp only [Call.run, streamItems_keeps (reads_succeed reads), List.append_nil]

theorem runCalls_holding (path : String) (fits : Fits options.maxRecordPayloadLen payloads)
    (calls : List Call)
    : ∃ acknowledged,
        runCalls calls (Wal.holding path options payloads)
          = (acknowledged, Wal.holding path options (payloads ++ acknowledged))
        ∧ Fits options.maxRecordPayloadLen (payloads ++ acknowledged) := by
  induction calls generalizing payloads with
  | nil => exact ⟨[], by simp [runCalls], by rwa [List.append_nil]⟩
  | cons call rest ih =>
      obtain ⟨first, ran, fits'⟩ := Call.run_holding path fits call
      obtain ⟨later, more, fits''⟩ := ih fits'
      refine ⟨first ++ later, ?_, by rwa [← List.append_assoc]⟩
      simp only [runCalls, ran, more, List.append_assoc]

/-- The file holds the frames of the surviving history and then no valid frame. -/
def Trace.Sound (maxPayloadLen : Nat) (t : Trace) : Prop :=
  Fits maxPayloadLen t.history
    ∧ ∃ tail, Stops maxPayloadLen tail ∧ t.disk = diskOf t.history ++ tail

/-- A session opens, and leaves a sound file wherever it is cut. -/
theorem Session.run_sound (path : String) (sound : t.Sound options.maxRecordPayloadLen)
    (s : Session)
    : ∃ t', s.run path options t = .ok t' ∧ t'.Sound options.maxRecordPayloadLen := by
  obtain ⟨fits, tail, stops, disk⟩ := sound
  have reads : OpenIo.Succeeds { schedule := s.reads.val } :=
    ⟨rfl, rfl, fun _ => s.reads.property, rfl, rfl, rfl, rfl⟩
  have opened := Wal.open_diskOf path reads fits stops
  obtain ⟨acknowledged, ran, fits'⟩ := runCalls_holding path fits s.calls
  obtain ⟨left, stops', cut⟩ := take_diskOf fits' s.cut
  refine ⟨⟨_, (diskOf (t.history ++ acknowledged)).take s.cut⟩, ?_, fits'.take _, left, stops',
    cut⟩
  simp only [Session.run, disk, opened, ran]
  rfl

theorem runSessions_sound (path : String) (sound : t.Sound options.maxRecordPayloadLen)
    (sessions : List Session)
    : ∃ t', runSessions path options sessions t = .ok t'
        ∧ t'.Sound options.maxRecordPayloadLen := by
  induction sessions generalizing t with
  | nil => exact ⟨t, rfl, sound⟩
  | cons s rest ih =>
      obtain ⟨mid, ran, soundMid⟩ := Session.run_sound path sound s
      obtain ⟨t', later, soundEnd⟩ := ih soundMid
      refine ⟨t', ?_, soundEnd⟩
      simp only [runSessions, List.foldlM_cons, ran]
      exact later

/-- After any sessions on a new log, each with any calls and any crash, opening the file
recovers exactly the acknowledged payloads whose frames the crashes left whole; a crash that
cuts nothing leaves all of them. File lengths are 64-bit numbers.
-/
theorem crash_recovery_exact (path : String) (options : WalOptions)
    (representable : options.maxRecordPayloadLen < 2 ^ 32) (sessions : List Session)
    (io : OpenIo) (succeeds : io.Succeeds)
    : ∃ t, runSessions path options sessions ⟨[], []⟩ = .ok t
        ∧ (t.disk.length < 2 ^ 64 → RecoversExactly path options io t.disk t.history)
        ∧ ∀ payloads cut, (diskOf payloads).length ≤ cut
          → framesWithin cut payloads = payloads.length := by
  have sound : Trace.Sound options.maxRecordPayloadLen ⟨[], []⟩ :=
    ⟨⟨by simp, representable⟩, [], stops_nil _, rfl⟩
  obtain ⟨t, ran, fits, tail, stops, disk⟩ := runSessions_sound path sound sessions
  refine ⟨t, ran, fun short => ?_, fun payloads cut whole => framesWithin_all whole⟩
  have small : t.history.length < 2 ^ 64 := by
    have bound := length_le_framedLen t.history
    rw [disk, List.length_append, length_diskOf] at short
    omega
  rw [disk]
  exact recoversExactly_diskOf path succeeds fits stops small

/-- Two sessions: three records and a dropped stream, cut inside the third frame, and then an
oversized batch and one more record.
-/
def tornSessions : List Session :=
  [⟨⟨[], by simp⟩, [.append [1, 2], .appendBatch [[3], [4]], .streamRecords 1 ⟨[], by simp⟩], 50⟩,
    ⟨⟨[.upto 4, .interrupted], by simp⟩, [.appendBatch [[5], [6, 7, 8, 9, 10]], .append [11]],
      100⟩]

/-- The torn third record is lost, the record appended after recovery follows the second. -/
theorem crash_recovery_tornSessions
    : ∃ t, runSessions "ledger.wal" { maxRecordPayloadLen := 4 } tornSessions ⟨[], []⟩ = .ok t
        ∧ t.history = [[1, 2], [3], [11]]
        ∧ RecoversExactly "ledger.wal" { maxRecordPayloadLen := 4 } {} t.disk t.history := by
  obtain ⟨t, ran, recovers, -⟩ :=
    crash_recovery_exact "ledger.wal" { maxRecordPayloadLen := 4 } (by decide) tornSessions {}
      openIo_succeeds
  have evaluated
      : (runSessions "ledger.wal" { maxRecordPayloadLen := 4 } tornSessions ⟨[], []⟩).toOption.map
          (fun t => (t.history, t.disk.length))
        = some ([[1, 2], [3], [11]], 70) := by
    decide +kernel
  rw [ran] at evaluated
  obtain ⟨history, length⟩ := Prod.mk.inj (Option.some.inj evaluated)
  exact ⟨t, ran, history, recovers (by rw [length]; decide)⟩

end TrustLedger.WriteAheadLog
