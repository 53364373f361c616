import TrustLedger.WriteAheadLog.Handle

/-! Opening a log file with arbitrary contents. The valid frames it starts with decide everything:
they are recovered and what follows them is cut off, unless it starts with a valid frame too, whose
number is then wrong.
-/

namespace TrustLedger.WriteAheadLog

open Foundation

section Frames

variable {maxPayloadLen : Nat} {seq seq' : U64} {bytes rest rest' payload payload' : Bytes}
  {payloads payloads' : List Bytes}

theorem FrameAt.unique (first : FrameAt maxPayloadLen bytes seq payload)
    (second : FrameAt maxPayloadLen bytes seq' payload')
    : seq = seq' ∧ payload = payload' := by
  have length : payload.length = payload'.length := first.headLen.symm.trans second.headLen
  refine ⟨first.headSeq.symm.trans second.headSeq, ?_⟩
  rw [← first.body, ← second.body, length]

theorem FrameAt.congr (valid : FrameAt maxPayloadLen bytes seq payload)
    (same : rest.take (frameLen payload.length) = bytes.take (frameLen payload.length))
    (complete : frameLen payload.length ≤ rest.length)
    : FrameAt maxPayloadLen rest seq payload := by
  have head : rest.take headerLen = bytes.take headerLen := by
    have both := congrArg (List.take headerLen) same
    rwa [List.take_take, List.take_take, Nat.min_eq_left (by simp [frameLen, frameOverhead]; omega)]
      at both
  have tail : (rest.drop headerLen).take (payload.length + trailerLen)
      = (bytes.drop headerLen).take (payload.length + trailerLen) := by
    have both := congrArg (List.drop headerLen) same
    rwa [List.drop_take, List.drop_take, show frameLen payload.length - headerLen
      = payload.length + trailerLen by simp [frameLen, frameOverhead]; omega] at both
  have body : (rest.drop headerLen).take payload.length
      = (bytes.drop headerLen).take payload.length := by
    have both := congrArg (List.take payload.length) tail
    rwa [List.take_take, List.take_take, Nat.min_eq_left (by omega)] at both
  have trailer : ((rest.drop headerLen).drop payload.length).take trailerLen
      = ((bytes.drop headerLen).drop payload.length).take trailerLen := by
    have both := congrArg (List.drop payload.length) tail
    rwa [List.drop_take, List.drop_take, Nat.add_sub_cancel_left] at both
  exact {
    complete
    headMagic := head ▸ valid.headMagic
    headVersion := head ▸ valid.headVersion
    headLen := head ▸ valid.headLen
    within := valid.within
    headSeq := head ▸ valid.headSeq
    body := body.trans valid.body
    checksum := by rw [head, trailer]; exact valid.checksum
  }

namespace FramesAt

theorem take (frames : FramesAt maxPayloadLen seq bytes payloads rest)
    : FramesAt maxPayloadLen seq (bytes.take (framedLen payloads)) payloads [] := by
  induction frames with
  | nil => exact .nil
  | @cons seq bytes payload rest payloads first later ih =>
      have complete := first.complete
      have total : framedLen (payload :: payloads) = frameLen payload.length + framedLen payloads :=
        rfl
      rw [total]
      refine .cons (first.congr ?_ ?_) ?_
      · rw [List.take_take, Nat.min_eq_left (by omega)]
      · rw [List.length_take]
        omega
      · rw [List.drop_take, Nat.add_sub_cancel_left]
        exact ih

/-- Some frames are found, and behind them none with the next number. The induction is on the
number of bytes left.
-/
theorem exists_maximal (maxPayloadLen : Nat) (seq : U64) (bytes : Bytes)
    : ∃ payloads rest, FramesAt maxPayloadLen seq bytes payloads rest
        ∧ ∀ payload, ¬FrameAt maxPayloadLen rest (seqAfter seq payloads.length) payload := by
  induction size : bytes.length using Nat.strong_induction_on generalizing seq bytes with
  | h n ih =>
      by_cases more : ∃ payload, FrameAt maxPayloadLen bytes seq payload
      · obtain ⟨payload, first⟩ := more
        have complete := first.complete
        have shorter : (bytes.drop (frameLen payload.length)).length < n := by
          rw [List.length_drop]
          simp only [frameLen, frameOverhead, headerLen, trailerLen] at *
          omega
        obtain ⟨payloads, rest, later, maximal⟩ := ih _ shorter (seq + 1) _ rfl
        refine ⟨payload :: payloads, rest, .cons first later, ?_⟩
        rw [List.length_cons, ← seqAfter_succ]
        exact maximal
      · exact ⟨[], bytes, .nil, fun payload first => more ⟨payload, by simpa using first⟩⟩

/-- Frames behind which none has the next number are all there are; and wherever else frames with
the right numbers end, the next frame has the right number too.
-/
theorem maximal_prefix (frames : FramesAt maxPayloadLen seq bytes payloads rest)
    (maximal : ∀ payload, ¬FrameAt maxPayloadLen rest (seqAfter seq payloads.length) payload)
    (other : FramesAt maxPayloadLen seq bytes payloads' rest')
    : payloads' <+: payloads
      ∧ (rest' = rest
        ∨ ∃ payload, FrameAt maxPayloadLen rest' (seqAfter seq payloads'.length) payload) := by
  induction other generalizing payloads with
  | @nil seq bytes =>
      refine ⟨List.nil_prefix, ?_⟩
      cases frames with
      | nil => exact .inl rfl
      | cons first later => exact .inr ⟨_, by simpa using first⟩
  | @cons seq bytes payload' rest' payloads' first' later' ih =>
      cases frames with
      | nil => exact absurd first' (by simpa using maximal payload')
      | @cons _ _ payload _ payloads first later =>
          obtain ⟨-, rfl⟩ := first'.unique first
          rw [List.length_cons, ← seqAfter_succ] at maximal ⊢
          obtain ⟨shorter, ends⟩ := ih later maximal
          exact ⟨List.cons_prefix_cons.mpr ⟨rfl, shorter⟩, ends⟩

end FramesAt

end Frames

section Opening

variable {path : String} {options : WalOptions} {io : OpenIo} {disk rest payload : Bytes}
  {payloads : List Bytes} {seq : U64}

/-- A valid frame whose number does not fit follows frames numbered from zero. -/
def Misnumbered (maxPayloadLen : Nat) (disk : Bytes) : Prop :=
  ∃ payloads rest seq payload,
    FramesAt maxPayloadLen 0 disk payloads rest
    ∧ FrameAt maxPayloadLen rest seq payload
    ∧ seq.val ≠ payloads.length

/-- How opening a file goes: it recovers these payloads, the frames of which are the longest log
the file starts with, and opening what it leaves gives them again.
-/
structure RecoversLongest (path : String) (options : WalOptions) (io : OpenIo) (disk : Bytes)
    (payloads : List Bytes)
    : Prop where
  frames : ∃ rest, FramesAt options.maxRecordPayloadLen 0 disk payloads rest
  longest
    : ∀ payloads' rest', FramesAt options.maxRecordPayloadLen 0 disk payloads' rest'
      → payloads' <+: payloads
  opened
    : ∃ w recovery,
        Wal.open path options io disk = (.ok (w, recovery), disk.take (framedLen payloads))
        ∧ recovery.verifiedRecords.val = payloads.length
        ∧ ∀ readIo : StreamIo, readIo.Succeeds
          → ∃ w', Wal.readRecords readIo w = .ok (numbered 0 payloads) w'
  reopened
    : ∀ io' : OpenIo, io'.Succeeds → ∃ w recovery,
        Wal.open path options io' (disk.take (framedLen payloads))
          = (.ok (w, recovery), disk.take (framedLen payloads))
        ∧ recovery.truncatedBytes = 0
        ∧ ∀ readIo : StreamIo, readIo.Succeeds
          → ∃ w', Wal.readRecords readIo w = .ok (numbered 0 payloads) w'

/-- Opening a log that goes on with a frame of the wrong number is refused. -/
theorem open_misnumbered (path : String) (succeeds : io.Succeeds)
    (frames : FramesAt options.maxRecordPayloadLen 0 disk payloads rest)
    (next : FrameAt options.maxRecordPayloadLen rest seq payload)
    (wrong : seq ≠ seqAfter 0 payloads.length)
    : Wal.open path options io disk
      = (.error (.seqMismatch (framedLen payloads) seq (seqAfter 0 payloads.length)), disk) := by
  obtain ⟨reader, rounds, reliable, rfl, ran⟩ := openScan_framesAt path succeeds frames
  obtain ⟨reader', -, read, -⟩ :=
    nextRecord_reliable reliable options.maxRecordPayloadLen false
  have step : scanFrame options.maxRecordPayloadLen false reader.bytes
      = .record seq payload.length none :=
    scanFrame_eq_record.mpr ⟨payload, next, rfl, rfl⟩
  rw [step] at read
  simp only [scanLog, read, ne_eq, wrong, not_false_eq_true, if_true] at ran
  simp only [Wal.open, ran]

/-- The handle an open leaves reads back what it recovered. -/
theorem read_opened {kept : Bytes} {cursor : Nat}
    (frames : FramesAt options.maxRecordPayloadLen 0 kept payloads [])
    (small : payloads.length < 2 ^ 64) {readIo : StreamIo} (succeeds : readIo.Succeeds)
    : ∃ w', Wal.readRecords readIo
        ⟨path, ⟨kept, cursor⟩, seqAfter 0 payloads.length, framedLen payloads, options⟩
        = .ok (numbered 0 payloads) w' := by
  have expected := seqAfter_zero_val small
  obtain ⟨s, read⟩ :=
    readRecords_framesAt
      (w := ⟨path, ⟨kept, cursor⟩, seqAfter 0 payloads.length, framedLen payloads, options⟩)
      frames expected succeeds
  exact ⟨_, read⟩

/-- Whatever bytes a log file holds, opening it is refused for a sequence number and leaves the
file alone exactly if a valid frame with the wrong number follows the valid frames numbered from
zero; otherwise it recovers the longest log the file starts with. File lengths are 64-bit numbers.
-/
theorem open_any_contents (path : String) (options : WalOptions) {io : OpenIo}
    (succeeds : io.Succeeds) (disk : Bytes) (fileSize : disk.length < 2 ^ 64)
    : (Misnumbered options.maxRecordPayloadLen disk
        ∧ ∃ offset actual expected,
          Wal.open path options io disk = (.error (.seqMismatch offset actual expected), disk))
      ∨ (¬Misnumbered options.maxRecordPayloadLen disk
        ∧ ∃ payloads, RecoversLongest path options io disk payloads) := by
  obtain ⟨payloads, rest, frames, maximal⟩ :=
    FramesAt.exists_maximal options.maxRecordPayloadLen 0 disk
  have small {payloads' : List Bytes} {rest' : Bytes}
      (frames' : FramesAt options.maxRecordPayloadLen 0 disk payloads' rest')
      : payloads'.length < 2 ^ 64 := by
    have length := frames'.length
    have bound := length_le_framedLen payloads'
    omega
  by_cases next : ∃ seq payload, FrameAt options.maxRecordPayloadLen rest seq payload
  · obtain ⟨seq, payload, next⟩ := next
    have wrong : seq ≠ seqAfter 0 payloads.length := by
      rintro rfl
      exact maximal payload next
    refine .inl ⟨⟨payloads, rest, seq, payload, frames, next, fun same => ?_⟩, _, _, _,
      open_misnumbered path succeeds frames next wrong⟩
    exact wrong (Fin.ext (same.trans (seqAfter_zero_val (small frames)).symm))
  · have stops : Stops options.maxRecordPayloadLen rest :=
      fun seq payload valid => next ⟨seq, payload, valid⟩
    refine .inr ⟨?_, payloads, ?_⟩
    · intro ⟨payloads', rest', seq, payload, frames', valid, wrong⟩
      rcases (frames.maximal_prefix maximal frames').2 with rfl | ⟨payload', right⟩
      · exact stops seq payload valid
      · obtain ⟨rfl, -⟩ := valid.unique right
        exact wrong (seqAfter_zero_val (small frames'))
    · have kept := frames.take
      have length : (disk.take (framedLen payloads)).length = framedLen payloads := by
        simpa using kept.length
      refine ⟨⟨rest, frames⟩, fun _ _ other => (frames.maximal_prefix maximal other).1, ?_, ?_⟩
      · exact ⟨_, _, Wal.open_framesAt path succeeds frames stops, seqAfter_zero_val (small frames),
          fun readIo reads => read_opened kept (small frames) reads⟩
      · intro io' succeeds'
        have again := Wal.open_framesAt path succeeds' kept (stops_nil _)
        rw [List.take_of_length_le length.le] at again
        exact ⟨_, _, again, rfl, fun readIo reads => read_opened kept (small frames) reads⟩

/-- A frame with a flag set, a frame numbered one, and a torn frame: two records are recovered. -/
def flaggedLog : Bytes :=
  let covered := Bytes.ofNat 4 magic.val ++ [version, 0x80] ++ Bytes.ofNat 8 0 ++ Bytes.ofNat 4 1
    ++ [7]
  covered ++ Bytes.ofNat 4 (crc32c covered).val ++ frame 1 [8, 9] ++ (frame 2 [10]).take 20

/-- Two records are recovered from the log with a flagged frame; a log that starts with number one
is refused.
-/
theorem open_any_contents_flaggedLog
    : (∃ payloads, payloads.length = 2
        ∧ RecoversLongest "ledger.wal" {} {} flaggedLog payloads)
      ∧ ∃ offset actual expected,
        Wal.open "ledger.wal" {} {} (frame 1 [8, 9])
          = (.error (.seqMismatch offset actual expected), frame 1 [8, 9]) := by
  have verified : (Wal.open "ledger.wal" {} {} flaggedLog).1.toOption.map
      (fun opened => opened.2.verifiedRecords.val) = some 2 := by
    decide +kernel
  have refused : (Wal.open "ledger.wal" {} {} (frame 1 [8, 9])).1.toOption.isNone := by
    decide +kernel
  constructor
  · rcases open_any_contents "ledger.wal" {} openIo_succeeds flaggedLog (by decide +kernel) with
      ⟨-, offset, actual, expected, failed⟩ | ⟨-, payloads, recovers⟩
    · rw [failed] at verified
      cases verified
    · obtain ⟨w, recovery, opened, count, -⟩ := recovers.opened
      rw [opened] at verified
      exact ⟨payloads, count.symm.trans (Option.some.inj verified), recovers⟩
  · rcases open_any_contents "ledger.wal" {} openIo_succeeds (frame 1 [8, 9])
      (by decide +kernel) with ⟨-, failed⟩ | ⟨-, payloads, recovers⟩
    · exact failed
    · obtain ⟨w, recovery, opened, -⟩ := recovers.opened
      rw [opened] at refused
      cases refused

end Opening

end TrustLedger.WriteAheadLog
