import TrustLedger.WriteAheadLog.Frames
import TrustLedger.WriteAheadLog.Wal
import TrustLedger.Foundation.TornLog

/-! Recovery of a log from the bytes of its file: the frames of numbered payloads are scanned
back, whatever bytes follow them, as long as those do not start with a valid frame.
-/

namespace TrustLedger.WriteAheadLog

open Foundation

/-- The sequence number `count` records after `seq`. -/
def seqAfter (seq : U64) (count : Nat) : U64 :=
  seq + Fin.ofNat _ count

theorem seqAfter_val (seq : U64) (count : Nat)
    : (seqAfter seq count).val = (seq.val + count) % 2 ^ 64 := by
  simp [seqAfter, Fin.val_add]

@[simp] theorem seqAfter_zero (seq : U64) : seqAfter seq 0 = seq := by
  apply Fin.ext
  rw [seqAfter_val]
  exact Nat.mod_eq_of_lt seq.isLt

/-- Numbering from zero counts, as long as no number wraps. -/
theorem seqAfter_zero_val {count : Nat} (small : count < 2 ^ 64)
    : (seqAfter 0 count).val = count := by
  rw [seqAfter_val]
  simpa using Nat.mod_eq_of_lt small

theorem seqAfter_succ (seq : U64) (count : Nat)
    : seqAfter (seq + 1) count = seqAfter seq (count + 1) := by
  apply Fin.ext
  rw [seqAfter_val, seqAfter_val, Fin.val_add]
  simp only [Fin.val_one, Nat.mod_add_mod]
  congr 1
  omega

theorem seqAfter_add (seq : U64) (first second : Nat)
    : seqAfter (seqAfter seq first) second = seqAfter seq (first + second) := by
  apply Fin.ext
  rw [seqAfter_val, seqAfter_val, seqAfter_val, Nat.mod_add_mod, Nat.add_assoc]

/-- Number payloads from `seq` on. -/
def numbered (seq : U64) : List Bytes → List Record
  | [] => []
  | payload :: rest => ⟨seq, payload⟩ :: numbered (seq + 1) rest

/-- The bytes of one record. -/
def Record.bytes (r : Record) : Bytes :=
  frame r.seq r.payload

/-- The bytes of a log that holds exactly these records. -/
def logBytes (records : List Record) : Bytes :=
  records.flatMap Record.bytes

/-- The bytes of a log of payloads numbered from zero. -/
def diskOf (payloads : List Bytes) : Bytes :=
  logBytes (numbered 0 payloads)

/-- Total framed length of a batch. -/
def framedLen (payloads : List Bytes) : Nat :=
  (payloads.map fun payload => frameLen payload.length).sum

theorem length_numbered (seq : U64) (payloads : List Bytes)
    : (numbered seq payloads).length = payloads.length := by
  induction payloads generalizing seq with
  | nil => rfl
  | cons payload rest ih => simp only [numbered, List.length_cons, ih]

theorem numbered_take (seq : U64) (payloads : List Bytes) (count : Nat)
    : (numbered seq payloads).take count = numbered seq (payloads.take count) := by
  induction payloads generalizing seq count with
  | nil => simp [numbered]
  | cons payload rest ih =>
      cases count with
      | zero => rfl
      | succ count => simp only [numbered, List.take_succ_cons, ih]

theorem numbered_append (seq : U64) (first second : List Bytes)
    : numbered seq (first ++ second)
      = numbered seq first ++ numbered (seqAfter seq first.length) second := by
  induction first generalizing seq with
  | nil => simp [numbered]
  | cons payload rest ih =>
      simp only [List.cons_append, numbered, ih, List.length_cons, seqAfter_succ]

theorem logBytes_append (first second : List Record)
    : logBytes (first ++ second) = logBytes first ++ logBytes second :=
  List.flatMap_append

theorem length_logBytes (seq : U64) (payloads : List Bytes)
    : (logBytes (numbered seq payloads)).length = framedLen payloads := by
  induction payloads generalizing seq with
  | nil => rfl
  | cons payload rest ih =>
      simp only [numbered, logBytes, List.flatMap_cons, List.length_append, framedLen,
        List.map_cons, List.sum_cons, Record.bytes, length_frame]
      exact congrArg (frameLen payload.length + ·) (ih (seq + 1))

theorem diskOf_append (first second : List Bytes)
    : diskOf (first ++ second)
      = diskOf first ++ logBytes (numbered (seqAfter 0 first.length) second) := by
  rw [diskOf, numbered_append, logBytes_append, diskOf]

theorem framedLen_append (first second : List Bytes)
    : framedLen (first ++ second) = framedLen first + framedLen second := by
  simp [framedLen]

/-- Every frame takes at least its overhead, so a log has no more records than bytes. -/
theorem length_le_framedLen (payloads : List Bytes) : payloads.length ≤ framedLen payloads := by
  induction payloads with
  | nil => exact Nat.zero_le _
  | cons payload rest ih =>
      have overhead : 1 ≤ frameOverhead := by decide
      simp only [framedLen, List.map_cons, List.sum_cons, List.length_cons, frameLen] at *
      omega

/-- Payloads a log with this cap accepts and can represent. -/
structure Fits (maxPayloadLen : Nat) (payloads : List Bytes) : Prop where
  within : ∀ payload ∈ payloads, payload.length ≤ maxPayloadLen
  representable : maxPayloadLen < 2 ^ 32

namespace Fits

variable {maxPayloadLen : Nat} {payloads : List Bytes} {payload : Bytes}

theorem length_lt (fits : Fits maxPayloadLen payloads) (member : payload ∈ payloads)
    : payload.length < 2 ^ 32 :=
  Nat.lt_of_le_of_lt (fits.within payload member) fits.representable

theorem tail (fits : Fits maxPayloadLen (payload :: payloads)) : Fits maxPayloadLen payloads :=
  ⟨fun other member => fits.within other (List.mem_cons_of_mem _ member), fits.representable⟩

theorem take (fits : Fits maxPayloadLen payloads) (count : Nat)
    : Fits maxPayloadLen (payloads.take count) :=
  ⟨fun other member => fits.within other (List.mem_of_mem_take member), fits.representable⟩

theorem append {more : List Bytes} (fits : Fits maxPayloadLen payloads)
    (within : ∀ payload ∈ more, payload.length ≤ maxPayloadLen)
    : Fits maxPayloadLen (payloads ++ more) := by
  refine ⟨fun payload member => ?_, fits.representable⟩
  rcases List.mem_append.mp member with old | new
  · exact fits.within payload old
  · exact within payload new

end Fits

/-- No valid frame starts here, so a scan stops. -/
def Stops (maxPayloadLen : Nat) (bytes : Bytes) : Prop :=
  ∀ seq payload, ¬ FrameAt maxPayloadLen bytes seq payload

theorem stops_nil (maxPayloadLen : Nat) : Stops maxPayloadLen [] := by
  intro seq payload valid
  have complete := valid.complete
  simp [frameLen, frameOverhead, headerLen] at complete

variable {path : String} {maxPayloadLen : Nat} {scan : Scan} {reader : Reader IoError}
  {payloads : List Bytes}

theorem scanLog_stops (reliable : reader.Reliable) (stops : Stops maxPayloadLen reader.bytes)
    (rounds : Nat)
    : scanLog path maxPayloadLen rounds scan reader = .ok scan := by
  cases rounds with
  | zero => rfl
  | succ rounds =>
      obtain ⟨reader', -, ran, -⟩ := nextRecord_reliable reliable maxPayloadLen false
      simp only [scanLog, ran]
      cases step : scanFrame maxPayloadLen false reader.bytes with
      | record seq len payload =>
          obtain ⟨payload, valid, -⟩ := scanFrame_eq_record.mp step
          exact absurd valid (stops seq payload)
      | finished => rfl
      | broken => rfl

theorem scanLog_frame (path : String) {payload : Bytes} (reliable : reader.Reliable)
    (valid : FrameAt maxPayloadLen reader.bytes scan.nextSeq payload) (rounds : Nat)
    : ∃ reader', reader'.Reliable
        ∧ reader'.bytes = reader.bytes.drop (frameLen payload.length)
        ∧ scanLog path maxPayloadLen (rounds + 1) scan reader
          = scanLog path maxPayloadLen rounds
              ⟨scan.nextSeq + 1, scan.verifiedRecords + 1,
                scan.verifiedEnd + frameLen payload.length⟩
              reader' := by
  obtain ⟨reader', reliable', ran, left⟩ := nextRecord_reliable reliable maxPayloadLen false
  have step : scanFrame maxPayloadLen false reader.bytes
      = .record scan.nextSeq payload.length none :=
    scanFrame_eq_record.mpr ⟨payload, valid, rfl, rfl⟩
  refine ⟨reader', reliable', left _ _ _ step, ?_⟩
  simp only [scanLog, ran, step, ne_eq, not_true_eq_false, if_false]

/-- `bytes` starts with valid frames for the payloads, numbered from `seq` on, and goes on with
`rest`.
-/
inductive FramesAt (maxPayloadLen : Nat) : U64 → Bytes → List Bytes → Bytes → Prop where
  | nil {seq : U64} {rest : Bytes} : FramesAt maxPayloadLen seq rest [] rest
  | cons {seq : U64} {bytes payload rest : Bytes} {payloads : List Bytes}
    (first : FrameAt maxPayloadLen bytes seq payload)
    (later : FramesAt maxPayloadLen (seq + 1) (bytes.drop (frameLen payload.length)) payloads rest)
    : FramesAt maxPayloadLen seq bytes (payload :: payloads) rest

/-- The frames of numbered payloads are valid, whatever follows them. -/
theorem framesAt_logBytes (fits : Fits maxPayloadLen payloads) (seq : U64) (tail : Bytes)
    : FramesAt maxPayloadLen seq (logBytes (numbered seq payloads) ++ tail) payloads tail := by
  induction payloads generalizing seq with
  | nil => exact .nil
  | cons payload rest ih =>
      have split : logBytes (numbered seq (payload :: rest)) ++ tail
          = frame seq payload ++ (logBytes (numbered (seq + 1) rest) ++ tail) := by
        rw [← List.append_assoc]
        rfl
      rw [split]
      refine .cons (frameAt_frame (fits.within payload List.mem_cons_self)
        (fits.length_lt List.mem_cons_self) _) ?_
      rw [List.drop_left' (length_frame ..)]
      exact ih fits.tail (seq + 1)

theorem FramesAt.length {seq : U64} {bytes rest : Bytes}
    (frames : FramesAt maxPayloadLen seq bytes payloads rest)
    : bytes.length = framedLen payloads + rest.length := by
  induction frames with
  | nil => simp [framedLen]
  | cons first later ih =>
      have complete := first.complete
      rw [List.length_drop] at ih
      simp only [framedLen, List.map_cons, List.sum_cons] at *
      omega

/-- The scan passes over numbered frames, one round each, and goes on with what follows. -/
theorem scanLog_framesAt (path : String) {tail : Bytes} (scan : Scan) (reliable : reader.Reliable)
    (frames : FramesAt maxPayloadLen scan.nextSeq reader.bytes payloads tail) (rounds : Nat)
    : ∃ reader', reader'.Reliable
        ∧ reader'.bytes = tail
        ∧ scanLog path maxPayloadLen (payloads.length + rounds) scan reader
          = scanLog path maxPayloadLen rounds
              ⟨seqAfter scan.nextSeq payloads.length,
                seqAfter scan.verifiedRecords payloads.length,
                scan.verifiedEnd + framedLen payloads⟩
              reader' := by
  induction payloads generalizing scan reader with
  | nil =>
      cases frames
      exact ⟨reader, reliable, rfl, by simp [framedLen]⟩
  | cons payload rest ih =>
      cases frames with
      | cons valid behind =>
          obtain ⟨mid, reliableMid, left, first⟩ :=
            scanLog_frame path reliable valid (rest.length + rounds)
          obtain ⟨reader', reliable', after, later⟩ :=
            ih
              ⟨scan.nextSeq + 1, scan.verifiedRecords + 1,
                scan.verifiedEnd + frameLen payload.length⟩
              reliableMid (left ▸ behind)
          refine ⟨reader', reliable', after, ?_⟩
          rw [List.length_cons, Nat.add_right_comm, first, later]
          simp only [seqAfter_succ, framedLen, List.map_cons, List.sum_cons, Nat.add_assoc]

/-- A scan never gives up what it has verified. -/
theorem scanLog_verifiedEnd {rounds : Nat} {found : Scan}
    (ran : scanLog path maxPayloadLen rounds scan reader = .ok found)
    : scan.verifiedEnd ≤ found.verifiedEnd := by
  induction rounds generalizing scan reader with
  | zero =>
      cases ran
      exact Nat.le_refl _
  | succ rounds ih =>
      simp only [scanLog] at ran
      split at ran
      · cases ran
      · split at ran
        · cases ran
        · exact Nat.le_trans (Nat.le_add_right _ _) (ih ran)
      · cases ran
        exact Nat.le_refl _
      · cases ran
        exact Nat.le_refl _

end TrustLedger.WriteAheadLog
