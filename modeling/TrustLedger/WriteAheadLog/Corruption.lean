import TrustLedger.WriteAheadLog.Failures
import TrustLedger.WriteAheadLog.Sessions

/-! One flipped bit in an intact log. The checksum sees every flip that leaves the frame where it
was; a flip in the length field moves the checksum's own place, and is seen only if the bytes found
there are not by chance the right ones.
-/

namespace TrustLedger.WriteAheadLog

open Foundation

/-- Make the calls in order on one handle; each has to be acknowledged. -/
def writeLog : List AppendCall → EStateM WalError Wal Unit
  | [] => pure ()
  | c :: rest => do
      let _ ← Wal.appendBatch c.batch c.io
      writeLog rest

/-- Everything the calls append. -/
def appendedPayloads (calls : List AppendCall) : List Bytes :=
  calls.flatMap AppendCall.batch

/-- Acknowledged calls leave the log with everything they appended, and nothing else. -/
theorem writeLog_holding {path : String} {options : WalOptions} {history : List Bytes}
    {calls : List AppendCall} {w : Wal} (fits : Fits options.maxRecordPayloadLen history)
    (written : writeLog calls (Wal.holding path options history) = .ok () w)
    : w = Wal.holding path options (history ++ appendedPayloads calls)
      ∧ Fits options.maxRecordPayloadLen (history ++ appendedPayloads calls) := by
  induction calls generalizing history with
  | nil =>
      cases written
      simpa [appendedPayloads] using fits
  | cons c rest ih =>
      obtain ⟨range, mid, first, later⟩ := bind_run_ok.mp written
      rcases appendBatch_outcome (Wal.holding path options history) c.batch c.io with
        ⟨accepts, range', ran⟩ | ⟨err, ran⟩ | ⟨-, err, data, ran⟩
      · rw [ran, Wal.appended_holding] at first
        cases first
        have extended := ih (fits.append accepts.within) later
        rwa [List.append_assoc] at extended
      · rw [ran] at first
        cases first
      · rw [ran] at first
        cases first

-- One frame

/-- The payload length the frame at the start of `bytes` declares once the bit is flipped. -/
def flippedLen (bytes : Bytes) (offset : Nat) (bit : Fin 8) : Nat :=
  (readU32Le (Bytes.flipBit (bytes.take headerLen) offset bit) lenOffset).val

/-- The flip hits the length field of the frame at the start of `bytes`, and the changed length is
admissible and points at four bytes that happen to be the checksum of what is now in front of
them.
-/
structure Disguised (maxPayloadLen : Nat) (bytes : Bytes) (offset : Nat) (bit : Fin 8)
    : Prop where
  hitsLength : lenOffset ≤ offset ∧ offset < headerLen
  within : flippedLen bytes offset bit ≤ maxPayloadLen
  complete : frameLen (flippedLen bytes offset bit) ≤ bytes.length
  checksum
    : crc32c (Bytes.flipBit (bytes.take (headerLen + flippedLen bytes offset bit)) offset bit)
      = readU32Le bytes (headerLen + flippedLen bytes offset bit)

variable {bytes payload : Bytes} {position offset maxPayloadLen : Nat} {seq : U64} {bit : Fin 8}

theorem readU32Le_flipBit_behind (bit : Fin 8) (behind : position < offset)
    : readU32Le (bytes.flipBit position bit) offset = readU32Le bytes offset := by
  rw [readU32Le, readU32Le, Bytes.drop_flipBit_behind bit behind]

/-- A number whose bytes are all there is changed by a flip in one of them. -/
theorem readU32Le_flipBit_ne (bit : Fin 8) (before : offset ≤ position)
    (inside : position < offset + 4) (complete : offset + 4 ≤ bytes.length)
    : readU32Le (bytes.flipBit position bit) offset ≠ readU32Le bytes offset := by
  intro same
  have window : ((bytes.drop offset).take 4).length = 4 := by
    rw [List.length_take, List.length_drop]
    omega
  have bounded (field : Bytes) (length : field.length = 4) : Bytes.toNat field < 2 ^ 32 := by
    have bound := Bytes.toNat_lt field
    rwa [length] at bound
  rw [readU32Le, readU32Le, Bytes.drop_flipBit bit before, Bytes.take_flipBit] at same
  have numbers := congrArg Fin.val same
  simp only [Fin.val_ofNat] at numbers
  rw [Nat.mod_eq_of_lt (bounded _ (by rwa [Bytes.length_flipBit])),
    Nat.mod_eq_of_lt (bounded _ window)] at numbers
  refine Bytes.flipBit_ne bit ?_ (Bytes.eq_of_toNat_eq (Bytes.length_flipBit bit) numbers)
  omega

/-- Where the length field is not hit, no valid frame is left: either the checksum or what it
covers is one bit off.
-/
theorem stops_flipBit (valid : FrameAt maxPayloadLen bytes seq payload) (bit : Fin 8)
    (inside : offset < frameLen payload.length)
    (spared : ¬ (lenOffset ≤ offset ∧ offset < headerLen))
    : Stops maxPayloadLen (bytes.flipBit offset bit) := by
  intro seq' payload' accepted
  have complete := valid.complete
  simp only [frameLen, frameOverhead] at complete inside
  have head : (bytes.take headerLen).length = headerLen := by
    rw [List.length_take]
    omega
  have declared : payload'.length = payload.length := by
    rw [← accepted.headLen, ← valid.headLen, Bytes.take_flipBit]
    by_cases early : offset < lenOffset
    · rw [readU32Le_flipBit_behind bit early]
    · rw [Bytes.flipBit_outside bit (by omega)]
  have covered := accepted.covered
  rw [declared, Bytes.take_flipBit] at covered
  by_cases early : offset < headerLen + payload.length
  · rw [readU32Le_flipBit_behind bit early, ← valid.covered] at covered
    exact crc32c_flipBit_ne bit (by rw [List.length_take]; omega) covered
  · rw [Bytes.flipBit_outside bit (by rw [List.length_take]; omega), valid.covered] at covered
    have trailer : trailerLen = 4 := rfl
    exact readU32Le_flipBit_ne bit (by omega) (by omega) (by omega) covered.symm

/-- A disguised flip leaves a valid frame. Witness: magic and version stand in front of the length
field, and what follows it is read as the changed length says.
-/
theorem Disguised.frameAt (disguised : Disguised maxPayloadLen bytes offset bit)
    (valid : FrameAt maxPayloadLen bytes seq payload)
    : ∃ seq' payload', FrameAt maxPayloadLen (bytes.flipBit offset bit) seq' payload' := by
  obtain ⟨⟨before, inside⟩, within, complete, checksum⟩ := disguised
  have early : 4 < lenOffset := by decide
  generalize declared : flippedLen bytes offset bit = len at *
  have enough : headerLen + len + trailerLen ≤ bytes.length := by
    simp only [frameLen, frameOverhead] at complete
    omega
  have length : (((bytes.flipBit offset bit).drop headerLen).take len).length = len := by
    rw [List.length_take, List.length_drop, Bytes.length_flipBit]
    omega
  refine ⟨_, ((bytes.flipBit offset bit).drop headerLen).take len, {
    complete := by rwa [length, Bytes.length_flipBit]
    headMagic := ?_
    headVersion := ?_
    headLen := by rw [Bytes.take_flipBit, length, ← declared, flippedLen]
    within := by rwa [length]
    headSeq := rfl
    body := by rw [length]
    checksum := ?_ }⟩
  · rw [← valid.headMagic, Bytes.take_flipBit, readU32Le, readU32Le, List.drop_zero,
      List.drop_zero, Bytes.take_flipBit, Bytes.flipBit_outside]
    rw [List.length_take]
    omega
  · rw [← valid.headVersion, Bytes.take_flipBit, Bytes.flipBit, List.getElem?_modify_ne]
    omega
  · rw [checksum_iff (by rw [length]), length, Bytes.take_flipBit, checksum,
      readU32Le_flipBit_behind bit (by omega)]

/-- A valid frame left by a flip in the length field is a disguised one. -/
theorem FrameAt.disguised (accepted : FrameAt maxPayloadLen (bytes.flipBit offset bit) seq payload)
    (hits : lenOffset ≤ offset ∧ offset < headerLen)
    : Disguised maxPayloadLen bytes offset bit := by
  have declared : flippedLen bytes offset bit = payload.length := by
    rw [← accepted.headLen, Bytes.take_flipBit, flippedLen]
  have covered := accepted.covered
  rw [Bytes.take_flipBit, readU32Le_flipBit_behind bit (by omega)] at covered
  have complete := accepted.complete
  rw [Bytes.length_flipBit] at complete
  exact {
    hitsLength := hits
    within := by rw [declared]; exact accepted.within
    complete := by rwa [declared]
    checksum := by rwa [declared] }

/-- After one flipped bit in a valid frame no valid frame is left, unless it is disguised. -/
theorem stops_flipBit_iff (valid : FrameAt maxPayloadLen bytes seq payload) (bit : Fin 8)
    (inside : offset < frameLen payload.length)
    : Stops maxPayloadLen (bytes.flipBit offset bit)
      ↔ ¬ Disguised maxPayloadLen bytes offset bit := by
  constructor
  · intro stops disguised
    obtain ⟨seq', payload', accepted⟩ := disguised.frameAt valid
    exact stops seq' payload' accepted
  · intro plain
    by_cases hits : lenOffset ≤ offset ∧ offset < headerLen
    · exact fun seq' payload' accepted => plain (accepted.disguised hits)
    · exact stops_flipBit valid bit inside hits

-- The whole log

/-- The payloads of the frames before the one that holds the byte at `position`. -/
def payloadsBefore (position : Nat) (payloads : List Bytes) : List Bytes :=
  payloads.take (framesWithin position payloads)

/-- A byte of an intact log lies in a valid frame, behind the frames before it. -/
theorem locate_diskOf {payloads : List Bytes} (fits : Fits maxPayloadLen payloads)
    (inside : position < (diskOf payloads).length)
    : ∃ seq payload tail,
        diskOf payloads = diskOf (payloadsBefore position payloads) ++ tail
        ∧ FrameAt maxPayloadLen tail seq payload
        ∧ framedLen (payloadsBefore position payloads) ≤ position
        ∧ position
          < framedLen (payloadsBefore position payloads) + frameLen payload.length := by
  obtain ⟨⟨seq, payload⟩, rest, behind, start, stop⟩ :=
    TornLog.locate_flatMap Record.bytes inside
  change (numbered 0 payloads).drop (framesWithin position payloads) = _ at behind
  change (logBytes ((numbered 0 payloads).take (framesWithin position payloads))).length
    ≤ position at start
  change position
    < (logBytes ((numbered 0 payloads).take (framesWithin position payloads))).length + _ at stop
  rw [numbered_take, length_logBytes] at start stop
  rw [Record.bytes, length_frame] at stop
  have member : payload ∈ payloads := by
    have found : (⟨seq, payload⟩ : Record) ∈ numbered 0 payloads :=
      List.mem_of_mem_drop (behind ▸ List.mem_cons_self)
    exact mem_numbered found
  refine ⟨seq, payload, frame seq payload ++ logBytes rest, ?_,
    frameAt_frame (fits.within payload member) (fits.length_lt member) _, start, stop⟩
  rw [diskOf, ← List.take_append_drop (framesWithin position payloads) (numbered 0 payloads),
    behind, logBytes_append, numbered_take]
  rfl

/-- A log is written by acknowledged appends and one bit of the file is flipped. Opening it recovers
exactly the records of the frames before the one that was hit, unless the flip is disguised there:
it hits the length field, and the frame read with the changed length passes its checksum. File
lengths are 64-bit numbers.
-/
theorem flipped_bit_confined_iff {path : String} {options : WalOptions} {firstIo io : OpenIo}
    {opened w : Wal} {recovery : Recovery} {calls : List AppendCall} {position : Nat}
    (representable : options.maxRecordPayloadLen < 2 ^ 32) (opens : firstIo.Succeeds)
    (fresh : (Wal.open path options firstIo []).1 = .ok (opened, recovery))
    (written : writeLog calls opened = .ok () w) (fileSize : w.file.bytes.length < 2 ^ 64)
    (inside : position < w.file.bytes.length) (bit : Fin 8) (succeeds : io.Succeeds)
    : RecoversExactly path options io (w.file.bytes.flipBit position bit)
          (payloadsBefore position (appendedPayloads calls))
      ↔ ¬ Disguised options.maxRecordPayloadLen
            (w.file.bytes.drop
              (framedLen (payloadsBefore position (appendedPayloads calls))))
            (position - framedLen (payloadsBefore position (appendedPayloads calls))) bit := by
  have empty : Fits options.maxRecordPayloadLen [] := ⟨by simp, representable⟩
  have start : opened = Wal.holding path options [] := by
    have ran := Wal.open_diskOf path opens empty (stops_nil _)
    rw [List.append_nil] at ran
    change Wal.open path options firstIo [] = _ at ran
    rw [ran] at fresh
    cases fresh
    rfl
  obtain ⟨rfl, fits⟩ := writeLog_holding empty (start ▸ written)
  rw [List.nil_append] at *
  generalize appendedPayloads calls = payloads at *
  change (diskOf payloads).length < 2 ^ 64 at fileSize
  change position < (diskOf payloads).length at inside
  change RecoversExactly path options io ((diskOf payloads).flipBit position bit) _
    ↔ ¬ Disguised _ ((diskOf payloads).drop _) _ bit
  obtain ⟨seq, payload, tail, split, valid, before, behind⟩ := locate_diskOf fits inside
  have fits' : Fits options.maxRecordPayloadLen (payloadsBefore position payloads) := fits.take _
  generalize payloadsBefore position payloads = intact at *
  have length : (diskOf intact).length = framedLen intact := length_diskOf intact
  have flipped : (diskOf payloads).flipBit position bit
      = diskOf intact ++ tail.flipBit (position - framedLen intact) bit := by
    rw [split, Bytes.flipBit_append bit tail (by omega), length]
  have count : intact.length < 2 ^ 64 := by
    have bound := length_le_framedLen intact
    rw [split, List.length_append] at fileSize
    omega
  have dropped : (diskOf payloads).drop (framedLen intact) = tail := by
    rw [split]
    exact List.drop_left' length
  rw [flipped, dropped, ← stops_flipBit_iff valid bit (by omega)]
  constructor
  · intro recovers
    exact recovers.stops succeeds fits'
  · intro stops
    exact recoversExactly_diskOf path succeeds fits' stops count

/-- A payload that is the checksum of an empty frame's header. -/
def lookalike : Bytes :=
  Bytes.ofNat 4 (crc32c (header magic version 0 0)).val

/-- The only record is the lookalike. One flipped bit in its length field makes the frame end in
front of its payload, which is read as the checksum: opening recovers an empty record.
-/
theorem flipped_length_recovers_forged_record
    : ((Wal.open "ledger.wal" {} {} []).1.toOption.bind fun opened =>
          match writeLog [⟨[lookalike], {}⟩] opened.1 with
          | .ok _ w => some w.file.bytes
          | .error _ _ => none)
        = some (frame 0 lookalike)
      ∧ payloadsBefore 14 [lookalike] = []
      ∧ ¬ RecoversExactly "ledger.wal" {} {} ((frame 0 lookalike).flipBit 14 2) []
      ∧ ((Wal.open "ledger.wal" {} {} ((frame 0 lookalike).flipBit 14 2)).1.toOption.bind
          fun opened =>
            match Wal.readRecords {} opened.1 with
            | .ok records _ => some records
            | .error _ _ => none)
        = some [⟨0, []⟩] := by
  refine ⟨by decide +kernel, by decide +kernel, ?_, by decide +kernel⟩
  rintro ⟨w, recovery, opened, count, -⟩
  have one : ((Wal.open "ledger.wal" {} {} ((frame 0 lookalike).flipBit 14 2)).1.toOption.map
      fun opened => opened.2.nextSeq.val) = some 1 := by
    decide +kernel
  rw [opened] at one
  have same : recovery.nextSeq.val = 1 := Option.some.inj one
  rw [same] at count
  cases count

/-- Witness: a flip in the payload of the second of two records. -/
theorem flipped_bit_confined_secondRecord
    : RecoversExactly "ledger.wal" {} {} ((diskOf [[1], [2]]).flipBit 41 3) [[1]] := by
  have fresh : (Wal.open "ledger.wal" {} {} []).1
      = .ok (Wal.holding "ledger.wal" {} [], ⟨0, 0, 0⟩) := by
    decide +kernel
  have appended : Wal.appendBatch [[1], [2]] {} (Wal.holding "ledger.wal" {} [])
      = .ok _ (Wal.holding "ledger.wal" {} [[1], [2]]) :=
    appendBatch_holding (by decide) appendIo_succeeds
  have written : writeLog [⟨[[1], [2]], {}⟩] (Wal.holding "ledger.wal" {} [])
      = .ok () (Wal.holding "ledger.wal" {} [[1], [2]]) :=
    bind_run_of_ok appended
  have inside : 41 < (Wal.holding "ledger.wal" {} [[1], [2]]).file.bytes.length := by
    decide +kernel
  have before : payloadsBefore 41 (appendedPayloads [⟨[[1], [2]], {}⟩]) = [[1]] := by
    decide +kernel
  have confined := flipped_bit_confined_iff (by decide) openIo_succeeds fresh written
    (by decide +kernel) inside 3 openIo_succeeds
  rw [before] at confined
  exact confined.mpr fun disguised => absurd disguised.hitsLength (by decide)

end TrustLedger.WriteAheadLog
