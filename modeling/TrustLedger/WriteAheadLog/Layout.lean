import TrustLedger.WriteAheadLog.Recovery

/-! The frame layout read in both directions: which payloads the 32-bit length field can represent,
which bytes of an accepted frame its sequence number and payload determine, and that the streaming
and the whole-frame decoder accept the same frames.
-/

namespace TrustLedger.WriteAheadLog

open Foundation

variable {seq : U64} {payload bytes : Bytes} {maxPayloadLen offset count : Nat}

theorem encode_eq_ok
    : encode seq payload maxPayloadLen = .ok bytes
      ↔ payload.length ≤ maxPayloadLen ∧ bytes = frame seq payload := by
  simp only [encode, encodeInto, encodeFrameInto, encodeFrameAppend, List.nil_append]
  split
  · rename_i long
    simp only [reduceCtorEq, false_iff, not_and]
    exact fun within => absurd within (Nat.not_le.mpr long)
  · rename_i short
    simp only [Except.ok.injEq, Nat.le_of_not_lt short, true_and, frame]
    exact eq_comm

/-- Reading at an offset does not see what a cut leaves behind the field. -/
theorem readU32Le_take (behind : offset + 4 ≤ count)
    : readU32Le (bytes.take count) offset = readU32Le bytes offset := by
  rw [readU32Le, readU32Le, List.drop_take, List.take_take, Nat.min_eq_left (by omega)]

theorem readU64Le_take (behind : offset + 8 ≤ count)
    : readU64Le (bytes.take count) offset = readU64Le bytes offset := by
  rw [readU64Le, readU64Le, List.drop_take, List.take_take, Nat.min_eq_left (by omega)]

/-- The whole-frame decoder accepts exactly the byte strings that are one valid frame. -/
theorem decodeFrame_eq_ok {len : Nat}
    : decodeFrame bytes maxPayloadLen = .ok (seq, len)
      ↔ ∃ payload,
          FrameAt maxPayloadLen bytes seq payload
          ∧ bytes.length = frameLen payload.length
          ∧ len = payload.length := by
  have field : lenOffset + 4 = headerLen ∧ seqOffset + 8 ≤ headerLen ∧ 4 < headerLen := by decide
  have headMagic : readU32Le (bytes.take headerLen) 0 = readU32Le bytes 0 :=
    readU32Le_take (by decide)
  have headLen : readU32Le (bytes.take headerLen) lenOffset = readU32Le bytes lenOffset :=
    readU32Le_take (by decide)
  have headSeq : readU64Le (bytes.take headerLen) seqOffset = readU64Le bytes seqOffset :=
    readU64Le_take (by decide)
  have headVersion : (bytes.take headerLen)[4]? = bytes[4]? :=
    List.getElem?_take_of_lt (by decide)
  simp only [decodeFrame, decodeFrameWith, bind_eq_ok, ensure_eq_ok, exists_const, pure,
    Except.pure, Except.ok.injEq, Prod.mk.injEq]
  constructor
  · rintro ⟨overhead, isMagic, isVersion, within, whole, checksum, isSeq, isLen⟩
    simp only [frameOverhead] at overhead
    generalize declared : (readU32Le bytes lenOffset).val = n at *
    have length : ((bytes.drop headerLen).take n).length = n := by
      rw [List.length_take, List.length_drop]
      simp only [frameLen, frameOverhead] at whole
      omega
    have trailer : bytes.length - trailerLen = headerLen + n := by
      simp only [frameLen, frameOverhead] at whole
      omega
    refine ⟨(bytes.drop headerLen).take n, {
      complete := by rw [length]; exact whole.ge
      headMagic := headMagic.trans isMagic
      headVersion := ?_
      headLen := by rw [headLen, length, declared]
      within := by rwa [length]
      headSeq := headSeq.trans isSeq
      body := by rw [length]
      checksum := ?_ }, by rw [length, whole], by rw [length, isLen]⟩
    · rw [headVersion, List.getElem?_eq_getElem (by omega)] at *
      exact congrArg some isVersion
    · rw [checksum_iff (by rw [length]), length, ← trailer]
      exact checksum
  · rintro ⟨payload, valid, whole, rfl⟩
    have trailer : bytes.length - trailerLen = headerLen + payload.length := by
      simp only [frameLen, frameOverhead] at whole
      omega
    have isVersion := valid.headVersion
    rw [headVersion] at isVersion
    refine ⟨?_, headMagic.symm.trans valid.headMagic, by rw [isVersion]; rfl, ?_, ?_, ?_,
      headSeq.symm.trans valid.headSeq, ?_⟩
    · rw [whole, frameLen]
      exact Nat.le_add_left ..
    · rw [← headLen, valid.headLen]
      exact valid.within
    · rw [← headLen, valid.headLen, whole]
    · rw [trailer]
      exact valid.covered
    · rw [← headLen, valid.headLen]

-- From payloads to frames and back

/-- An encoded frame is read back as it was written: by the streaming reader, whatever follows the
frame and however it is delivered, and by the whole-frame decoder.
-/
structure ReadsBack (maxPayloadLen : Nat) (seq : U64) (payload bytes : Bytes) : Prop where
  streamed
    : ∀ (rest : Bytes) (r : Reader IoError), r.Reliable → r.bytes = bytes ++ rest
      → ∃ r', nextRecord maxPayloadLen true r = .ok (.record seq payload.length (some payload)) r'
        ∧ r'.bytes = rest
  decoded : decodeFrame bytes maxPayloadLen = .ok (seq, payload.length)

/-- A frame's length field counts its payload, so a valid frame's payload is shorter than 4 GiB. -/
theorem FrameAt.length_lt (valid : FrameAt maxPayloadLen bytes seq payload)
    : payload.length < 2 ^ 32 := by
  rw [← valid.headLen]
  exact Fin.isLt _

/-- An accepted payload is read back exactly when its length fits the 32-bit length field: the
encoder checks the length against the cap alone, and the cap is any machine word.
-/
theorem encoded_reads_back_iff {maxPayloadLen : Nat} {seq : U64} {payload bytes : Bytes}
    (encoded : encode seq payload maxPayloadLen = .ok bytes)
    : ReadsBack maxPayloadLen seq payload bytes ↔ payload.length < 2 ^ 32 := by
  obtain ⟨within, rfl⟩ := encode_eq_ok.mp encoded
  constructor
  · intro readsBack
    obtain ⟨payload', valid, -, sameLength⟩ := decodeFrame_eq_ok.mp readsBack.decoded
    rw [sameLength]
    exact valid.length_lt
  · intro fits
    constructor
    · intro rest r reliable content
      obtain ⟨r', -, ran, left⟩ := nextRecord_reliable reliable maxPayloadLen true
      have step : scanFrame maxPayloadLen true r.bytes
          = .record seq payload.length (some payload) := by
        rw [content, scanFrame_frame within fits]
        rfl
      refine ⟨r', by rw [ran, step], ?_⟩
      rw [left _ _ _ step, content]
      exact List.drop_left' (length_frame ..)
    · have valid : FrameAt maxPayloadLen (frame seq payload ++ []) seq payload :=
        frameAt_frame within fits []
      rw [List.append_nil] at valid
      exact decodeFrame_eq_ok.mpr ⟨payload, valid, length_frame .., rfl⟩

/-- Witness: a payload of three bytes. -/
theorem encoded_reads_back_short : ReadsBack defaultMaxPayloadLen 7 [1, 2, 3] (frame 7 [1, 2, 3]) :=
  (encoded_reads_back_iff (encode_eq_ok.mpr ⟨by decide, rfl⟩)).mpr (by decide)

/-- A payload of 4 GiB, all zero. -/
def fourGiB : Bytes :=
  List.replicate (2 ^ 32) 0

theorem length_fourGiB : fourGiB.length = 2 ^ 32 :=
  List.length_replicate

/-- With a cap of 4 GiB the payload is accepted. Its frame declares an empty payload, the bytes
taken for the checksum do not match, and recovery drops the record.
-/
theorem fourGiB_unreadable
    : encode 0 fourGiB (2 ^ 32) = .ok (frame 0 fourGiB)
      ∧ ¬ ReadsBack (2 ^ 32) 0 fourGiB (frame 0 fourGiB)
      ∧ Stops (2 ^ 32) (frame 0 fourGiB) := by
  refine ⟨encode_eq_ok.mpr ⟨length_fourGiB.le, rfl⟩, ?_, ?_⟩
  · intro readsBack
    obtain ⟨payload, valid, -, sameLength⟩ := decodeFrame_eq_ok.mp readsBack.decoded
    have short := valid.length_lt
    rw [← sameLength, length_fourGiB] at short
    exact Nat.lt_irrefl _ short
  · intro seq payload valid
    have head : (frame 0 fourGiB).take headerLen = header magic version 0 (2 ^ 32) := by
      rw [← length_fourGiB]
      simp only [frame, List.append_assoc]
      exact List.take_left' (length_header ..)
    have declared := valid.headLen
    rw [head] at declared
    have empty : (readU32Le (header magic version 0 (2 ^ 32)) lenOffset).val = 0 := by
      decide +kernel
    obtain rfl : payload = [] := List.length_eq_zero_iff.mp (declared.symm.trans empty)
    have checksum := valid.checksum
    have zeros : (((frame 0 fourGiB).drop headerLen).drop 0).take trailerLen = [0, 0, 0, 0] := by
      rw [List.drop_zero]
      simp only [frame, List.append_assoc]
      rw [List.drop_left' (length_header ..), List.take_append_of_le_length, fourGiB,
        List.take_replicate, Nat.min_eq_left (by decide)]
      · rfl
      · rw [length_fourGiB]
        decide
    rw [head, List.append_nil, List.length_nil, zeros] at checksum
    exact absurd checksum (by decide +kernel)

-- From accepted frames to payloads and back

theorem ofNat_readU32Le (complete : offset + 4 ≤ bytes.length)
    : Bytes.ofNat 4 (readU32Le bytes offset).val = (bytes.drop offset).take 4 :=
  Bytes.ofNat_slice complete

theorem ofNat_readU64Le (complete : offset + 8 ≤ bytes.length)
    : Bytes.ofNat 8 (readU64Le bytes offset).val = (bytes.drop offset).take 8 :=
  Bytes.ofNat_slice complete

/-- Byte offset of the reserved flags within a header. -/
def flagsOffset : Nat := 5

/-- The decoded values fix every byte of a valid header but the flags. -/
theorem FrameAt.head (valid : FrameAt maxPayloadLen bytes seq payload)
    : ∃ flags,
        bytes[flagsOffset]? = some flags
        ∧ bytes.take headerLen
          = Bytes.ofNat 4 magic.val ++ [version, flags] ++ Bytes.ofNat 8 seq.val
            ++ Bytes.ofNat 4 payload.length := by
  have complete := valid.complete
  have length : (bytes.take headerLen).length = 4 + 2 + 8 + 4 := by
    simp only [frameLen, frameOverhead] at complete
    rw [List.length_take, Nat.min_eq_left (by omega)]
    rfl
  have isVersion := valid.headVersion
  have sameFlags : bytes[flagsOffset]? = (bytes.take headerLen)[5]? :=
    (List.getElem?_take_of_lt (by decide)).symm
  rw [← valid.headMagic, ← valid.headSeq, ← valid.headLen, sameFlags]
  generalize bytes.take headerLen = head at *
  have present : 4 + 1 < head.length := by omega
  refine ⟨head[5], List.getElem?_eq_getElem present, ?_⟩
  rw [ofNat_readU32Le (by omega), ofNat_readU64Le (by simp only [seqOffset]; omega),
    ofNat_readU32Le (by simp only [lenOffset]; omega)]
  have middle : (head.drop 4).take 2 = [version, head[5]] := by
    rw [List.getElem?_eq_getElem (by omega)] at isVersion
    rw [List.drop_eq_getElem_cons (by omega), List.drop_eq_getElem_cons present,
      Option.some.inj isVersion]
    rfl
  calc head = head.take (4 + 2 + 8 + 4) := (List.take_of_length_le length.le).symm
    _ = _ := by
      rw [List.take_add, List.take_add, List.take_add, middle]
      rfl

/-- A byte string that is one valid frame is the frame of what it holds exactly if its flags are
clear.
-/
theorem FrameAt.eq_frame_iff (valid : FrameAt maxPayloadLen bytes seq payload)
    (whole : bytes.length = frameLen payload.length)
    : bytes = frame seq payload ↔ bytes[flagsOffset]? = some 0 := by
  constructor
  · rintro rfl
    simp only [frame, List.append_assoc]
    rw [List.getElem?_append_left (by rw [length_header]; decide)]
    rfl
  · intro clear
    obtain ⟨flags, present, head⟩ := valid.head
    obtain rfl : flags = 0 := Option.some.inj (present.symm.trans clear)
    have covered : bytes.take (headerLen + payload.length)
        = header magic version seq payload.length ++ payload := by
      rw [List.take_add, valid.body, head]
      rfl
    have length : headerLen + payload.length + 4 = bytes.length := by
      simp only [whole, frameLen, frameOverhead, trailerLen]
      omega
    have trailer : bytes.drop (headerLen + payload.length)
        = Bytes.ofNat 4 (crc32c (header magic version seq payload.length ++ payload)).val := by
      rw [← covered, valid.covered, ofNat_readU32Le (by omega), List.take_of_length_le]
      rw [List.length_drop]
      omega
    rw [frame, ← trailer, ← covered, List.take_append_drop]

/-- `bytes` is accepted as one record, by the whole-frame decoder or by a streaming reader that
consumes all of it.
-/
def AcceptedAs (maxPayloadLen : Nat) (bytes : Bytes) (seq : U64) (payload : Bytes) : Prop :=
  (decodeFrame bytes maxPayloadLen = .ok (seq, payload.length)
    ∧ payload = (bytes.drop headerLen).take payload.length)
  ∨ ∃ r r' : Reader IoError, r.Reliable ∧ r.bytes = bytes ∧ r'.bytes = []
    ∧ nextRecord maxPayloadLen true r = .ok (.record seq payload.length (some payload)) r'

/-- Both ways of accepting mean the same: the bytes are one valid frame. -/
theorem AcceptedAs.frameAt (accepted : AcceptedAs maxPayloadLen bytes seq payload)
    : FrameAt maxPayloadLen bytes seq payload ∧ bytes.length = frameLen payload.length := by
  rcases accepted with ⟨decoded, body⟩ | ⟨r, r', reliable, rfl, consumed, ran⟩
  · obtain ⟨payload', valid, whole, sameLength⟩ := decodeFrame_eq_ok.mp decoded
    rw [sameLength, valid.body] at body
    rw [body]
    exact ⟨valid, whole⟩
  · obtain ⟨r'', -, ran', left⟩ := nextRecord_reliable reliable maxPayloadLen true
    rw [ran'] at ran
    obtain ⟨step, rfl⟩ := EStateM.Result.ok.inj ran
    obtain ⟨payload', valid, -, fetched⟩ := scanFrame_eq_record.mp step
    obtain rfl : payload = payload' := Option.some.inj fetched
    have rest := congrArg List.length (left _ _ _ step)
    rw [consumed, List.length_nil, List.length_drop] at rest
    have complete := valid.complete
    exact ⟨valid, by omega⟩

/-- Encoding what an accepted frame holds gives the frame back exactly if its reserved flags are
clear: no reader looks at them.
-/
theorem reencodes_iff {maxPayloadLen : Nat} {bytes payload : Bytes} {seq : U64}
    (accepted : AcceptedAs maxPayloadLen bytes seq payload)
    : encode seq payload maxPayloadLen = .ok bytes ↔ bytes[flagsOffset]? = some 0 := by
  obtain ⟨valid, whole⟩ := accepted.frameAt
  rw [← valid.eq_frame_iff whole, encode_eq_ok]
  exact and_iff_right valid.within

/-- The frame of an empty record with a reserved flag set and the checksum to match. -/
def flaggedFrame : Bytes :=
  let head := Bytes.ofNat 4 magic.val ++ [version, 0x80] ++ Bytes.ofNat 8 0 ++ Bytes.ofNat 4 0
  head ++ Bytes.ofNat 4 (crc32c head).val

/-- The flagged frame is read as a plain record by both readers, and encoding that record gives
other bytes.
-/
theorem flaggedFrame_accepted
    : decodeFrame flaggedFrame defaultMaxPayloadLen = .ok (0, 0)
      ∧ (match nextRecord defaultMaxPayloadLen true ⟨flaggedFrame, []⟩ with
        | .ok step r => some (step, r.bytes)
        | .error _ _ => none)
        = some (.record 0 0 (some []), [])
      ∧ encode 0 [] defaultMaxPayloadLen ≠ .ok flaggedFrame := by
  decide +kernel

/-- Witness: a frame of the encoder. -/
theorem reencodes_plain : encode 3 [1, 2] defaultMaxPayloadLen = .ok (frame 3 [1, 2]) :=
  (reencodes_iff (.inl ⟨by decide +kernel, by decide +kernel⟩)).mpr (by decide +kernel)

/-- A step of a scan that did not ask for the payload. -/
def ScanStep.withoutPayload : ScanStep → ScanStep
  | .record seq len _ => .record seq len none
  | .finished => .finished
  | .broken => .broken

/-- Whether the payload is asked for decides about nothing else. -/
theorem nextRecord_withoutPayload (maxPayloadLen : Nat)
    : nextRecord maxPayloadLen false
      = ScanStep.withoutPayload <$> nextRecord maxPayloadLen true := by
  simp only [nextRecord, map_bind]
  refine bind_congr fun head => ?_
  split
  · simp [ScanStep.withoutPayload]
  split
  · simp [ScanStep.withoutPayload]
  split
  · simp [ScanStep.withoutPayload]
  split
  · simp [ScanStep.withoutPayload]
  rw [map_bind]
  refine bind_congr fun read => ?_
  cases read with
  | none => simp [ScanStep.withoutPayload]
  | some read =>
      rw [map_bind]
      refine bind_congr fun trailer => ?_
      split
      · simp [ScanStep.withoutPayload]
      split
      · simp [ScanStep.withoutPayload]
      · simp [ScanStep.withoutPayload]

/-- The whole-frame decoder accepts what the streaming one reads as a record to the last byte,
however the source cuts the bytes up. Asking for the payload changes nothing but that the bytes
behind the header are handed out.
-/
theorem decoders_agree (maxPayloadLen : Nat) {r : Reader IoError} (reliable : r.Reliable)
    (fetchPayload : Bool) (seq : U64) (len : Nat)
    : (decodeFrame r.bytes maxPayloadLen = .ok (seq, len)
        ↔ ∃ payload r', nextRecord maxPayloadLen fetchPayload r = .ok (.record seq len payload) r'
            ∧ r'.bytes = [])
      ∧ nextRecord maxPayloadLen false r
        = (ScanStep.withoutPayload <$> nextRecord maxPayloadLen true) r
      ∧ ∀ payload r', nextRecord maxPayloadLen true r = .ok (.record seq len payload) r'
          → payload = some ((r.bytes.drop headerLen).take len) := by
  refine ⟨?_, congrFun (nextRecord_withoutPayload maxPayloadLen) r, ?_⟩
  · obtain ⟨r', -, ran, left⟩ := nextRecord_reliable reliable maxPayloadLen fetchPayload
    rw [decodeFrame_eq_ok, ran]
    constructor
    · intro ⟨payload, valid, whole, sameLength⟩
      have step : scanFrame maxPayloadLen fetchPayload r.bytes
          = .record seq len (if fetchPayload then some payload else none) :=
        scanFrame_eq_record.mpr ⟨payload, valid, sameLength, rfl⟩
      refine ⟨_, r', by rw [step], ?_⟩
      rw [left _ _ _ step, List.drop_eq_nil_iff, whole, sameLength]
    · intro ⟨payload, r'', accepted, consumed⟩
      obtain ⟨step, rfl⟩ := EStateM.Result.ok.inj accepted
      obtain ⟨payload, valid, sameLength, -⟩ := scanFrame_eq_record.mp step
      have rest := left _ _ _ step
      rw [consumed, eq_comm, List.drop_eq_nil_iff, sameLength] at rest
      exact ⟨payload, valid, le_antisymm rest valid.complete, sameLength⟩
  · intro payload r'' accepted
    obtain ⟨r', -, ran, -⟩ := nextRecord_reliable reliable maxPayloadLen true
    rw [ran] at accepted
    obtain ⟨step, -⟩ := EStateM.Result.ok.inj accepted
    obtain ⟨read, valid, sameLength, fetched⟩ := scanFrame_eq_record.mp step
    rw [fetched, sameLength, valid.body]
    rfl

/-- Witness: a frame delivered in reads of a few bytes. -/
theorem decoders_agree_cut
    : ∃ payload r', nextRecord defaultMaxPayloadLen true
          ⟨frame 3 [1, 2], [.upto 6, .interrupted, .upto 0, .upto 9]⟩
          = .ok (.record 3 2 payload) r'
        ∧ r'.bytes = [] := by
  have reliable : (⟨frame 3 [1, 2], [.upto 6, .interrupted, .upto 0, .upto 9]⟩
      : Reader IoError).Reliable := by
    simp [Reader.Reliable]
  exact (decoders_agree defaultMaxPayloadLen reliable true 3 2).1.mp (by decide +kernel)

end TrustLedger.WriteAheadLog
