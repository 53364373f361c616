import TrustLedger.WriteAheadLog.Record

/-! What the streaming reader reports, as a function of the bytes alone, and the frames it
accepts: an encoded frame is read back whatever follows it, and a torn one is never accepted.
-/

namespace TrustLedger.WriteAheadLog

open Foundation

/-- The scan step on the frame at the start of `bytes`, however the bytes are delivered. -/
def scanFrame (maxPayloadLen : Nat) (fetchPayload : Bool) (bytes : Bytes) : ScanStep :=
  let head := bytes.take headerLen
  let rest := bytes.drop headerLen
  let len := (readU32Le head lenOffset).val
  let trailer := (rest.drop len).take trailerLen
  if head.length = 0 then .finished
  else if head.length < headerLen then .broken
  else if readU32Le head 0 ≠ magic ∨ head[4]? ≠ some version then .broken
  else if maxPayloadLen < len then .broken
  else if rest.length < len then .broken
  else if trailer.length < trailerLen then .broken
  else if crc32c (head ++ rest.take len) ≠ readU32Le trailer 0 then .broken
  else
    .record (readU64Le head seqOffset) len
      (if fetchPayload then some (rest.take len) else none)

variable {r : Reader IoError} {bytes payload : Bytes} {maxPayloadLen len : Nat} {seq : U64}
  {fetched : Option Bytes}

theorem readUpto_reliable (reliable : r.Reliable) (want : Nat)
    : ∃ r', r'.Reliable ∧ r'.bytes = r.bytes.drop want
        ∧ readUpto want r = .ok (r.bytes.take want) r' := by
  obtain ⟨later, reliable', filled⟩ := Reader.fill_reliable r.schedule r.bytes want reliable
  exact ⟨_, reliable', rfl, filled⟩

/-- The payload loop checksums and collects the payload, or finds the source too short. The
induction is on the rounds left, which bound the bytes left.
-/
theorem readPayload_reliable (reliable : r.Reliable) {rounds remaining : Nat}
    (enough : remaining ≤ rounds) (crc : U32) (payload : Bytes)
    : ∃ r', r'.Reliable
        ∧ (remaining ≤ r.bytes.length → r'.bytes = r.bytes.drop remaining)
        ∧ readPayload rounds remaining crc payload r
          = .ok
              (if r.bytes.length < remaining then none
              else some (crc32cAppend crc (r.bytes.take remaining),
                payload ++ r.bytes.take remaining))
              r' := by
  induction rounds generalizing r remaining crc payload with
  | zero =>
      obtain rfl : remaining = 0 := by omega
      exact ⟨r, reliable, fun _ => rfl, by simp [readPayload, crc32cAppend_nil]; rfl⟩
  | succ rounds ih =>
      unfold readPayload
      by_cases done : remaining = 0
      · subst done
        exact ⟨r, reliable, fun _ => rfl, by simp [crc32cAppend_nil]; rfl⟩
      rw [if_neg done]
      obtain ⟨mid, reliableMid, left, got⟩ :=
        readUpto_reliable reliable (min remaining chunkLen)
      rw [bind_run_of_ok got]
      have chunk : 0 < chunkLen := by decide
      have gotLength : (r.bytes.take (min remaining chunkLen)).length
          = min (min remaining chunkLen) r.bytes.length :=
        List.length_take
      have sofar : r.bytes.take (min remaining chunkLen)
          = r.bytes.take (r.bytes.take (min remaining chunkLen)).length := by
        rw [gotLength, List.take_eq_take_iff]
        omega
      have leftover : mid.bytes
          = r.bytes.drop (r.bytes.take (min remaining chunkLen)).length := by
        rw [left, gotLength, List.drop_eq_drop_iff]
        omega
      -- the loop only sees how much arrived, not what was asked for
      generalize r.bytes.take (min remaining chunkLen) = chunkBytes at *
      by_cases ended : chunkBytes.length = 0
      · rw [if_pos ended]
        have short : r.bytes.length < remaining := by omega
        exact ⟨mid, reliableMid, fun within => by omega, by rw [if_pos short]; rfl⟩
      · rw [if_neg ended]
        obtain ⟨r', reliable', after, ran⟩ :=
          ih reliableMid (show remaining - chunkBytes.length ≤ rounds by omega)
            (crc32cAppend crc chunkBytes) (payload ++ chunkBytes)
        have midLength : mid.bytes.length = r.bytes.length - chunkBytes.length := by
          rw [leftover, List.length_drop]
        have short : mid.bytes.length < remaining - chunkBytes.length
            ↔ r.bytes.length < remaining := by omega
        have joined : chunkBytes ++ mid.bytes.take (remaining - chunkBytes.length)
            = r.bytes.take remaining := by
          rw [leftover]
          refine (congrArg (· ++ _) sofar).trans ?_
          rw [← List.take_add, Nat.add_sub_cancel' (by omega)]
        refine ⟨r', reliable', ?_, ?_⟩
        · intro within
          rw [after (by omega), leftover, List.drop_drop, Nat.add_sub_cancel' (by omega)]
        · rw [ran]
          simp only [short, crc32cAppend_append, List.append_assoc, joined]

/-- On a reliable source the streaming reader reports the scan step of the bytes, and a record
consumes exactly its frame.
-/
theorem nextRecord_reliable (reliable : r.Reliable) (maxPayloadLen : Nat) (fetchPayload : Bool)
    : ∃ r', r'.Reliable
        ∧ nextRecord maxPayloadLen fetchPayload r
          = .ok (scanFrame maxPayloadLen fetchPayload r.bytes) r'
        ∧ ∀ seq len payload, scanFrame maxPayloadLen fetchPayload r.bytes = .record seq len payload
          → r'.bytes = r.bytes.drop (frameLen len) := by
  obtain ⟨r₁, reliable₁, left₁, got₁⟩ := readUpto_reliable reliable headerLen
  unfold nextRecord scanFrame
  rw [bind_run_of_ok got₁]
  simp only [← left₁]
  generalize r.bytes.take headerLen = head at *
  by_cases empty : head.length = 0
  · simp only [if_pos empty]
    exact ⟨r₁, reliable₁, rfl, by simp⟩
  simp only [if_neg empty]
  by_cases short : head.length < headerLen
  · simp only [if_pos short]
    exact ⟨r₁, reliable₁, rfl, by simp⟩
  simp only [if_neg short]
  by_cases foreign : readU32Le head 0 ≠ magic ∨ head[4]? ≠ some version
  · simp only [if_pos foreign]
    exact ⟨r₁, reliable₁, rfl, by simp⟩
  simp only [if_neg foreign]
  by_cases long : maxPayloadLen < (readU32Le head lenOffset).val
  · simp only [if_pos long]
    exact ⟨r₁, reliable₁, rfl, by simp⟩
  simp only [if_neg long]
  generalize (readU32Le head lenOffset).val = len at *
  obtain ⟨r₂, reliable₂, left₂, got₂⟩ :=
    readPayload_reliable reliable₁ (Nat.le_refl len) (crc32c head) []
  rw [bind_run_of_ok got₂]
  by_cases torn : r₁.bytes.length < len
  · simp only [if_pos torn]
    exact ⟨r₂, reliable₂, rfl, by simp⟩
  obtain ⟨r₃, reliable₃, left₃, got₃⟩ := readUpto_reliable reliable₂ trailerLen
  have left₂ := left₂ (Nat.le_of_not_lt torn)
  simp only [if_neg torn, List.nil_append, crc32cAppend_crc32c]
  rw [bind_run_of_ok got₃, left₂]
  generalize (r₁.bytes.drop len).take trailerLen = trailer at *
  by_cases cut : trailer.length < trailerLen
  · simp only [if_pos cut]
    exact ⟨r₃, reliable₃, rfl, by simp⟩
  simp only [if_neg cut]
  by_cases corrupt : crc32c (head ++ r₁.bytes.take len) ≠ readU32Le trailer 0
  · simp only [if_pos corrupt]
    exact ⟨r₃, reliable₃, rfl, by simp⟩
  simp only [if_neg corrupt]
  refine ⟨r₃, reliable₃, rfl, ?_⟩
  intro seq len' payload accepted
  obtain ⟨-, rfl, -⟩ := ScanStep.record.inj accepted
  rw [left₃, left₂, left₁, List.drop_drop, List.drop_drop, frameLen, frameOverhead]
  congr 1
  omega

/-- `bytes` starts with a complete frame for `seq` and `payload` that passes every check. -/
structure FrameAt (maxPayloadLen : Nat) (bytes : Bytes) (seq : U64) (payload : Bytes)
    : Prop where
  complete : frameLen payload.length ≤ bytes.length
  headMagic : readU32Le (bytes.take headerLen) 0 = magic
  headVersion : (bytes.take headerLen)[4]? = some version
  headLen : (readU32Le (bytes.take headerLen) lenOffset).val = payload.length
  within : payload.length ≤ maxPayloadLen
  headSeq : readU64Le (bytes.take headerLen) seqOffset = seq
  body : (bytes.drop headerLen).take payload.length = payload
  checksum
    : crc32c (bytes.take headerLen ++ payload)
      = readU32Le (((bytes.drop headerLen).drop payload.length).take trailerLen) 0

/-- The checksum covers header and payload, and stands right behind them. -/
theorem checksum_iff (body : (bytes.drop headerLen).take payload.length = payload)
    : crc32c (bytes.take headerLen ++ payload)
          = readU32Le (((bytes.drop headerLen).drop payload.length).take trailerLen) 0
      ↔ crc32c (bytes.take (headerLen + payload.length))
          = readU32Le bytes (headerLen + payload.length) := by
  rw [List.take_add, body, List.drop_drop]
  simp only [readU32Le, List.drop_zero, trailerLen, List.take_take, Nat.min_self]

theorem FrameAt.covered (valid : FrameAt maxPayloadLen bytes seq payload)
    : crc32c (bytes.take (headerLen + payload.length))
      = readU32Le bytes (headerLen + payload.length) :=
  (checksum_iff valid.body).mp valid.checksum

/-- A scan that reports a record has passed every check before it. -/
theorem passes_check {failed : Prop} [Decidable failed] {stop step : ScanStep}
    (stops : stop ≠ .record seq len fetched)
    (accepted : (if failed then stop else step) = .record seq len fetched)
    : ¬ failed ∧ step = .record seq len fetched := by
  by_cases fails : failed
  · rw [if_pos fails] at accepted
    exact absurd accepted stops
  · rw [if_neg fails] at accepted
    exact ⟨fails, accepted⟩

/-- The scan reports a record exactly on valid frames. -/
theorem scanFrame_eq_record {fetchPayload : Bool}
    : scanFrame maxPayloadLen fetchPayload bytes = .record seq len fetched
      ↔ ∃ payload,
          FrameAt maxPayloadLen bytes seq payload
          ∧ len = payload.length
          ∧ fetched = if fetchPayload then some payload else none := by
  have positive : 0 < headerLen := by decide
  have headLength : (bytes.take headerLen).length = min headerLen bytes.length :=
    List.length_take
  have restLength : (bytes.drop headerLen).length = bytes.length - headerLen :=
    List.length_drop
  have trailerLength (n : Nat)
      : (((bytes.drop headerLen).drop n).take trailerLen).length
        = min trailerLen (bytes.length - headerLen - n) := by
    rw [List.length_take, List.length_drop, restLength]
  simp only [scanFrame]
  constructor
  · intro accepted
    obtain ⟨-, accepted⟩ := passes_check (by simp) accepted
    obtain ⟨short, accepted⟩ := passes_check (by simp) accepted
    obtain ⟨foreign, accepted⟩ := passes_check (by simp) accepted
    obtain ⟨headMagic, headVersion⟩ := not_or.mp foreign
    generalize headLen : (readU32Le (bytes.take headerLen) lenOffset).val = declared at accepted
    obtain ⟨long, accepted⟩ := passes_check (by simp) accepted
    obtain ⟨torn, accepted⟩ := passes_check (by simp) accepted
    obtain ⟨cut, accepted⟩ := passes_check (by simp) accepted
    obtain ⟨corrupt, accepted⟩ := passes_check (by simp) accepted
    obtain ⟨rfl, rfl, rfl⟩ := ScanStep.record.inj accepted
    have taken : ((bytes.drop headerLen).take declared).length = declared := by
      rw [List.length_take]
      omega
    rw [trailerLength] at cut
    refine ⟨(bytes.drop headerLen).take declared, ?_, taken.symm, rfl⟩
    exact {
      complete := by
        rw [taken, frameLen, frameOverhead]
        omega
      headMagic := not_not.mp headMagic
      headVersion := not_not.mp headVersion
      headLen := headLen.trans taken.symm
      within := by
        rw [taken]
        omega
      headSeq := rfl
      body := by rw [taken]
      checksum := by
        rw [taken]
        exact not_not.mp corrupt }
  · rintro ⟨payload, valid, rfl, rfl⟩
    have complete := valid.complete
    simp only [frameLen, frameOverhead] at complete
    have within := valid.within
    rw [valid.headLen, valid.body, if_neg (by omega), if_neg (by omega),
      if_neg (by simp [valid.headMagic, valid.headVersion]), if_neg (by omega),
      if_neg (by omega), if_neg (by rw [trailerLength]; omega),
      if_neg (not_not.mpr valid.checksum), valid.headSeq]

/-- The bytes of one record on disk. -/
def frame (seq : U64) (payload : Bytes) : Bytes :=
  header magic version seq payload.length ++ payload
    ++ Bytes.ofNat 4 (crc32c (header magic version seq payload.length ++ payload)).val

theorem encodeAppend_eq_ok (seq : U64) (within : payload.length ≤ maxPayloadLen) (dest : Bytes)
    : encodeAppend seq payload maxPayloadLen dest = .ok (dest ++ frame seq payload) := by
  simp only [encodeAppend, encodeFrameAppend, if_neg (Nat.not_lt.mpr within), frame,
    List.append_assoc]

@[simp] theorem length_header (magic : U32) (version : UInt8) (seq : U64) (payloadLen : Nat)
    : (header magic version seq payloadLen).length = headerLen := by
  simp [header, headerLen]

@[simp] theorem length_frame (seq : U64) (payload : Bytes)
    : (frame seq payload).length = frameLen payload.length := by
  simp [frame, frameLen, frameOverhead, trailerLen]
  omega

section HeaderFields

variable {seq : U64} {payloadLen : Nat}

theorem readU32Le_ofNat {n : Nat} (fits : n < 2 ^ 32) (before after : Bytes)
    : readU32Le (before ++ Bytes.ofNat 4 n ++ after) before.length = ⟨n, fits⟩ := by
  have bytes : ((before ++ Bytes.ofNat 4 n ++ after).drop before.length).take 4
      = Bytes.ofNat 4 n := by
    rw [List.append_assoc, List.drop_left]
    exact List.take_left' (Bytes.length_ofNat 4 n)
  rw [readU32Le, bytes, Bytes.toNat_ofNat (by simpa using fits)]
  exact Fin.ext (Nat.mod_eq_of_lt fits)

theorem header_magic : readU32Le (header magic version seq payloadLen) 0 = magic := by
  have read := readU32Le_ofNat magic.isLt []
    ([version, 0] ++ Bytes.ofNat 8 seq.val ++ Bytes.ofNat 4 payloadLen)
  simpa [header] using read

theorem header_version : (header magic version seq payloadLen)[4]? = some version := by
  rfl

theorem header_len (fits : payloadLen < 2 ^ 32)
    : (readU32Le (header magic version seq payloadLen) lenOffset).val = payloadLen := by
  have read := readU32Le_ofNat fits
    (Bytes.ofNat 4 magic.val ++ [version, 0] ++ Bytes.ofNat 8 seq.val) []
  rw [List.append_nil] at read
  exact congrArg Fin.val read

theorem header_seq : readU64Le (header magic version seq payloadLen) seqOffset = seq := by
  have bytes : ((header magic version seq payloadLen).drop seqOffset).take 8
      = Bytes.ofNat 8 seq.val :=
    rfl
  rw [readU64Le, bytes, Bytes.toNat_ofNat (by simp)]
  exact Fin.ext (Nat.mod_eq_of_lt seq.isLt)

end HeaderFields

theorem frameAt_frame (within : payload.length ≤ maxPayloadLen) (fits : payload.length < 2 ^ 32)
    (rest : Bytes)
    : FrameAt maxPayloadLen (frame seq payload ++ rest) seq payload := by
  generalize crc : crc32c (header magic version seq payload.length ++ payload) = checksum
  have head : (frame seq payload ++ rest).take headerLen
      = header magic version seq payload.length := by
    simp only [frame, List.append_assoc]
    exact List.take_left' (length_header ..)
  have tail : (frame seq payload ++ rest).drop headerLen
      = payload ++ (Bytes.ofNat 4 checksum.val ++ rest) := by
    simp only [frame, List.append_assoc, crc]
    exact List.drop_left' (length_header ..)
  refine {
    complete := ?_, headMagic := ?_, headVersion := ?_, headLen := ?_, within := within,
    headSeq := ?_, body := ?_, checksum := ?_ }
  · rw [List.length_append, length_frame]
    exact Nat.le_add_right ..
  · rw [head, header_magic]
  · rw [head, header_version]
  · rw [head, header_len fits]
  · rw [head, header_seq]
  · rw [tail, List.take_left]
  · rw [head, tail, List.drop_left, crc]
    have trailer : (Bytes.ofNat 4 checksum.val ++ rest).take trailerLen
        = Bytes.ofNat 4 checksum.val :=
      List.take_left' (Bytes.length_ofNat 4 _)
    have read := readU32Le_ofNat checksum.isLt [] []
    rw [trailer]
    simpa using read.symm

theorem scanFrame_frame (within : payload.length ≤ maxPayloadLen) (fits : payload.length < 2 ^ 32)
    (fetchPayload : Bool) (rest : Bytes)
    : scanFrame maxPayloadLen fetchPayload (frame seq payload ++ rest)
      = .record seq payload.length (if fetchPayload then some payload else none) :=
  scanFrame_eq_record.mpr ⟨payload, frameAt_frame within fits rest, rfl, rfl⟩

/-- A strict prefix of a frame is no frame. Witness: once the header is complete, its length
field asks for more bytes than are left.
-/
theorem not_frameAt_torn {seq' : U64} {payload' : Bytes} {cut : Nat}
    (fits : payload.length < 2 ^ 32) (torn : cut < frameLen payload.length)
    : ¬ FrameAt maxPayloadLen ((frame seq payload).take cut) seq' payload' := by
  intro valid
  have complete := valid.complete
  have enough : headerLen ≤ cut := by
    simp only [List.length_take, length_frame, frameLen, frameOverhead] at complete
    omega
  have head : ((frame seq payload).take cut).take headerLen
      = header magic version seq payload.length := by
    rw [List.take_take, Nat.min_eq_left enough]
    simp only [frame, List.append_assoc]
    exact List.take_left' (length_header ..)
  -- the header survived the cut, so it still declares the full payload
  have declared := valid.headLen
  rw [head, header_len fits] at declared
  simp only [List.length_take, length_frame, ← declared] at complete
  omega

end TrustLedger.WriteAheadLog
