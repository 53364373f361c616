import TrustLedger.SolanaSettle.Registry

/-! The first commit to a fresh registry. An initialization needs room for the registry; every later
handler reads an account that is nothing but the registry. So a registry in a longer account is
initialized, and then refuses every batch.
-/

namespace TrustLedger.SolanaSettle

open Foundation Merkle

/-- The account passed as the clock, if it is the clock, is not the registry. -/
def ClockApart (rt : Runtime) (clockInfo : Option AccountInfo) (cell : Nat) : Prop :=
  ∀ info, clockInfo = some info → info.key = rt.clockId → info.cell ≠ cell

section Clock

variable {rt : Runtime} {clockInfo : Option AccountInfo} {cell : Nat} {memory : Memory}

/-- Reading the time stops the program only at the registry's own data. -/
theorem exists_clockTimestamp_iff
    : (∃ timestamp, clockTimestamp rt clockInfo cell memory = .ok timestamp)
      ↔ ClockApart rt clockInfo cell := by
  cases clockInfo with
  | none => simp [clockTimestamp, ClockApart]
  | some info =>
      by_cases clock : info.key = rt.clockId
      · by_cases same : info.cell = cell
        · simp [clockTimestamp, ClockApart, clock, same]
        · cases decoded : Clock.codec.decode (memory info.cell) with
          | none => simp [clockTimestamp, ClockApart, clock, same, decoded]
          | some read => simp [clockTimestamp, ClockApart, clock, same, decoded]
      · simp [clockTimestamp, ClockApart, clock]

end Clock

section First

variable {rt : Runtime} {authorityInfo pdaInfo : AccountInfo} {others : List AccountInfo}
  {params : CommitParams} {memory : Memory} {bump : Fin 256}

/-- A first commit that can read the registry passes its checks if it can read the clock. -/
theorem admitCommit_initial {cell : Nat} {next : SettlementRoot} (signed : authorityInfo.isSigner)
    (first : params.batchSeq = 1) (nonempty : params.transferCount ≠ 0)
    (read : SettlementRoot.codec.decode (memory pdaInfo.cell)
      = some (.initial authorityInfo.key bump, []))
    : admitCommit rt (authorityInfo :: pdaInfo :: others) params memory = .ok (cell, next)
      ↔ ∃ timestamp, clockTimestamp rt others.head? pdaInfo.cell memory = .ok timestamp
          ∧ pdaInfo.cell = cell
          ∧ (SettlementRoot.initial authorityInfo.key bump).committed params
              params.totalSettledAmount timestamp = next := by
  simp only [admitCommit, bind_eq_ok, nextAccountInfo_eq_ok, ensure_eq_ok, okOr_eq_ok,
    pure_eq_ok, lift_eq_ok, SettlementRoot.deserializeFrom_eq_ok, checkedAdd_eq_some,
    Prod.exists, Prod.mk.injEq]
  have start : (SettlementRoot.initial authorityInfo.key bump).totalSettledAmount.val = 0 := rfl
  constructor
  · rintro ⟨_, _, accounts, _, _, more, _, _, _, _, current, found, _, _, _, _, _, _, _, _,
      timestamp, time, total, sum, same⟩
    cases accounts
    cases more
    obtain rfl : SettlementRoot.initial _ bump = current := by
      rw [read] at found
      cases found
      rfl
    obtain rfl : total = params.totalSettledAmount := Fin.ext (by rw [sum, start, Nat.zero_add])
    exact ⟨timestamp, time, same⟩
  · rintro ⟨timestamp, time, same⟩
    refine ⟨authorityInfo, _, rfl, pdaInfo, _, rfl, (), signed, (), nonempty, _, read, (), rfl, 1,
      rfl, (), first, (), ?_, timestamp, time, params.totalSettledAmount, ?_, same⟩
    · exact fun later => absurd later.1 (lt_irrefl _)
    · rw [start, Nat.zero_add]

end First

/-- After an initialization, the authority's first batch is taken and read back as committed exactly
if the account is as long as a registry and is not passed as the clock as well. -/
theorem first_commit_iff (rt : Runtime) (programId : Pubkey) (authorityInfo pdaInfo : AccountInfo)
    (rest : List AccountInfo) (bump : Fin 256) (memory memory' : Memory)
    (initialized : processInitialize rt programId (authorityInfo :: pdaInfo :: rest) bump memory
      = .ok () memory') (signer : AccountInfo) (others : List AccountInfo) (params : CommitParams)
    (signed : signer.isSigner) (sameKey : signer.key = authorityInfo.key)
    (first : params.batchSeq = 1) (nonempty : params.transferCount ≠ 0)
    : (∃ memory'' timestamp,
        processCommitSettlement rt (signer :: pdaInfo :: others) params memory' = .ok () memory''
        ∧ clockTimestamp rt others.head? pdaInfo.cell memory' = .ok timestamp
        ∧ SettlementRoot.deserializeFrom (memory'' pdaInfo.cell)
          = .ok ((SettlementRoot.initial authorityInfo.key bump).committed params
              params.totalSettledAmount timestamp))
      ↔ (memory pdaInfo.cell).length = SettlementRoot.len
        ∧ ClockApart rt others.head? pdaInfo.cell := by
  obtain ⟨owner, registry, passed, room, rfl⟩ := processInitialize_ok initialized
  obtain ⟨_, same⟩ := passed.accounts_eq
  cases same
  have stored := Memory.decode_write room (.initial authorityInfo.key bump)
  constructor
  · rintro ⟨memory'', timestamp, committed, time, -⟩
    obtain ⟨cell, next, admitted, -, -⟩ := store_eq_ok.mp committed
    obtain ⟨_, registry, current, accepted, _⟩ := admitCommit_ok admitted
    obtain ⟨_, same⟩ := accepted.accounts_eq
    cases same
    have short : (memory pdaInfo.cell).drop SettlementRoot.len = [] := by
      have read := accepted.read
      rw [stored] at read
      exact (Prod.mk.inj (Option.some.inj read)).2
    exact ⟨le_antisymm (List.drop_eq_nil_iff.mp short) room,
      exists_clockTimestamp_iff.mp ⟨timestamp, time⟩⟩
  · intro ⟨full, apart⟩
    rw [List.drop_of_length_le full.le, ← sameKey] at stored
    rw [← sameKey]
    have size : (memory.write pdaInfo.cell (.initial signer.key bump) pdaInfo.cell).length
        = SettlementRoot.len := by
      rw [Memory.write_full full, SettlementRoot.codec_width]
    obtain ⟨timestamp, time⟩ := exists_clockTimestamp_iff.mpr apart
    have admitted := (admitCommit_initial signed first nonempty stored).mpr
      ⟨timestamp, time, rfl, rfl⟩
    refine ⟨_, timestamp, store_eq_ok.mpr ⟨_, _, admitted, size.ge, rfl⟩, time, ?_⟩
    rw [SettlementRoot.deserializeFrom_eq_ok, Memory.write_full size, Codec.decode_encode_self]

section Examples

/-- An account of one byte more than a registry, the others empty. -/
def longerMemory : Memory :=
  fun cell => if cell = 1 then List.replicate 178 0 else []

/-- The accounts' data after the longer account has been initialized. -/
def longerInitialized : Memory :=
  stateAfter (processInitialize oneRegistry (repeatedKey 3) [exampleAuthority, exampleRegistry] 7
    longerMemory)

/-- One byte too many: the registry is initialized, and its authority's first batch is refused. -/
theorem longer_account_unusable
    : processInitialize oneRegistry (repeatedKey 3) [exampleAuthority, exampleRegistry] 7
          longerMemory = .ok () longerInitialized
      ∧ exampleAuthority.isSigner ∧ exampleBatch.batchSeq = 1 ∧ exampleBatch.transferCount ≠ 0
      ∧ ∀ memory, processCommitSettlement oneRegistry [exampleAuthority, exampleRegistry]
          exampleBatch longerInitialized ≠ .ok () memory := by
  refine ⟨eq_ok_of_isSome (by decide +kernel), rfl, rfl, by decide, ?_⟩
  intro memory committed
  have refused : (outcome (processCommitSettlement oneRegistry [exampleAuthority, exampleRegistry]
      exampleBatch longerInitialized)).isSome = false := by
    decide +kernel
  rw [committed] at refused
  cases refused

/-- The accounts' data after an account of the right length has been initialized. -/
def fittingInitialized : Memory :=
  stateAfter (processInitialize oneRegistry (repeatedKey 3) [exampleAuthority, exampleRegistry] 7
    exampleMemory)

/-- Witness: in an account of the right length the first batch is taken. -/
theorem first_commit_iff_fitting
    : ∃ memory timestamp,
        processCommitSettlement oneRegistry [exampleAuthority, exampleRegistry] exampleBatch
          fittingInitialized = .ok () memory
        ∧ clockTimestamp oneRegistry [].head? 1 fittingInitialized = .ok timestamp
        ∧ SettlementRoot.deserializeFrom (memory 1)
          = .ok ((SettlementRoot.initial (repeatedKey 1) 7).committed exampleBatch 500 timestamp) :=
  (first_commit_iff oneRegistry (repeatedKey 3) exampleAuthority exampleRegistry [] 7 exampleMemory
    fittingInitialized (eq_ok_of_isSome (by decide +kernel)) exampleAuthority [] exampleBatch
    rfl rfl
    rfl (by decide)).mpr ⟨by decide +kernel, fun info none_given => by cases none_given⟩

end Examples

end TrustLedger.SolanaSettle
