import TrustLedger.SolanaSettle.Registry

/-! Whether a registry's history can be rolled back. Commits and proofs never do; an initialization
of a registry that has taken a batch always does, and nothing refuses it.
-/

namespace TrustLedger.SolanaSettle

open Foundation Merkle

/-- The registry at the start of an account's bytes. -/
def registryAt (bytes : Bytes) : Option SettlementRoot :=
  (SettlementRoot.codec.decode bytes).map Prod.fst

theorem registryAt_of_decode {bytes rest : Bytes} {root : SettlementRoot}
    (read : SettlementRoot.codec.decode bytes = some (root, rest))
    : registryAt bytes = some root := by
  rw [registryAt, read]
  rfl

theorem registryAt_write {memory : Memory} {cell : Nat} (root : SettlementRoot)
    (room : SettlementRoot.len ≤ (memory cell).length)
    : registryAt (memory.write cell root cell) = some root :=
  registryAt_of_decode (Memory.decode_write room root)

/-- Neither the sequence nor the total falls, and a new root comes with the next batch. -/
structure Advances (earlier later : SettlementRoot) : Prop where
  sequence : earlier.batchSeq ≤ later.batchSeq
  total : earlier.totalSettledAmount ≤ later.totalSettledAmount
  root : later.merkleRoot ≠ earlier.merkleRoot →
    later.batchSeq.val = earlier.batchSeq.val + 1

/-- No history is lost between two contents of an account. -/
def HistoryKept (earlier later : Bytes) : Prop :=
  ∃ before after, registryAt earlier = some before ∧ registryAt later = some after
    ∧ Advances before after

/-- The instruction initializes the account at `cell`. -/
def Call.InitializesAt (cell : Nat) (call : Call) : Prop :=
  ∃ bump, SettlementInstruction.unpack call.data = .ok (.initializeRegistry bump)
    ∧ (call.accounts[1]?.map AccountInfo.cell) = some cell

/-- A registry without batches is empty. -/
def FreshUntilCommitted (bytes : Bytes) : Prop :=
  ∃ root, registryAt bytes = some root
    ∧ (root.batchSeq = 0 → root.totalSettledAmount = 0 ∧ root.merkleRoot = Hash32.zero)

theorem Advances.refl (root : SettlementRoot) : Advances root root :=
  ⟨le_rfl, le_rfl, fun differs => absurd rfl differs⟩

theorem CommitAccepted.advances {accounts : List AccountInfo} {params : CommitParams}
    {memory : Memory} {authorityInfo pdaInfo : AccountInfo} {current next : SettlementRoot}
    (passed : CommitAccepted accounts params memory authorityInfo pdaInfo current next)
    : Advances current next ∧ next.batchSeq ≠ 0 := by
  obtain ⟨timestamp, next_eq⟩ := passed.next_eq
  have following : next.batchSeq.val = current.batchSeq.val + 1 := by
    rw [next_eq]
    exact passed.sequence
  have sum := passed.total
  refine ⟨⟨?_, ?_, fun _ => following⟩, ?_⟩
  · rw [Fin.le_def]
    omega
  · rw [Fin.le_def]
    omega
  · rw [← Fin.pos_iff_ne_zero, Fin.lt_def, following]
    exact Nat.succ_pos _

section Steps

variable {rt : Runtime} {programId : Pubkey} {cell : Nat} {bytes : Bytes} {call : Call}

/-- What an accepted instruction does to the registry at `cell`: nothing, the next batch, or an
initialization.
-/
theorem Call.Succeeds.cases (succeeds : call.Succeeds rt programId cell bytes)
    : (call.step rt programId cell bytes = bytes ∧ ¬ call.InitializesAt cell)
      ∨ (∃ current next, registryAt bytes = some current
          ∧ registryAt (call.step rt programId cell bytes) = some next
          ∧ Advances current next ∧ next.batchSeq ≠ 0 ∧ ¬ call.InitializesAt cell)
      ∨ (∃ authority bump,
          registryAt (call.step rt programId cell bytes) = some (.initial authority bump)
          ∧ call.InitializesAt cell) := by
  have ran := eq_ok_of_isSome succeeds
  obtain ⟨instruction, unpacked, handled⟩ := process_eq_ok.mp ran
  have step_eq {memory' : Memory} (result : stateAfter (call.run rt programId cell bytes) = memory')
      : call.step rt programId cell bytes = memory' cell := congrFun result cell
  have only {bump : Fin 256}
      (initializes : SettlementInstruction.unpack call.data = .ok (.initializeRegistry bump))
      : instruction = .initializeRegistry bump :=
    Except.ok.inj (unpacked.symm.trans initializes)
  cases instruction with
  | initializeRegistry bump =>
      obtain ⟨authorityInfo, pdaInfo, passed, room, written⟩ := processInitialize_ok handled
      obtain ⟨rest, accounts⟩ := passed.accounts_eq
      rcases eq_or_ne cell pdaInfo.cell with rfl | elsewhere
      · refine .inr (.inr ⟨authorityInfo.key, bump, ?_, bump, unpacked, by simp [accounts]⟩)
        rw [step_eq written]
        exact registryAt_write _ room
      · refine .inl ⟨?_, ?_⟩
        · rw [step_eq written, Memory.write_of_ne elsewhere, Function.update_self]
        · rintro ⟨_, _, names⟩
          exact elsewhere (by simpa [accounts] using names.symm)
  | commitSettlement params =>
      obtain ⟨target, next, admitted, room, written⟩ := store_eq_ok.mp handled
      obtain ⟨authorityInfo, pdaInfo, current, passed, rfl⟩ := admitCommit_ok admitted
      have other : ¬ call.InitializesAt cell := by
        rintro ⟨bump, initializes, _⟩
        cases only initializes
      rcases eq_or_ne cell pdaInfo.cell with rfl | elsewhere
      · have read := passed.read
        rw [Function.update_self] at read
        refine .inr (.inl ⟨current, next, registryAt_of_decode read, ?_, passed.advances.1,
          passed.advances.2, other⟩)
        rw [step_eq written.symm]
        exact registryAt_write _ room
      · refine .inl ⟨?_, other⟩
        rw [step_eq written.symm, Memory.write_of_ne elsewhere, Function.update_self]
  | verifyInclusion leafHash proofBytes =>
      obtain ⟨-, unchanged⟩ := processVerifyInclusion_eq_ok.mp handled
      refine .inl ⟨?_, ?_⟩
      · rw [step_eq unchanged.symm, Function.update_self]
      · rintro ⟨bump, initializes, _⟩
        cases only initializes

theorem FreshUntilCommitted.step (fresh : FreshUntilCommitted bytes)
    (succeeds : call.Succeeds rt programId cell bytes)
    : FreshUntilCommitted (call.step rt programId cell bytes) := by
  rcases succeeds.cases with ⟨same, _⟩ | ⟨_, next, _, read, _, started, _⟩
    | ⟨authority, bump, read, _⟩
  · rw [same]
    exact fresh
  · exact ⟨next, read, fun none_yet => absurd none_yet started⟩
  · exact ⟨_, read, fun _ => ⟨rfl, rfl⟩⟩

/-- An accepted instruction loses history exactly when it initializes a registry with batches. -/
theorem historyKept_step_iff (fresh : FreshUntilCommitted bytes)
    (succeeds : call.Succeeds rt programId cell bytes)
    : HistoryKept bytes (call.step rt programId cell bytes)
      ↔ (call.InitializesAt cell →
          ∀ root, registryAt bytes = some root → root.batchSeq = 0) := by
  obtain ⟨root, read, empty⟩ := fresh
  rcases succeeds.cases with ⟨same, other⟩ | ⟨current, next, found, after, advances, _, other⟩
    | ⟨authority, bump, after, initializes⟩
  · refine ⟨fun _ initializes => absurd initializes other, fun _ => ?_⟩
    rw [same]
    exact ⟨root, root, read, read, .refl root⟩
  · refine ⟨fun _ initializes => absurd initializes other, fun _ => ?_⟩
    exact ⟨current, next, found, after, advances⟩
  · constructor
    · rintro ⟨before, later, foundBefore, foundLater, advances⟩ _ root' found
      obtain rfl : before = root' := Option.some.inj (foundBefore.symm.trans found)
      obtain rfl : .initial authority bump = later :=
        Option.some.inj (after.symm.trans foundLater)
      exact Fin.le_zero_iff.mp advances.sequence
    · intro unstarted
      have none_yet := unstarted initializes root read
      obtain ⟨noTotal, noRoot⟩ := empty none_yet
      refine ⟨root, _, read, after, ?_, ?_, fun differs => absurd ?_ differs⟩
      · exact none_yet.le
      · exact noTotal.le
      · exact noRoot.symm

end Steps

/-- From its first initialization on, a registry sent accepted instructions keeps its history
exactly as long as none of them initializes it after its first batch.
-/
theorem history_kept_iff (rt : Runtime) (programId : Pubkey) (authorityInfo pdaInfo : AccountInfo)
    (rest : List AccountInfo) (bump : Fin 256) (memory memory' : Memory)
    (initialized : process rt programId (authorityInfo :: pdaInfo :: rest)
      (SettlementInstruction.initializeRegistry bump).pack memory = .ok () memory')
    (calls : List Call) (accepted : Guarded (Call.step rt programId pdaInfo.cell)
      (fun bytes call => call.Succeeds rt programId pdaInfo.cell bytes) (memory' pdaInfo.cell)
      calls)
    : Guarded (Call.step rt programId pdaInfo.cell)
        (fun bytes call => HistoryKept bytes (call.step rt programId pdaInfo.cell bytes))
        (memory' pdaInfo.cell) calls
      ↔ Guarded (Call.step rt programId pdaInfo.cell)
          (fun bytes call => call.InitializesAt pdaInfo.cell →
            ∀ root, registryAt bytes = some root → root.batchSeq = 0)
          (memory' pdaInfo.cell) calls := by
  rw [process_pack] at initialized
  obtain ⟨signer, registry, passed, room, rfl⟩ := processInitialize_ok initialized
  obtain ⟨others, same⟩ := passed.accounts_eq
  cases same
  have start : FreshUntilCommitted
      (memory.write pdaInfo.cell (.initial authorityInfo.key bump) pdaInfo.cell) :=
    ⟨_, registryAt_write _ room, fun _ => ⟨rfl, rfl⟩⟩
  have kept : ∀ (bytes : Bytes) (call : Call), FreshUntilCommitted bytes →
      call.Succeeds rt programId pdaInfo.cell bytes →
      FreshUntilCommitted (call.step rt programId pdaInfo.cell bytes) :=
    fun _ _ fresh succeeds => fresh.step succeeds
  exact guarded_congr kept (fun _ _ fresh succeeds => historyKept_step_iff fresh succeeds) start
    accepted

/-- Initialize the example registry. -/
def exampleInitialize : Call :=
  {
    accounts := [exampleAuthority, exampleRegistry]
    data := (SettlementInstruction.initializeRegistry 7).pack
    memory := exampleMemory
  }

/-- Witness: the example registry keeps its history over its first batch. -/
theorem history_kept_first_batch
    : Guarded (Call.step oneRegistry (repeatedKey 3) 1)
        (fun bytes call => HistoryKept bytes (call.step oneRegistry (repeatedKey 3) 1 bytes))
        (exampleInitialized 1) [exampleCommit.call] := by
  refine (history_kept_iff oneRegistry (repeatedKey 3) exampleAuthority exampleRegistry [] 7
    exampleMemory exampleInitialized (eq_ok_of_isSome (by decide +kernel)) [exampleCommit.call]
    (guarded_cons.mpr ⟨by decide +kernel, guarded_nil⟩)).mpr
    (guarded_cons.mpr ⟨?_, guarded_nil⟩)
  rintro ⟨bump, unpacked, _⟩
  cases (SettlementInstruction.unpack_pack _).symm.trans unpacked

/-- A registry with one batch can be initialized again: its sequence number falls back to zero. -/
theorem reinitialized_registry_loses_history
    : Guarded (Call.step oneRegistry (repeatedKey 3) 1)
        (fun bytes call => call.Succeeds oneRegistry (repeatedKey 3) 1 bytes)
        (exampleInitialized 1) [exampleCommit.call, exampleInitialize]
      ∧ ¬ Guarded (Call.step oneRegistry (repeatedKey 3) 1)
          (fun bytes call => HistoryKept bytes (call.step oneRegistry (repeatedKey 3) 1 bytes))
          (exampleInitialized 1) [exampleCommit.call, exampleInitialize] := by
  constructor
  · exact guarded_cons.mpr ⟨by decide +kernel, guarded_cons.mpr ⟨by decide +kernel, guarded_nil⟩⟩
  · intro kept
    obtain ⟨-, later⟩ := guarded_cons.mp kept
    obtain ⟨⟨before, after, foundBefore, foundAfter, advances⟩, -⟩ := guarded_cons.mp later
    have one : (registryAt (exampleCommit.call.step oneRegistry (repeatedKey 3) 1
        (exampleInitialized 1))).map SettlementRoot.batchSeq = some 1 := by decide +kernel
    have zero : (registryAt (exampleInitialize.step oneRegistry (repeatedKey 3) 1
        (exampleCommit.call.step oneRegistry (repeatedKey 3) 1 (exampleInitialized 1)))).map
        SettlementRoot.batchSeq = some 0 := by decide +kernel
    rw [foundBefore, Option.map_some, Option.some.injEq] at one
    rw [foundAfter, Option.map_some, Option.some.injEq] at zero
    exact absurd (one ▸ zero ▸ advances.sequence) (by decide)

end TrustLedger.SolanaSettle
