import TrustLedger.Foundation.Guarded
import TrustLedger.SolanaSettle.Handlers

/-! One registry over a run of instructions. Commits chain the batches they accept, add up their
amounts exactly and leave the registry's owner alone; but initializing a registry again starts its
history over.

Between two instructions every other account may change, so each call comes with the data it finds
there.
-/

namespace TrustLedger.SolanaSettle

open Foundation Merkle

/-- An instruction sent to the program, and the data of the accounts at that time. -/
structure Call where
  accounts : List AccountInfo
  data : Bytes
  memory : Memory

section Runs

variable (rt : Runtime) (programId : Pubkey) (cell : Nat)

/-- Run an instruction while the account at `cell` holds the given bytes. -/
def Call.run (bytes : Bytes) (call : Call) : EStateM.Result Failure Memory Unit :=
  process rt programId call.accounts call.data (Function.update call.memory cell bytes)

/-- The bytes at `cell` after an instruction, accepted or not. -/
def Call.step (bytes : Bytes) (call : Call) : Bytes :=
  stateAfter (call.run rt programId cell bytes) cell

/-- The program accepts an instruction. -/
def Call.Succeeds (bytes : Bytes) (call : Call) : Prop :=
  (outcome (call.run rt programId cell bytes)).isSome

instance Call.decidableSucceeds (bytes : Bytes) (call : Call)
    : Decidable (call.Succeeds rt programId cell bytes) :=
  inferInstanceAs (Decidable ((outcome (call.run rt programId cell bytes)).isSome = true))

variable {rt programId cell} {bytes : Bytes} {call : Call}

theorem Call.step_of_not_succeeds (failed : ¬ call.Succeeds rt programId cell bytes)
    : call.step rt programId cell bytes = bytes := by
  unfold Call.Succeeds at failed
  unfold Call.step
  cases ran : call.run rt programId cell bytes with
  | ok _ memory => simp [ran, outcome] at failed
  | error failure memory =>
      rw [process_atomic rt programId call.accounts call.data _ _ _ ran]
      exact Function.update_self ..

end Runs

/-- A commit sent to the program, and the data of the accounts at that time. -/
structure CommitCall where
  accounts : List AccountInfo
  params : CommitParams
  memory : Memory

def CommitCall.call (commit : CommitCall) : Call :=
  {
    accounts := commit.accounts
    data := (SettlementInstruction.commitSettlement commit.params).pack
    memory := commit.memory
  }

section Commits

variable (rt : Runtime) (programId : Pubkey) (cell : Nat)

/-- A commit is accepted for the registry at `cell`. -/
def CommitCall.Accepted (bytes : Bytes) (commit : CommitCall) : Prop :=
  (commit.accounts[1]?.map AccountInfo.cell) = some cell
    ∧ commit.call.Succeeds rt programId cell bytes

instance CommitCall.decidableAccepted (bytes : Bytes) (commit : CommitCall)
    : Decidable (commit.Accepted rt programId cell bytes) :=
  inferInstanceAs (Decidable (_ ∧ _))

/-- The bytes of the registry after a run of commits. -/
def bytesAfter (bytes : Bytes) (commits : List CommitCall) : Bytes :=
  commits.foldl (fun bytes commit => commit.call.step rt programId cell bytes) bytes

theorem bytesAfter_cons (bytes : Bytes) (commit : CommitCall) (rest : List CommitCall)
    : bytesAfter rt programId cell bytes (commit :: rest)
      = bytesAfter rt programId cell (commit.call.step rt programId cell bytes) rest :=
  List.foldl_cons ..

/-- The commits of a run that are accepted for the registry at `cell`. -/
def acceptedCommits : Bytes → List CommitCall → List CommitCall
  | _, [] => []
  | bytes, commit :: rest =>
      if commit.Accepted rt programId cell bytes then
        commit :: acceptedCommits (commit.call.step rt programId cell bytes) rest
      else
        acceptedCommits (commit.call.step rt programId cell bytes) rest

end Commits

/-- What a registry says about the commits it has accepted. -/
structure Chained (authority : Pubkey) (bump : Fin 256) (accepted : List CommitCall)
    (root : SettlementRoot) : Prop where
  sequence : root.batchSeq.val = accepted.length
  latest : ∀ last, accepted.getLast? = some last →
    root.merkleRoot = last.params.merkleRoot
    ∧ root.transferCount = last.params.transferCount
    ∧ 0 < root.transferCount
  linked : accepted.IsChain fun earlier later =>
    later.params.previousRoot = earlier.params.merkleRoot
  total : root.totalSettledAmount.val
    = (accepted.map fun commit => commit.params.totalSettledAmount.val).sum
  authority_eq : root.authority = authority
  bump_eq : root.bump = bump
  signed : ∀ commit ∈ accepted, ∃ info rest,
    commit.accounts = info :: rest ∧ info.isSigner ∧ info.key = authority

section Chaining

variable {rt : Runtime} {programId : Pubkey} {cell : Nat} {authority : Pubkey} {bump : Fin 256}
  {accepted : List CommitCall} {root : SettlementRoot} {commit : CommitCall}

theorem chained_initial (authority : Pubkey) (bump : Fin 256)
    : Chained authority bump [] (.initial authority bump) where
  sequence := rfl
  latest last found := by cases found
  linked := List.isChain_nil
  total := rfl
  authority_eq := rfl
  bump_eq := rfl
  signed commit mem := by cases mem

/-- A registry that fills its account is all there is. -/
theorem Memory.write_full {memory : Memory} (full : (memory cell).length = SettlementRoot.len)
    (next : SettlementRoot)
    : memory.write cell next cell = SettlementRoot.codec.encode next := by
  have same : (SettlementRoot.codec.encode next).length = (memory cell).length := by
    rw [SettlementRoot.codec_width, full]
  rw [Memory.write_self, overwrite_of_le same.le, same, List.drop_length, List.append_nil]

theorem CommitCall.run_call {bytes : Bytes}
    : commit.call.run rt programId cell bytes
      = store (admitCommit rt commit.accounts commit.params)
          (Function.update commit.memory cell bytes) :=
  congrFun (process_pack (.commitSettlement commit.params)) _

/-- A commit that succeeds has passed its checks, and writes the account it names. -/
theorem CommitCall.succeeds_inv {bytes : Bytes}
    (succeeds : commit.call.Succeeds rt programId cell bytes)
    : ∃ authorityInfo pdaInfo current next,
        CommitAccepted commit.accounts commit.params (Function.update commit.memory cell bytes)
          authorityInfo pdaInfo current next
        ∧ commit.call.step rt programId cell bytes
          = Memory.write (Function.update commit.memory cell bytes) pdaInfo.cell next cell := by
  have ran := eq_ok_of_isSome succeeds
  rw [CommitCall.run_call] at ran
  obtain ⟨target, next, admitted, -, written⟩ := store_eq_ok.mp ran
  obtain ⟨authorityInfo, pdaInfo, current, passed, rfl⟩ := admitCommit_ok admitted
  refine ⟨authorityInfo, pdaInfo, current, next, passed, ?_⟩
  rw [Call.step, CommitCall.run_call]
  exact (congrFun written cell).symm

/-- An accepted commit extends the chain by one batch. -/
theorem Chained.accept (chained : Chained authority bump accepted root)
    (takes : commit.Accepted rt programId cell (SettlementRoot.codec.encode root))
    : ∃ next, commit.call.step rt programId cell (SettlementRoot.codec.encode root)
          = SettlementRoot.codec.encode next
        ∧ Chained authority bump (accepted ++ [commit]) next := by
  obtain ⟨authorityInfo, pdaInfo, current, next, passed, written⟩ :=
    CommitCall.succeeds_inv takes.2
  obtain ⟨others, accounts⟩ := passed.accounts_eq
  obtain rfl : pdaInfo.cell = cell := by simpa [accounts] using takes.1
  obtain rfl : root = current := by
    have read := passed.read
    rw [Function.update_self, Codec.decode_encode_self] at read
    cases read
    rfl
  rw [Memory.write_full (by rw [Function.update_self, SettlementRoot.codec_width])] at written
  obtain ⟨timestamp, next_eq⟩ := passed.next_eq
  refine ⟨next, written, ?_⟩
  constructor
  case sequence =>
    rw [next_eq, List.length_append, ← chained.sequence]
    exact passed.sequence
  case latest =>
    intro last found
    obtain rfl : commit = last := by simpa using found
    rw [next_eq]
    exact ⟨rfl, rfl, Fin.pos_iff_ne_zero.mpr passed.nonempty⟩
  case linked =>
    refine chained.linked.append (List.isChain_singleton commit) fun earlier last later first => ?_
    obtain rfl : commit = later := by simpa using first
    -- the batch before this one is the last accepted, whose root the registry still holds
    have started : 0 < root.batchSeq := by
      rw [Fin.lt_def, chained.sequence]
      exact List.length_pos_iff.mpr fun none_yet => by simp [none_yet] at last
    rw [passed.chained started]
    exact (chained.latest earlier last).1
  case total =>
    rw [passed.total, chained.total, List.map_append, List.sum_append]
    simp
  case authority_eq =>
    rw [next_eq]
    exact chained.authority_eq
  case bump_eq =>
    rw [next_eq]
    exact chained.bump_eq
  case signed =>
    intro call mem
    rcases List.mem_append.mp mem with earlier | new
    · exact chained.signed call earlier
    · obtain rfl : call = commit := List.mem_singleton.mp new
      exact ⟨authorityInfo, pdaInfo :: others, accounts, passed.signed,
        passed.authority.symm.trans chained.authority_eq⟩

theorem CommitCall.step_of_not_accepted {bytes : Bytes}
    (other : ¬ commit.Accepted rt programId cell bytes)
    : commit.call.step rt programId cell bytes = bytes := by
  by_cases succeeds : commit.call.Succeeds rt programId cell bytes
  · -- it was accepted for an account elsewhere
    obtain ⟨authorityInfo, pdaInfo, current, next, passed, written⟩ :=
      CommitCall.succeeds_inv succeeds
    obtain ⟨others, accounts⟩ := passed.accounts_eq
    have elsewhere : cell ≠ pdaInfo.cell := by
      rintro rfl
      exact other ⟨by simp [accounts], succeeds⟩
    rw [written, Memory.write_of_ne elsewhere, Function.update_self]
  · exact Call.step_of_not_succeeds succeeds

theorem Chained.run (chained : Chained authority bump accepted root) (commits : List CommitCall)
    : ∃ next, bytesAfter rt programId cell (SettlementRoot.codec.encode root) commits
          = SettlementRoot.codec.encode next
        ∧ Chained authority bump
            (accepted ++ acceptedCommits rt programId cell (SettlementRoot.codec.encode root)
              commits)
            next := by
  induction commits generalizing accepted root with
  | nil => exact ⟨root, rfl, by simpa [acceptedCommits] using chained⟩
  | cons commit rest ih =>
      rw [bytesAfter_cons, acceptedCommits]
      split
      · rename_i takes
        obtain ⟨next, written, longer⟩ := chained.accept takes
        rw [written]
        simpa using ih longer
      · rename_i other
        rw [CommitCall.step_of_not_accepted other]
        exact ih chained

end Chaining

theorem processInitialize_ok {rt : Runtime} {programId : Pubkey} {accounts : List AccountInfo}
    {bump : Fin 256} {memory memory' : Memory}
    (ran : processInitialize rt programId accounts bump memory = .ok () memory')
    : ∃ authorityInfo pdaInfo,
        InitializeAccepted rt programId accounts bump authorityInfo pdaInfo
        ∧ SettlementRoot.len ≤ (memory pdaInfo.cell).length
        ∧ memory' = memory.write pdaInfo.cell (.initial authorityInfo.key bump) := by
  obtain ⟨cell, root, admitted, room, written⟩ := store_eq_ok.mp ran
  obtain ⟨authorityInfo, pdaInfo, passed, rfl, rfl⟩ := admitInitialize_eq_ok.mp admitted
  exact ⟨authorityInfo, pdaInfo, passed, room, written.symm⟩

/-- A registry of 177 bytes, initialized once and then sent any commits: a failed instruction
changes nothing, and the registry chains and adds up exactly the accepted commits, which its
authority signed.
-/
theorem settlement_chain (rt : Runtime) (programId : Pubkey) (authorityInfo pdaInfo : AccountInfo)
    (rest : List AccountInfo) (bump : Fin 256) (memory memory' : Memory)
    (size : (memory pdaInfo.cell).length = 177)
    (initialized : process rt programId (authorityInfo :: pdaInfo :: rest)
      (SettlementInstruction.initializeRegistry bump).pack memory = .ok () memory')
    (commits : List CommitCall)
    : (∀ accounts data, Atomic (process rt programId accounts data))
      ∧ ∃ root,
          SettlementRoot.deserializeFrom
              (bytesAfter rt programId pdaInfo.cell (memory' pdaInfo.cell) commits) = .ok root
          ∧ Chained authorityInfo.key bump
              (acceptedCommits rt programId pdaInfo.cell (memory' pdaInfo.cell) commits) root := by
  refine ⟨process_atomic rt programId, ?_⟩
  rw [process_pack] at initialized
  obtain ⟨signer, registry, passed, room, rfl⟩ := processInitialize_ok initialized
  obtain ⟨others, same⟩ := passed.accounts_eq
  cases same
  rw [Memory.write_full size]
  obtain ⟨root, bytes, chained⟩ := (chained_initial authorityInfo.key bump).run commits
  refine ⟨root, ?_, by simpa using chained⟩
  rw [bytes, SettlementRoot.deserializeFrom_eq_ok, Codec.decode_encode_self]

section Examples

/-- The address made of one byte. -/
def repeatedKey (byte : UInt8) : Pubkey :=
  ⟨List.replicate 32 byte, List.length_replicate⟩

/-- A runtime with one address to derive: that of the registry of key 1 at bump 7. -/
def oneRegistry : Runtime :=
  {
    createProgramAddress := fun seeds _ =>
      if seeds = [SettlementRoot.pdaSeed, (repeatedKey 1).bytes, [7]] then some (repeatedKey 2)
      else none
    clockId := repeatedKey 9
    sha256 := polynomialHash
  }

def exampleAuthority : AccountInfo :=
  { key := repeatedKey 1, owner := repeatedKey 0, isSigner := true, cell := 0 }

def exampleRegistry : AccountInfo :=
  { key := repeatedKey 2, owner := repeatedKey 3, isSigner := false, cell := 1 }

/-- An account of 177 zero bytes for the registry, the others empty. -/
def exampleMemory : Memory :=
  fun cell => if cell = 1 then List.replicate 177 0 else []

/-- The first batch of the example registry. -/
def exampleBatch : CommitParams :=
  {
    epoch := 1
    batchSeq := 1
    merkleRoot := hashLeaf polynomialHash [1]
    previousRoot := Hash32.zero
    transferCount := 1
    totalSettledAmount := 500
    chainTip := Hash32.zero
  }

def exampleCommit : CommitCall :=
  {
    accounts := [exampleAuthority, exampleRegistry]
    params := exampleBatch
    memory := exampleMemory
  }

/-- The accounts' data after the example registry has been initialized. -/
def exampleInitialized : Memory :=
  stateAfter (process oneRegistry (repeatedKey 3) [exampleAuthority, exampleRegistry]
    (SettlementInstruction.initializeRegistry 7).pack exampleMemory)

/-- Witness: the example registry takes its first batch once. -/
theorem settlement_chain_once
    : ∃ root,
        SettlementRoot.deserializeFrom
            (bytesAfter oneRegistry (repeatedKey 3) 1 (exampleInitialized 1)
              [exampleCommit, exampleCommit]) = .ok root
        ∧ Chained (repeatedKey 1) 7
            (acceptedCommits oneRegistry (repeatedKey 3) 1 (exampleInitialized 1)
              [exampleCommit, exampleCommit])
            root :=
  (settlement_chain oneRegistry (repeatedKey 3) exampleAuthority exampleRegistry [] 7
    exampleMemory exampleInitialized (by decide +kernel)
    (eq_ok_of_isSome (by decide +kernel)) [exampleCommit, exampleCommit]).2

example
    : (acceptedCommits oneRegistry (repeatedKey 3) 1 (exampleInitialized 1)
        [exampleCommit, exampleCommit]).length = 1 := by
  decide +kernel

end Examples

end TrustLedger.SolanaSettle
