import TrustLedger.Simulator.Durability

/-! A node on its own, with operations at arbitrary indexes, crashes of its disk and recoveries.
Whatever a crash leaves behind the frames, recovery reads back what was applied.
-/

namespace TrustLedger.Simulator

open Foundation LedgerCore WriteAheadLog

/-- What can happen to a node. The draws are the random numbers of the crash. -/
inductive NodeStep where
  | applyOp (index : U64) (op : WorkloadOp) (timestamp : U64)
  | crash (tornWrite : Bool) (draws : List U64)
  | recover

namespace NodeStep

def run : NodeStep → SimNode → Option SimNode
  | .applyOp index op timestamp, node => some (node.applyOp index op timestamp)
  | .crash tornWrite draws, node =>
      (node.disk.crash tornWrite draws).map fun (disk, _) => { node with disk }
  | .recover, node => some node.recover

/-- The entry a step writes to the log. -/
def entry? : NodeStep → Option SimWalEntry
  | .applyOp index op timestamp => some ⟨index, timestamp, op⟩
  | .crash .. | .recover => none

end NodeStep

def runSteps (steps : List NodeStep) (node : SimNode) : Option SimNode :=
  steps.foldlM (fun node step => step.run node) node

/-- The entries written by steps, in order. -/
def written (steps : List NodeStep) : List SimWalEntry :=
  steps.filterMap NodeStep.entry?

/-- After a crash the node recovers before it applies anything. -/
def Disciplined : (crashed : Bool) → List NodeStep → Prop
  | _, [] => True
  | crashed, .applyOp .. :: rest => crashed = false ∧ Disciplined false rest
  | _, .crash .. :: rest => Disciplined true rest
  | _, .recover :: rest => Disciplined false rest

/-- What a node keeps in memory of the operations it applied. -/
structure Memory where
  ledger : Ledger
  committedOps : Std.ExtTreeMap U64 Stamped
  commitIndex : U64

def SimNode.memory (node : SimNode) : Memory :=
  ⟨node.ledger, node.committedOps, node.commitIndex⟩

/-- The entries are in memory, as they would be after executing them from the base state, and on
disk. A node that is up has nothing behind its frames.
-/
structure Retains (node : SimNode) (entries : List SimWalEntry) (crashed : Bool) : Prop where
  memory : node.memory = (node.cleared.applyEntries entries).memory
  settled : node.disk.buffered = []
  stored
    : ∃ tail, SimNode.Torn tail
      ∧ node.disk.flushed = entryFrames entries ++ tail
      ∧ (crashed = false → tail = [])

theorem SimNode.applyEntries_append (node : SimNode) (entries more : List SimWalEntry)
    : node.applyEntries (entries ++ more) = (node.applyEntries entries).applyEntries more :=
  List.foldl_append

/-- What executing entries leaves in memory depends on what was there before only. -/
theorem applyEntries_memory {node node' : SimNode} (same : node'.memory = node.memory)
    (entries : List SimWalEntry)
    : (node'.applyEntries entries).memory = (node.applyEntries entries).memory := by
  induction entries generalizing node node' with
  | nil => exact same
  | cons entry rest ih =>
      apply ih
      simp only [SimNode.memory, Memory.mk.injEq] at same
      obtain ⟨ledger, committedOps, commitIndex⟩ := same
      simp only [SimNode.memory, SimNode.applyOpInMemory, ledger, committedOps, commitIndex]

namespace Retains

variable {node : SimNode} {entries : List SimWalEntry} {crashed : Bool}

theorem new (id : U64) (scale : Scale) (accounts : List AccountId) (initialBalance : U128)
    : Retains (.new id scale accounts initialBalance) [] false :=
  ⟨rfl, rfl, [], .inl rfl, rfl, fun _ => rfl⟩

theorem applyOp (retains : Retains node entries false) (index : U64) (op : WorkloadOp)
    (timestamp : U64)
    : Retains (node.applyOp index op timestamp) (entries ++ [⟨index, timestamp, op⟩]) false := by
  obtain ⟨tail, -, flushed, clean⟩ := retains.stored
  rw [clean rfl, List.append_nil] at flushed
  rw [SimNode.applyOp_eq, SimDisk.sync_write retains.settled, flushed]
  refine ⟨?_, rfl, [], .inl rfl, ?_, fun _ => rfl⟩
  · -- The base state does not depend on the operations.
    have applied := applyEntries_memory retains.memory [⟨index, timestamp, op⟩]
    rw [← SimNode.applyEntries_append] at applied
    refine applied.trans (applyEntries_memory ?_ _)
    rfl
  · rw [List.append_nil, entryFrames_append]
    simp [entryFrames, walPayload]

/-- A crash changes the disk only, by a fragment that starts no frame. -/
theorem crash (retains : Retains node entries crashed) (tornWrite : Bool) (draws : List U64)
    : ∃ node', (NodeStep.crash tornWrite draws).run node = some node'
        ∧ Retains node' entries true
        ∧ node'.memory = node.memory := by
  have ends := @SimDisk.crash_ends False node.disk retains.settled tornWrite
  rcases ends draws with ⟨disk, rest, ran, length, rfl⟩ | ⟨-, impossible⟩
  · obtain ⟨tail, torn, flushed, -⟩ := retains.stored
    refine ⟨{ node with disk := { flushed := node.disk.flushed ++ SimDisk.fragment length } },
      by simp only [NodeStep.run, ran, Option.map_some], ⟨?_, rfl, ?_⟩, rfl⟩
    · refine retains.memory.trans (applyEntries_memory ?_ entries)
      rfl
    · refine ⟨tail ++ SimDisk.fragment length, torn.fragment length, ?_, nofun⟩
      rw [flushed, List.append_assoc]
  · exact impossible.elim

/-- Recovery reads every frame back and cuts off what is behind them. -/
theorem recover (retains : Retains node entries crashed)
    : Retains node.recover entries false ∧ node.recover.memory = node.memory := by
  obtain ⟨tail, torn, flushed, -⟩ := retains.stored
  have shorter : entries.length < node.disk.flushed.length + 1 := by
    have frames := length_le_entryFrames entries
    rw [flushed, List.length_append]
    omega
  have reliable : (⟨node.disk.flushed, []⟩ : Reader IoError).Reliable := nofun
  have recovered : node.recover
      = { node.cleared.applyEntries entries with
          disk := node.disk.truncateDurable (entryFrames entries).length } := by
    simp only [SimNode.recover, SimNode.replayLog_entries reliable flushed (torn.stops _) shorter,
      Nat.zero_add]
    rw [SimNode.applyEntries_frame]
    rfl
  have kept : node.recover.memory = (node.cleared.applyEntries entries).memory := by
    rw [recovered]
    rfl
  rw [SimNode.applyEntries_frame] at recovered
  refine ⟨⟨?_, ?_, [], .inl rfl, ?_, fun _ => rfl⟩, kept.trans retains.memory.symm⟩
  · rw [kept]
    refine applyEntries_memory ?_ entries
    rw [recovered]
    rfl
  · rw [recovered]
    exact retains.settled
  · rw [recovered, List.append_nil]
    simp only [SimDisk.truncateDurable, flushed, List.take_left]

/-- Steps keep what was written, and add what they write. -/
theorem run {steps : List NodeStep} (retains : Retains node entries crashed)
    (disciplined : Disciplined crashed steps)
    : ∃ node' crashed', runSteps steps node = some node'
        ∧ Retains node' (entries ++ written steps) crashed' := by
  induction steps generalizing node entries crashed with
  | nil => exact ⟨node, crashed, rfl, by simpa [written] using retains⟩
  | cons step rest ih =>
      cases step with
      | applyOp index op timestamp =>
          obtain ⟨rfl, later⟩ := disciplined
          obtain ⟨node', crashed', ran, kept⟩ := ih (retains.applyOp index op timestamp) later
          exact ⟨node', crashed', ran, by simpa [written, NodeStep.entry?] using kept⟩
      | crash tornWrite draws =>
          obtain ⟨mid, first, down, -⟩ := retains.crash tornWrite draws
          obtain ⟨node', crashed', ran, kept⟩ := ih down disciplined
          refine ⟨node', crashed', ?_, kept⟩
          rw [runSteps, List.foldlM_cons, first]
          exact ran
      | recover =>
          obtain ⟨node', crashed', ran, kept⟩ := ih retains.recover.1 disciplined
          exact ⟨node', crashed', ran, kept⟩

/-- Steps that apply nothing leave the memory as it was. -/
theorem idle {steps : List NodeStep} (retains : Retains node entries crashed)
    (quiet : ∀ step ∈ steps, step.entry? = none)
    : ∃ node' crashed', runSteps steps node = some node'
        ∧ Retains node' entries crashed'
        ∧ node'.memory = node.memory := by
  induction steps generalizing node crashed with
  | nil => exact ⟨node, crashed, rfl, retains, rfl⟩
  | cons step rest ih =>
      have later := fun other there => quiet other (List.mem_cons_of_mem step there)
      cases step with
      | applyOp => cases quiet _ List.mem_cons_self
      | crash tornWrite draws =>
          obtain ⟨mid, first, down, same⟩ := retains.crash tornWrite draws
          obtain ⟨node', crashed', ran, kept, unchanged⟩ := ih down later
          refine ⟨node', crashed', ?_, kept, unchanged.trans same⟩
          rw [runSteps, List.foldlM_cons, first]
          exact ran
      | recover =>
          obtain ⟨up, same⟩ := retains.recover
          obtain ⟨node', crashed', ran, kept, unchanged⟩ := ih up later
          exact ⟨node', crashed', ran, kept, unchanged.trans same⟩

end Retains

/-- What a recovery gives back: `up` is the node after its last operation, `recovered` the node
after the crashes and the recovery, and `entries` is what was applied.
-/
structure LosesNothing (up recovered : SimNode) (entries : List SimWalEntry) : Prop where
  ledger : recovered.ledger = up.ledger
  committedOps : recovered.committedOps = up.committedOps
  commitIndex : recovered.commitIndex = up.commitIndex
  durable : recovered.disk.flushed = entryFrames entries

/-- A new node is run through operations, crashes and recoveries, and then through crashes and
recoveries only. Every step ends, and recovery then restores the memory from before the crashes and
leaves exactly the frames of all operations on disk.
-/
theorem crashes_lose_nothing (id : U64) (scale : Scale) (accounts : List AccountId)
    (initialBalance : U128) {before between : List NodeStep}
    (disciplined : Disciplined false before) (quiet : ∀ step ∈ between, step.entry? = none)
    : ∃ up down,
        runSteps before (.new id scale accounts initialBalance) = some up
        ∧ runSteps between up = some down
        ∧ LosesNothing up down.recover (written before) := by
  obtain ⟨up, crashed, ran, retains⟩ :=
    (Retains.new id scale accounts initialBalance).run disciplined
  obtain ⟨down, crashed', idled, kept, same⟩ := retains.idle quiet
  obtain ⟨recovered, memory⟩ := kept.recover
  obtain ⟨tail, -, flushed, clean⟩ := recovered.stored
  rw [clean rfl, List.append_nil] at flushed
  have restored := memory.trans same
  simp only [SimNode.memory, Memory.mk.injEq] at restored
  obtain ⟨ledger, committedOps, commitIndex⟩ := restored
  exact ⟨up, down, ran, idled, ledger, committedOps, commitIndex, flushed⟩

/-- Witness: an operation at index 9, a torn crash and a recovery, one at index 2, and then two
torn crashes in a row.
-/
theorem crashes_lose_nothing_twice
    : ∃ up down,
        runSteps
            [.applyOp 9 (.directTransfer 7 1 2 5) 2000, .crash true [3], .recover,
              .applyOp 2 (.voidPending 7 8) 1]
            (.new 1 ⟨2⟩ [⟨1⟩, ⟨2⟩] 100)
          = some up
        ∧ runSteps [.crash true [9, 9], .crash true [], .crash false []] up = some down
        ∧ LosesNothing up down.recover
            [⟨9, 2000, .directTransfer 7 1 2 5⟩, ⟨2, 1, .voidPending 7 8⟩] :=
  crashes_lose_nothing 1 ⟨2⟩ [⟨1⟩, ⟨2⟩] 100 ⟨rfl, rfl, trivial⟩ (by simp [NodeStep.entry?])

end TrustLedger.Simulator
