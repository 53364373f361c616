import TrustLedger.Foundation.SlotLog
import TrustLedger.Simulator.Reactions
import TrustLedger.WriteAheadLog.Recovery

/-! What a node has applied, in memory and on disk. A node's committed operations are a log
without gaps, its ledger is the run of that log from the base state, and its disk holds one frame
for each entry; so recovery after a crash, torn or not, restores exactly the applied log.
-/

namespace TrustLedger.Simulator

open Foundation LedgerCore WriteAheadLog

/-- The ledger after a log of operations. -/
def replay (ledger : Ledger) (log : List Stamped) : Ledger :=
  log.foldl (fun ledger entry => entry.1.execute entry.2 ledger) ledger

theorem replay_append (ledger : Ledger) (log more : List Stamped)
    : replay ledger (log ++ more) = replay (replay ledger log) more := by
  simp [replay]

/-- The ledger operation of a workload operation. -/
def WorkloadOp.toBatchOp (op : WorkloadOp) (timestamp : U64) : BatchOp :=
  match op with
  | .directTransfer transferId fromId toId amount =>
      .transfer ⟨⟨transferId⟩, ⟨fromId⟩, ⟨toId⟩, ⟨amount⟩, .posted, none, timestamp⟩
  | .createPending transferId fromId toId amount =>
      .pending ⟨⟨transferId⟩, ⟨fromId⟩, ⟨toId⟩, ⟨amount⟩, .pending, none, timestamp⟩
  | .postPending pendingId postId amount => .postPending ⟨pendingId⟩ ⟨postId⟩ ⟨amount⟩ timestamp
  | .voidPending pendingId _ => .voidPending ⟨pendingId⟩ timestamp

/-- An operation changes nothing or is one step of the ledger. -/
theorem execute_cases (op : WorkloadOp) (timestamp : U64) (ledger : Ledger)
    : op.execute timestamp ledger = ledger
      ∨ ledger.Step ((op.toBatchOp timestamp).event ledger) (op.execute timestamp ledger) := by
  have applied (batchOp : BatchOp)
      : stateAfter (Ledger.applyBatchOp batchOp ledger) = ledger
        ∨ ledger.Step (batchOp.event ledger)
            (stateAfter (Ledger.applyBatchOp batchOp ledger)) := by
    cases ran : Ledger.applyBatchOp batchOp ledger with
    | ok _ after => exact .inr (Ledger.applyBatchOp_ok_iff.mp ran)
    | error err after => exact .inl (Ledger.applyBatchOp_atomic batchOp ledger err after ran)
  cases op with
  | directTransfer transferId fromId toId amount =>
      simp only [WorkloadOp.execute]
      split
      · rename_i tx created
        rw [(Transfer.validated_eq_ok.mp created).2.2]
        exact applied (.transfer _)
      · exact .inl rfl
  | createPending transferId fromId toId amount =>
      simp only [WorkloadOp.execute]
      split
      · rename_i hold created
        rw [(Transfer.validated_eq_ok.mp created).2.2]
        exact applied (.pending _)
      · exact .inl rfl
  | postPending pendingId postId amount => exact applied (.postPending _ _ _ _)
  | voidPending pendingId voidId => exact applied (.voidPending _ _)

theorem execute_journal (op : WorkloadOp) (timestamp : U64) (ledger : Ledger)
    : ∃ events, Ledger.applyEvents events ledger = some (op.execute timestamp ledger) := by
  rcases execute_cases op timestamp ledger with unchanged | step
  · exact ⟨[], congrArg some unchanged.symm⟩
  · exact ⟨_, Ledger.applyEvents_single step⟩

theorem journal_isPrefix_replay (ledger : Ledger) (log : List Stamped)
    : ledger.journal <+: (replay ledger log).journal := by
  induction log generalizing ledger with
  | nil => exact List.prefix_rfl
  | cons entry rest ih =>
      obtain ⟨events, applied⟩ := execute_journal entry.1 entry.2 ledger
      have first : ledger.journal <+: (entry.1.execute entry.2 ledger).journal := by
        rw [Ledger.applyEvents_journal applied]
        exact List.prefix_append _ _
      exact first.trans (ih _)

/-- The payload of the frame for an entry. -/
def walPayload (index : U64) (entry : Stamped) : Bytes :=
  SimWalEntry.codec.encode ⟨index, entry.2, entry.1⟩

/-- The frames of a log whose first entry has the given index. -/
def walFrames (index : U64) : List Stamped → Bytes
  | [] => []
  | entry :: rest => frame index (walPayload index entry) ++ walFrames (index + 1) rest

theorem walFrames_singleton (index : U64) (entry : Stamped)
    : walFrames index [entry] = frame index (walPayload index entry) := by
  simp only [walFrames, List.append_nil]

theorem walFrames_append (index : U64) (log more : List Stamped)
    : walFrames index (log ++ more)
      = walFrames index log ++ walFrames (index + Fin.ofNat _ log.length) more := by
  induction log generalizing index with
  | nil => simp [walFrames]
  | cons entry rest ih =>
      have shift : index + 1 + Fin.ofNat _ rest.length
          = index + Fin.ofNat _ (entry :: rest).length := by
        apply Fin.ext
        simp [Fin.val_add]
        omega
      simp only [List.cons_append, walFrames, ih, shift, List.append_assoc]

/-- The entries of a log whose first entry has the given index. -/
def logEntries (index : U64) : List Stamped → List SimWalEntry
  | [] => []
  | entry :: rest => ⟨index, entry.2, entry.1⟩ :: logEntries (index + 1) rest

/-- The frames of entries, in order. -/
def entryFrames (entries : List SimWalEntry) : Bytes :=
  entries.flatMap fun entry => frame entry.index (SimWalEntry.codec.encode entry)

theorem entryFrames_cons (entry : SimWalEntry) (rest : List SimWalEntry)
    : entryFrames (entry :: rest)
      = frame entry.index (SimWalEntry.codec.encode entry) ++ entryFrames rest :=
  List.flatMap_cons

theorem entryFrames_append (entries more : List SimWalEntry)
    : entryFrames (entries ++ more) = entryFrames entries ++ entryFrames more :=
  List.flatMap_append

theorem length_le_entryFrames (entries : List SimWalEntry)
    : entries.length ≤ (entryFrames entries).length := by
  induction entries with
  | nil => exact Nat.zero_le _
  | cons entry rest ih =>
      have overhead : 1 ≤ frameOverhead := by decide
      rw [entryFrames_cons, List.length_append, length_frame, frameLen, List.length_cons]
      omega

theorem walFrames_eq (index : U64) (log : List Stamped)
    : walFrames index log = entryFrames (logEntries index log) := by
  induction log generalizing index with
  | nil => rfl
  | cons entry rest ih =>
      rw [walFrames, ih, logEntries, entryFrames_cons]
      rfl

theorem WorkloadOp.atMost_codec : WorkloadOp.codec.AtMost 81 := by
  have two := Codec.atMost_u128.pair Codec.atMost_u128
  have three := Codec.atMost_u128.pair two
  have four := Codec.atMost_u128.pair three
  have fields (number : Fin 4) : (WorkloadOp.fieldsCodec number).AtMost 76 :=
    match number with
    | 0 => four
    | 1 => four
    | 2 => three.mono (by decide)
    | 3 => two.mono (by decide)
  exact (Codec.atMost_variant (by decide) fields).map _

/-- An entry is a few integers, far below the limit of a frame. -/
theorem length_walPayload_le (index : U64) (entry : Stamped)
    : (walPayload index entry).length ≤ 101 := by
  have fields := Codec.atMost_u64.pair (Codec.atMost_u64.pair WorkloadOp.atMost_codec)
  exact Codec.AtMost.map fields (fun _ => rfl) _

theorem walPayload_fits (index : U64) (entry : Stamped)
    : (walPayload index entry).length ≤ defaultMaxPayloadLen :=
  Nat.le_trans (length_walPayload_le index entry) (by decide)

namespace SimNode

/-- Execute entries one after the other, without writing them. -/
def applyEntries (node : SimNode) (entries : List SimWalEntry) : SimNode :=
  entries.foldl (fun node entry => node.applyOpInMemory entry.index entry.op entry.timestamp) node

/-- Executing entries changes nothing but the ledger and what is committed. -/
theorem applyEntries_frame (node : SimNode) (entries : List SimWalEntry)
    : node.applyEntries entries
      = { node with
          ledger := (node.applyEntries entries).ledger
          committedOps := (node.applyEntries entries).committedOps
          commitIndex := (node.applyEntries entries).commitIndex } := by
  induction entries generalizing node with
  | nil => rfl
  | cons entry rest ih => exact ih _

/-- What a node holds in memory of an applied log: the entries under their indexes, the last
index, and the ledger they lead to.
-/
structure Applied (node : SimNode) (base : Ledger) (log : List Stamped) : Prop where
  commitIndex : node.commitIndex.val = log.length
  committed : ∀ index : U64, node.committedOps[index]? = SlotLog.slot log index.val
  ledger : node.ledger = replay base log

theorem Applied.next {node : SimNode} {base : Ledger} {log : List Stamped}
    (applied : node.Applied base log) {next : U64}
    (counted : checkedAdd node.commitIndex 1 = some next)
    : next.val = log.length + 1 := by
  rw [checkedAdd_eq_some.mp counted, applied.commitIndex]
  rfl

theorem Applied.applyOpInMemory {node : SimNode} {base : Ledger} {log : List Stamped}
    (applied : node.Applied base log) {next : U64} (numbered : next.val = log.length + 1)
    (op : WorkloadOp) (timestamp : U64)
    : (node.applyOpInMemory next op timestamp).Applied base (log ++ [(op, timestamp)]) := by
  have count := applied.commitIndex
  refine ⟨?_, ?_, ?_⟩
  · have larger : max node.commitIndex next = next :=
      max_eq_right (Fin.le_def.mpr (by omega))
    simp [SimNode.applyOpInMemory, larger, numbered]
  · intro index
    simp only [SimNode.applyOpInMemory, Std.ExtTreeMap.getElem?_insert,
      Std.LawfulEqCmp.compare_eq_iff_eq, applied.committed]
    split
    · rename_i same
      rw [← same, numbered, SlotLog.slot_append_self]
    · rename_i differs
      cases held : SlotLog.slot (log ++ [(op, timestamp)]) index.val with
      | none =>
          cases before : SlotLog.slot log index.val with
          | none => rfl
          | some entry =>
              rw [SlotLog.slot_of_isPrefix (List.prefix_append _ _) before] at held
              cases held
      | some entry =>
          rcases SlotLog.slot_append held with old | ⟨last, -⟩
          · exact old
          · exact absurd (Fin.ext (numbered.trans last.symm)) differs
  · simp [SimNode.applyOpInMemory, applied.ledger, replay]

/-- Bytes that a torn write may leave behind a log: nothing, or bytes that start no frame. -/
def Torn (tail : Bytes) : Prop :=
  tail = [] ∨ tail.head? = some 0xEE

variable {tail : Bytes}

theorem Torn.stops (torn : Torn tail) (maxPayloadLen : Nat) : Stops maxPayloadLen tail := by
  rcases torn with rfl | begins
  · exact stops_nil maxPayloadLen
  · intro seq payload valid
    obtain ⟨rest, rfl⟩ := List.head?_eq_some_iff.mp begins
    -- the first byte of the magic number is another one
    have low : (readU32Le ((0xEE :: rest).take headerLen) 0).val % 256 = 0xEE := by
      have bytes : (((0xEE :: rest).take headerLen).drop 0).take 4
          = 0xEE :: (rest.take 17).take 3 := rfl
      simp only [readU32Le, bytes, Bytes.toNat, Fin.val_ofNat]
      have byte : UInt8.toNat 0xEE = 0xEE := rfl
      omega
    rw [valid.headMagic] at low
    exact absurd low (by decide)

theorem Torn.fragment (torn : Torn tail) (length : Nat)
    : Torn (tail ++ SimDisk.fragment length) := by
  rcases torn with rfl | begins
  · cases length with
    | zero => exact .inl rfl
    | succ length => exact .inr (by simp [SimDisk.fragment, List.range_succ_eq_map])
  · refine .inr ?_
    rw [List.head?_append, begins]
    rfl

/-- Recovery executes the entries of the frames in order and stops at what a torn write left. The
induction is on the entries left to read.
-/
theorem replayLog_entries {entries : List SimWalEntry} {node : SimNode} {reader : Reader IoError}
    {rounds : Nat} (reliable : reader.Reliable) (bytes : reader.bytes = entryFrames entries ++ tail)
    (stops : Stops defaultMaxPayloadLen tail) (enough : entries.length < rounds) (validBytes : Nat)
    : replayLog rounds reader validBytes node
      = (node.applyEntries entries, validBytes + (entryFrames entries).length) := by
  induction entries generalizing node reader rounds validBytes with
  | nil =>
      obtain ⟨rounds, rfl⟩ : ∃ more, rounds = more + 1 := ⟨rounds - 1, by simp at enough; omega⟩
      obtain ⟨reader', -, ran, -⟩ := nextRecord_reliable reliable defaultMaxPayloadLen true
      simp only [entryFrames, List.flatMap_nil, List.nil_append] at bytes
      simp only [replayLog, ran, entryFrames, List.flatMap_nil, List.length_nil, Nat.add_zero]
      cases step : scanFrame defaultMaxPayloadLen true reader.bytes with
      | record seq len payload =>
          obtain ⟨payload, valid, -⟩ := scanFrame_eq_record.mp step
          rw [bytes] at valid
          exact absurd valid (stops seq payload)
      | finished => rfl
      | broken => rfl
  | cons entry rest ih =>
      obtain ⟨rounds, rfl⟩ : ∃ more, rounds = more + 1 := ⟨rounds - 1, by simp at enough; omega⟩
      rw [List.length_cons] at enough
      have fits : (SimWalEntry.codec.encode entry).length ≤ defaultMaxPayloadLen :=
        walPayload_fits entry.index (entry.op, entry.timestamp)
      have decoded : SimWalEntry.codec.decode (SimWalEntry.codec.encode entry)
          = some (entry, []) := by
        have read := SimWalEntry.codec.decode_encode entry []
        rwa [List.append_nil] at read
      have frameBytes : reader.bytes
          = frame entry.index (SimWalEntry.codec.encode entry) ++ (entryFrames rest ++ tail) := by
        rw [bytes, entryFrames_cons, List.append_assoc]
      obtain ⟨reader', reliable', ran, left⟩ :=
        nextRecord_reliable reliable defaultMaxPayloadLen true
      have step : scanFrame defaultMaxPayloadLen true reader.bytes
          = .record entry.index (SimWalEntry.codec.encode entry).length
              (some (SimWalEntry.codec.encode entry)) := by
        rw [frameBytes]
        exact scanFrame_frame fits (Nat.lt_of_le_of_lt fits (by decide)) true _
      have behind : reader'.bytes = entryFrames rest ++ tail := by
        rw [left _ _ _ step, frameBytes]
        exact List.drop_left' (length_frame ..)
      simp only [replayLog, ran, step, decoded]
      rw [ih reliable' behind (Nat.lt_of_succ_lt_succ enough), entryFrames_cons,
        List.length_append, length_frame, Nat.add_assoc]
      rfl

/-- Executing the entries of a log continues what was applied. -/
theorem Applied.applyEntries {base : Ledger} {todo done : List Stamped} {node : SimNode}
    (applied : node.Applied base done) (small : done.length + todo.length < 2 ^ 64)
    : (node.applyEntries (logEntries (Fin.ofNat _ (done.length + 1)) todo)).Applied base
        (done ++ todo) := by
  induction todo generalizing done node with
  | nil =>
      rw [List.append_nil]
      exact applied
  | cons entry rest ih =>
      obtain ⟨op, timestamp⟩ := entry
      rw [List.length_cons] at small
      have counted : (Fin.ofNat _ (done.length + 1) : U64).val = done.length + 1 := by
        rw [Fin.val_ofNat]
        exact Nat.mod_eq_of_lt (by omega)
      have following : (Fin.ofNat _ ((done ++ [(op, timestamp)]).length + 1) : U64)
          = Fin.ofNat _ (done.length + 1) + 1 := by
        apply Fin.ext
        simp [Fin.val_add]
      have later := ih (applied.applyOpInMemory counted op timestamp)
        (by rw [List.length_append, List.length_singleton]; omega)
      rw [following, List.append_assoc] at later
      exact later

/-- A node's applied log is in memory and, frame by frame, on its disk. An active node has
nothing behind the frames.
-/
structure Durable (node : SimNode) (base : Ledger) (log : List Stamped) : Prop where
  applied : node.Applied base log
  rebuilt : baseLedger node.scale node.accounts node.initialBalance = base
  settled : node.disk.buffered = []
  stored
    : ∃ tail, Torn tail
      ∧ node.disk.flushed = walFrames 1 log ++ tail
      ∧ (node.status = .active → tail = [])

/-- The parts of a node its applied log lives in. -/
def durableParts (node : SimNode) :=
  (node.ledger, node.scale, node.accounts, node.initialBalance, node.disk, node.status,
    node.committedOps, node.commitIndex)

variable {node node' : SimNode} {base : Ledger} {log : List Stamped}

theorem Durable.congr (durable : node.Durable base log)
    (same : node'.durableParts = node.durableParts)
    : node'.Durable base log := by
  simp only [durableParts, Prod.mk.injEq] at same
  obtain ⟨ledger, scale, accounts, balance, disk, status, committed, index⟩ := same
  obtain ⟨applied, rebuilt, settled, stored⟩ := durable
  refine ⟨⟨?_, ?_, ?_⟩, ?_, ?_, ?_⟩
  · rw [index, applied.commitIndex]
  · rw [committed]
    exact applied.committed
  · rw [ledger, applied.ledger]
  · rw [scale, accounts, balance, rebuilt]
  · rw [disk, settled]
  · rwa [disk, status]

theorem applyOp_eq (node : SimNode) (index : U64) (op : WorkloadOp) (timestamp : U64)
    : node.applyOp index op timestamp
      = { node.applyOpInMemory index op timestamp with
          disk := (node.disk.write (frame index (walPayload index (op, timestamp)))).sync } := by
  have encoded := encodeAppend_eq_ok index (walPayload_fits index (op, timestamp)) []
  rw [List.nil_append] at encoded
  simp only [applyOp]
  rw [show SimWalEntry.codec.encode ⟨index, timestamp, op⟩ = walPayload index (op, timestamp)
    from rfl, encoded]
  rfl

theorem Durable.applyOp (durable : node.Durable base log) (active : node.status = .active)
    {next : U64} (numbered : next.val = log.length + 1) (op : WorkloadOp) (timestamp : U64)
    : (node.applyOp next op timestamp).Durable base (log ++ [(op, timestamp)]) := by
  have memory := durable.applied.applyOpInMemory numbered op timestamp
  obtain ⟨tail, -, flushed, clean⟩ := durable.stored
  have position : (1 : U64) + Fin.ofNat _ log.length = next := by
    have bound := next.isLt
    apply Fin.ext
    rw [Fin.val_add, Fin.val_ofNat, Nat.add_mod_mod, Fin.val_one, Nat.add_comm, numbered]
    exact Nat.mod_eq_of_lt (numbered ▸ bound)
  have rebuilt : baseLedger (node.applyOpInMemory next op timestamp).scale
      (node.applyOpInMemory next op timestamp).accounts
      (node.applyOpInMemory next op timestamp).initialBalance = base := by
    simp only [SimNode.applyOpInMemory]
    exact durable.rebuilt
  rw [clean active, List.append_nil] at flushed
  rw [applyOp_eq, SimDisk.sync_write durable.settled, flushed]
  refine ⟨⟨memory.commitIndex, memory.committed, memory.ledger⟩, rebuilt, rfl, ?_⟩
  refine ⟨[], .inl rfl, ?_, fun _ => rfl⟩
  rw [walFrames_append, position, List.append_nil, walFrames_singleton]

theorem slot_nil (i : Nat) : SlotLog.slot ([] : List Stamped) i = none := by
  cases i <;> rfl

theorem applied_cleared (rebuilt : baseLedger node.scale node.accounts node.initialBalance = base)
    : node.cleared.Applied base [] := by
  refine ⟨rfl, fun index => ?_, ?_⟩
  · rw [slot_nil]
    exact Std.ExtTreeMap.getElem?_empty
  · rw [← rebuilt]
    rfl

/-- Recovery restores the applied log and forgets what was pending. -/
theorem Durable.recover (durable : node.Durable base log)
    : ∃ ledger committedOps commitIndex,
        node.recover
          = { node.cleared with
              ledger, committedOps, commitIndex
              disk := node.disk.truncateDurable (walFrames 1 log).length }
        ∧ node.recover.Applied base log := by
  obtain ⟨tail, torn, flushed, -⟩ := durable.stored
  have count := durable.applied.commitIndex
  have bound := node.commitIndex.isLt
  rw [walFrames_eq] at flushed ⊢
  have shorter : (logEntries 1 log).length < node.disk.flushed.length + 1 := by
    have frames := length_le_entryFrames (logEntries 1 log)
    rw [flushed, List.length_append]
    omega
  have small : ([] : List Stamped).length + log.length < 2 ^ 64 := by
    rw [List.length_nil, Nat.zero_add, ← count]
    exact bound
  have reliable : (⟨node.disk.flushed, []⟩ : Reader IoError).Reliable := nofun
  have whole := (applied_cleared durable.rebuilt).applyEntries small
  have recovered : node.recover
      = { node.cleared.applyEntries (logEntries 1 log) with
          disk := node.disk.truncateDurable (entryFrames (logEntries 1 log)).length } := by
    simp only [SimNode.recover, replayLog_entries reliable flushed (torn.stops _) shorter,
      Nat.zero_add]
    rw [applyEntries_frame]
    rfl
  refine ⟨_, _, _, recovered.trans (by rw [applyEntries_frame]), ?_⟩
  rw [recovered]
  exact ⟨whole.commitIndex, whole.committed, whole.ledger⟩

/-- What a crash leaves of a node: its durable log, its term, and nothing it was doing. -/
structure Down (node node' : SimNode) : Prop where
  id : node'.id = node.id
  term : node'.term = node.term
  role : node'.role = .follower
  isLeader : node'.isLeader = false
  votedFor : node'.votedFor = none
  votesReceived : node'.votesReceived = ∅
  pendingCommits : node'.pendingCommits = ∅
  uncommitted : node'.uncommitted = ∅

theorem Durable.crash {may : Prop} (durable : node.Durable base log) (tornWrite : Bool)
    : (node.crash tornWrite).Ends may fun node' =>
        node'.Durable base log ∧ node.Down node' ∧ node'.status = .crashed := by
  refine (SimDisk.crash_ends durable.settled tornWrite).bind fun disk torn => ?_
  obtain ⟨length, rfl⟩ := torn
  obtain ⟨tail, before, flushed, -⟩ := durable.stored
  obtain ⟨memory, rebuilt, -, -⟩ := durable
  refine Chance.ends_pure ⟨⟨⟨memory.commitIndex, memory.committed, memory.ledger⟩, rebuilt, rfl,
    tail ++ SimDisk.fragment length, before.fragment length, ?_, nofun⟩,
    ⟨rfl, rfl, rfl, rfl, rfl, rfl, rfl, rfl⟩, rfl⟩
  rw [flushed, List.append_assoc]

theorem Durable.reboot {may : Prop} (durable : node.Durable base log) (now : U64)
    : (node.reboot now).Ends may fun node' =>
        node'.Durable base log ∧ node.Down node' ∧ node'.status = .active := by
  obtain ⟨ledger, committedOps, commitIndex, recovered, memory⟩ := durable.recover
  obtain ⟨tail, -, flushed, -⟩ := durable.stored
  have settled := durable.settled
  have rebuilt := durable.rebuilt
  refine Chance.Ends.bind (P := fun _ => True)
    (genRange_ends (fun never => absurd never (by decide)) fun _ _ _ => trivial)
    fun timeout _ => Chance.ends_pure ?_
  rw [recovered] at memory ⊢
  refine ⟨⟨⟨memory.commitIndex, memory.committed, memory.ledger⟩, rebuilt, settled, [], .inl rfl,
    ?_, fun _ => rfl⟩, ⟨rfl, rfl, rfl, rfl, rfl, rfl, rfl, rfl⟩, rfl⟩
  simp only [SimDisk.truncateDurable, flushed, List.take_left, List.append_nil]

theorem Durable.applyNext (durable : node.Durable base log) (active : node.status = .active)
    {next : U64} (counted : checkedAdd node.commitIndex 1 = some next) (entry : Stamped)
    : (node.applyNext next entry).Durable base (log ++ [entry]) := by
  have pending : ({ node with pendingCommits := node.pendingCommits.erase next } : SimNode).Durable
      base log :=
    durable.congr rfl
  have applied := pending.applyOp active (durable.applied.next counted) entry.1 entry.2
  exact applied.congr rfl

/-- Applying what is ready continues the durable log with what was applied. -/
theorem Durable.applyReady (durable : node.Durable base log) (active : node.status = .active)
    {newly : List (U64 × Stamped)} (ran : node.applyReady = some (node', newly))
    : node'.Durable base (log ++ newly.map Prod.snd) := by
  have kept := applyPending_keeps
    (I := fun done node =>
      node.status = .active ∧ node.Durable base (log ++ done.map Prod.snd))
    (fun {done node next entry} holds counted _ => by
      refine ⟨(electionParts_status (applyNext_electionParts node next entry)).trans holds.1, ?_⟩
      have grown := holds.2.applyNext holds.1 counted entry
      simpa using grown)
    ⟨active, by simpa using durable⟩ ran
  exact kept.2

section Handlers

variable {now toId fromId : U64} {peers : List U64} {quorumSize : Nat} {out : Outbox}
  {msg : ClusterMessage}

@[simp] theorem adoptTerm_durableParts (node : SimNode) (term : U64)
    : (node.adoptTerm term).durableParts = node.durableParts := by
  unfold adoptTerm
  split <;> rfl

theorem adoptTerm_status (node : SimNode) (term : U64)
    : (node.adoptTerm term).status = node.status := by
  unfold SimNode.adoptTerm
  split <;> rfl

theorem learn_durableParts (node : SimNode) (index : U64) (entry : Stamped)
    : (node.learn index entry).durableParts = node.durableParts := by
  unfold learn
  split <;> rfl

theorem learnAll_durableParts (node : SimNode) (entries : List (U64 × Stamped))
    : (node.learnAll entries).durableParts = node.durableParts := by
  induction entries generalizing node with
  | nil => rfl
  | cons first rest ih => exact (ih _).trans (learn_durableParts node first.1 first.2)

theorem Readies.durableParts {mid : SimNode} (readies : node.Readies quorumSize now msg mid)
    : mid.durableParts = node.durableParts := by
  cases readies with
  | committed => rfl
  | told => exact adoptTerm_durableParts node _
  | caughtUp => exact learnAll_durableParts node _

theorem status_eq_of_durableParts (same : node'.durableParts = node.durableParts)
    : node'.status = node.status := by
  simp only [SimNode.durableParts, Prod.mk.injEq] at same
  exact same.2.2.2.2.2.1

/-- Whatever an active node receives, its durable log is only continued. -/
theorem Durable.reaction (durable : node.Durable base log) (active : node.status = .active)
    (reaction : node.Reaction toId peers quorumSize now fromId msg node' out)
    : ∃ more, node'.Durable base (log ++ more) := by
  have unchanged {node' : SimNode} (same : node'.durableParts = node.durableParts)
      : ∃ more, node'.Durable base (log ++ more) :=
    ⟨[], by simpa using durable.congr same⟩
  cases reaction with
  | ignored => exact unchanged rfl
  | adopted term => exact unchanged (adoptTerm_durableParts node term)
  | held => exact unchanged (adoptTerm_durableParts node _)
  | counted => exact unchanged rfl
  | applied readies ran =>
      have ready := durable.congr readies.durableParts
      exact ⟨_, ready.applyReady
        ((status_eq_of_durableParts readies.durableParts).trans active) ran⟩
  | heard => exact unchanged (adoptTerm_durableParts node _)
  | followed => exact unchanged (adoptTerm_durableParts node _)
  | voted => exact unchanged (adoptTerm_durableParts node _)
  | tallied => exact unchanged rfl
  | won => exact unchanged rfl
  | shared => exact unchanged rfl

end Handlers

end SimNode

end TrustLedger.Simulator
