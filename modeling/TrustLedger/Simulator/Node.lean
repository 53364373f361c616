import TrustLedger.LedgerCore.Codec
import TrustLedger.LedgerCore.Runs
import TrustLedger.Simulator.Environment
import TrustLedger.WriteAheadLog.Record

/-! A node of the simulated cluster: the workload it executes, the messages it exchanges, what it
keeps in memory and on disk, and its answer to each message. A handler returns the node with the
messages to send, in order; `commit_index + 1` past the largest number is a panic.
-/

namespace TrustLedger.Simulator

open Foundation LedgerCore WriteAheadLog

/-- A financial operation of the workload. -/
inductive WorkloadOp where
  | directTransfer (transferId fromId toId amount : U128)
  | createPending (transferId fromId toId amount : U128)
  | postPending (pendingId postId amount : U128)
  | voidPending (pendingId voidId : U128)
  deriving DecidableEq

/-- Consensus and replication messages. -/
inductive ClusterMessage where
  | propose (term index : U64) (op : WorkloadOp)
  | ack (fromId term index : U64)
  | commit (term index : U64) (op : WorkloadOp) (timestamp : U64)
  | requestVote (term candidateId lastIndex : U64)
  | voteGranted (fromId term : U64)
  | heartbeat (term leaderId commitIndex : U64)
  | catchupRequest (fromId lastIndex : U64)
  | catchupResponse (fromId : U64) (entries : List (U64 × WorkloadOp × U64))
  deriving DecidableEq

/-- Messages to send, with their receivers. -/
abbrev Outbox := List (U64 × ClusterMessage)

inductive NodeStatus where
  | active
  | crashed
  deriving DecidableEq

inductive NodeRole where
  | follower
  | candidate
  | leader
  deriving DecidableEq

/-- One applied operation as it is written to the log on disk. -/
structure SimWalEntry where
  index : U64
  timestamp : U64
  op : WorkloadOp
  deriving DecidableEq

section Wire

/-- The fields of each operation, in the order the variants are declared. -/
def WorkloadOp.Fields : Fin 4 → Type
  | 0 => U128 × U128 × U128 × U128
  | 1 => U128 × U128 × U128 × U128
  | 2 => U128 × U128 × U128
  | 3 => U128 × U128

def WorkloadOp.fieldsCodec : ∀ number, Codec (Fields number)
  | 0 => Codec.u128.pair <| Codec.u128.pair <| Codec.u128.pair Codec.u128
  | 1 => Codec.u128.pair <| Codec.u128.pair <| Codec.u128.pair Codec.u128
  | 2 => Codec.u128.pair <| Codec.u128.pair Codec.u128
  | 3 => Codec.u128.pair Codec.u128

def WorkloadOp.toFields : WorkloadOp → Σ number, Fields number
  | .directTransfer transferId fromId toId amount => ⟨0, transferId, fromId, toId, amount⟩
  | .createPending transferId fromId toId amount => ⟨1, transferId, fromId, toId, amount⟩
  | .postPending pendingId postId amount => ⟨2, pendingId, postId, amount⟩
  | .voidPending pendingId voidId => ⟨3, pendingId, voidId⟩

def WorkloadOp.ofFields : (Σ number, Fields number) → WorkloadOp
  | ⟨0, transferId, fromId, toId, amount⟩ => .directTransfer transferId fromId toId amount
  | ⟨1, transferId, fromId, toId, amount⟩ => .createPending transferId fromId toId amount
  | ⟨2, pendingId, postId, amount⟩ => .postPending pendingId postId amount
  | ⟨3, pendingId, voidId⟩ => .voidPending pendingId voidId

def WorkloadOp.codec : Codec WorkloadOp :=
  (Codec.variant (by decide) fieldsCodec).map ofFields toFields fun op => by
    cases op <;> rfl

def SimWalEntry.codec : Codec SimWalEntry :=
  (Codec.u64.pair <| Codec.u64.pair WorkloadOp.codec).map
    (fun (index, timestamp, op) => ⟨index, timestamp, op⟩)
    (fun entry => (entry.index, entry.timestamp, entry.op))
    fun _ => rfl

end Wire

/-- Run an operation on a ledger at the given time. What the ledger refuses is ignored. -/
def WorkloadOp.execute (op : WorkloadOp) (timestamp : U64) (ledger : Ledger) : Ledger :=
  match op with
  | .directTransfer transferId fromId toId amount =>
      match Transfer.newImmediate ⟨transferId⟩ ⟨fromId⟩ ⟨toId⟩ ⟨amount⟩ timestamp with
      | .ok tx => stateAfter (Ledger.createTransfer tx ledger)
      | .error _ => ledger
  | .createPending transferId fromId toId amount =>
      match Transfer.newPending ⟨transferId⟩ ⟨fromId⟩ ⟨toId⟩ ⟨amount⟩ timestamp with
      | .ok hold => stateAfter (Ledger.createPending hold ledger)
      | .error _ => ledger
  | .postPending pendingId postId amount =>
      stateAfter (Ledger.postPending ⟨pendingId⟩ ⟨postId⟩ ⟨amount⟩ timestamp ledger)
  | .voidPending pendingId _ =>
      stateAfter (Ledger.voidPending ⟨pendingId⟩ timestamp ledger)

/-- An operation with the commit timestamp its leader gave it. -/
abbrev Stamped := WorkloadOp × U64

/-- A simulated cluster node. -/
structure SimNode where
  id : U64
  ledger : Ledger
  scale : Scale
  accounts : List AccountId
  initialBalance : U128
  disk : SimDisk
  status : NodeStatus
  role : NodeRole
  term : U64
  isLeader : Bool
  votedFor : Option U64
  votesReceived : Finset U64
  lastHeartbeatTick : U64
  electionTimeout : U64
  committedOps : Std.ExtTreeMap U64 Stamped
  pendingCommits : Std.ExtTreeMap U64 Stamped
  uncommitted : Std.ExtTreeMap U64 (WorkloadOp × Finset U64)
  commitIndex : U64

/-- The account that funds all others. -/
def vaultAcc : AccountId := ⟨99999⟩

/-- Open and fund one account of the base state, at the times after `timestamp`. The index and
the timestamps are bounded by the length of the account list, which is far below their range.
-/
def seedAccount (scale : Scale) (initialBalance : U128) (idx : Nat) (accId : AccountId)
    (ledger : Ledger) (timestamp : U64)
    : Ledger × U64 :=
  let timestamp := timestamp + 1
  let ledger := stateAfter (Ledger.createAccount accId .liability .customer scale timestamp ledger)
  if initialBalance > 0 then
    let timestamp := timestamp + 1
    match Transfer.newImmediate ⟨50000 + Fin.ofNat _ idx⟩ vaultAcc accId ⟨initialBalance⟩
        timestamp with
    | .ok seedTx => (stateAfter (Ledger.createTransfer seedTx ledger), timestamp)
    | .error _ => (ledger, timestamp)
  else
    (ledger, timestamp)

/-- The ledger every node starts from: a vault, and the accounts funded from it. -/
def baseLedger (scale : Scale) (accounts : List AccountId) (initialBalance : U128) : Ledger :=
  let vault := stateAfter
    (Ledger.createAccount vaultAcc .asset .bankAsset scale 1000 (Ledger.new scale))
  (accounts.zipIdx.foldl
    (fun (ledger, timestamp) (accId, idx) =>
      seedAccount scale initialBalance idx accId ledger timestamp)
    (vault, 1000)).1

namespace SimNode

def reinitBaseState (node : SimNode) : SimNode :=
  { node with ledger := baseLedger node.scale node.accounts node.initialBalance }

/-- A new node; node 1 starts as the leader of the first term. -/
def new (id : U64) (scale : Scale) (accounts : List AccountId) (initialBalance : U128) : SimNode :=
  reinitBaseState
    { id, ledger := .new scale, scale, accounts, initialBalance
      disk := {}
      status := .active
      role := if id = 1 then .leader else .follower
      term := 1
      isLeader := decide (id = 1)
      votedFor := if id = 1 then some 1 else none
      votesReceived := ∅
      lastHeartbeatTick := 0
      electionTimeout := 15 + id * 5
      committedOps := ∅
      pendingCommits := ∅
      uncommitted := ∅
      commitIndex := 0 }

/-- Execute an operation and record it as committed. -/
def applyOpInMemory (node : SimNode) (index : U64) (op : WorkloadOp) (timestamp : U64) : SimNode :=
  { node with
    ledger := op.execute timestamp node.ledger
    committedOps := node.committedOps.insert index (op, timestamp)
    commitIndex := max node.commitIndex index }

/-- Apply an operation and write it to the log. A frame that cannot be encoded is not written. -/
def applyOp (node : SimNode) (index : U64) (op : WorkloadOp) (timestamp : U64) : SimNode :=
  let node := node.applyOpInMemory index op timestamp
  match encodeAppend index (SimWalEntry.codec.encode ⟨index, timestamp, op⟩)
      defaultMaxPayloadLen [] with
  | .ok frame => { node with disk := (node.disk.write frame).sync }
  | .error _ => node

/-- Re-apply the records of the log up to the first that cannot be read, counting the bytes they
take. Each round reads a record, so one round more than there are bytes is enough.
-/
def replayLog : (rounds : Nat) → Reader IoError → (validBytes : Nat) → SimNode → SimNode × Nat
  | 0, _, validBytes, node => (node, validBytes)
  | rounds + 1, reader, validBytes, node =>
      match nextRecord defaultMaxPayloadLen true reader with
      | .ok (.record _ len (some payload)) reader =>
          match SimWalEntry.codec.decode payload with
          | some (entry, _) =>
              replayLog rounds reader (validBytes + frameLen len)
                (node.applyOpInMemory entry.index entry.op entry.timestamp)
          | none => (node, validBytes)
      | .ok (.record _ _ none) reader => replayLog rounds reader validBytes node
      | .ok .finished _ => (node, validBytes)
      | .ok .broken _ => (node, validBytes)
      | .error _ _ => (node, validBytes)

/-- The node in its base state, with nothing committed. -/
def cleared (node : SimNode) : SimNode :=
  { node.reinitBaseState with
    committedOps := ∅, pendingCommits := ∅, uncommitted := ∅, commitIndex := 0 }

/-- Rebuild the state from the durable bytes and cut off what could not be read. -/
def recover (node : SimNode) : SimNode :=
  let durableBytes := node.disk.flushed
  let (node, validBytes) :=
    replayLog (durableBytes.length + 1) ⟨durableBytes, []⟩ 0 node.cleared
  { node with disk := node.disk.truncateDurable validBytes }

/-- A message of a later term makes a follower of that term. -/
def adoptTerm (node : SimNode) (term : U64) : SimNode :=
  if node.term < term then
    { node with term, role := .follower, isLeader := false, votedFor := none }
  else
    node

/-- Apply a pending operation; it is no longer pending, nor waiting for acknowledgements. -/
def applyNext (node : SimNode) (next : U64) (entry : Stamped) : SimNode :=
  let node := { node with pendingCommits := node.pendingCommits.erase next }
  let node := node.applyOp next entry.1 entry.2
  { node with uncommitted := node.uncommitted.erase next }

/-- Apply the pending operation with the next index, and so on while there is one. Returns what
was applied. Each round takes one pending operation, so one more than there are is enough.
-/
def applyPending : (rounds : Nat) → SimNode → Option (SimNode × List (U64 × Stamped))
  | 0, node => some (node, [])
  | rounds + 1, node => do
      let next ← checkedAdd node.commitIndex 1
      match node.pendingCommits[next]? with
      | none => some (node, [])
      | some entry =>
          let (node, applied) ← applyPending rounds (node.applyNext next entry)
          some (node, (next, entry) :: applied)

/-- Apply everything that has become applicable. -/
def applyReady (node : SimNode) : Option (SimNode × List (U64 × Stamped)) :=
  node.applyPending (node.pendingCommits.size + 1)

/-- Remember an operation to apply unless its index is committed. -/
def learn (node : SimNode) (index : U64) (entry : Stamped) : SimNode :=
  if node.committedOps.contains index then node
  else { node with pendingCommits := node.pendingCommits.insert index entry }

section Handlers

variable (node : SimNode) (toId : U64) (peers : List U64) (quorumSize : Nat) (now : U64)

def onPropose (fromId term index : U64) (op : WorkloadOp) : SimNode × Outbox :=
  let node := node.adoptTerm term
  if node.term ≤ term then
    ({ node with
        lastHeartbeatTick := now
        uncommitted := node.uncommitted.insert index (op, ∅) },
      [(fromId, .ack toId term index)])
  else
    (node, [])

/-- The timestamp of an operation committed now. -/
def commitStamp (now : U64) : U64 :=
  saturatingAdd now 1700000000

/-- Give an operation its timestamp, apply what can be applied and announce it. -/
def commitQuorum (term index : U64) (op : WorkloadOp) : Option (SimNode × Outbox) := do
  let node :=
    { node with pendingCommits := node.pendingCommits.insert index (op, commitStamp now) }
  let (node, newlyCommitted) ← node.applyReady
  some (node,
    peers.flatMap fun peer =>
      newlyCommitted.map fun (index, op, timestamp) => (peer, .commit term index op timestamp))

def onAck (ackFrom term index : U64) : Option (SimNode × Outbox) :=
  if node.isLeader ∧ node.term = term then
    match node.uncommitted[index]? with
    | none => some (node, [])
    | some (op, acks) =>
        let acks := insert ackFrom acks
        let node := { node with uncommitted := node.uncommitted.insert index (op, acks) }
        if quorumSize ≤ acks.card ∧ ¬ node.committedOps.contains index then
          node.commitQuorum peers now term index op
        else
          some (node, [])
  else
    some (node, [])

def onCommit (term index : U64) (op : WorkloadOp) (timestamp : U64) : Option (SimNode × Outbox) :=
  let node := node.adoptTerm term
  if node.term ≤ term then
    let node := { node with lastHeartbeatTick := now }
    if node.committedOps.contains index then
      some (node, [])
    else
      (node.learn index (op, timestamp)).applyReady.map fun (node, _) => (node, [])
  else
    some (node, [])

def onHeartbeat (term leaderId commitIndex : U64) : SimNode × Outbox :=
  let node := node.adoptTerm term
  if node.term ≤ term then
    let node := { node with lastHeartbeatTick := now, role := .follower, isLeader := false }
    if node.commitIndex < commitIndex then
      (node, [(leaderId, .catchupRequest toId node.commitIndex)])
    else
      (node, [])
  else
    (node, [])

def onRequestVote (term candidateId lastIndex : U64) : SimNode × Outbox :=
  let node := node.adoptTerm term
  let logOk := node.commitIndex ≤ lastIndex
  let voteOk := node.votedFor = none ∨ node.votedFor = some candidateId
  if term = node.term ∧ voteOk ∧ logOk then
    ({ node with votedFor := some candidateId, lastHeartbeatTick := now },
      [(candidateId, .voteGranted toId term)])
  else
    (node, [])

def onVoteGranted (fromId term : U64) : SimNode × Outbox :=
  if node.term = term ∧ node.role = .candidate then
    let node := { node with votesReceived := insert fromId node.votesReceived }
    if quorumSize ≤ node.votesReceived.card then
      ({ node with role := .leader, isLeader := true, lastHeartbeatTick := now },
        peers.map fun peer => (peer, .heartbeat term toId node.commitIndex))
    else
      (node, [])
  else
    (node, [])

def onCatchupRequest (reqFrom lastIndex : U64) : SimNode × Outbox :=
  let entries := node.committedOps.toList.filter fun entry => lastIndex < entry.1
  if entries.isEmpty then (node, []) else (node, [(reqFrom, .catchupResponse toId entries)])

def onCatchupResponse (entries : List (U64 × Stamped)) : Option (SimNode × Outbox) :=
  let node := entries.foldl (fun node (index, entry) => node.learn index entry) node
  node.applyReady.map fun (node, _) => (node, [])

/-- The answer of an active node to a message. -/
def receive (fromId : U64) : ClusterMessage → Option (SimNode × Outbox)
  | .propose term index op => some (node.onPropose toId now fromId term index op)
  | .ack ackFrom term index => node.onAck peers quorumSize now ackFrom term index
  | .commit term index op timestamp => node.onCommit now term index op timestamp
  | .heartbeat term leaderId commitIndex =>
      some (node.onHeartbeat toId now term leaderId commitIndex)
  | .requestVote term candidateId lastIndex =>
      some (node.onRequestVote toId now term candidateId lastIndex)
  | .voteGranted fromId term => some (node.onVoteGranted toId peers quorumSize now fromId term)
  | .catchupRequest reqFrom lastIndex => some (node.onCatchupRequest toId reqFrom lastIndex)
  | .catchupResponse _ entries => node.onCatchupResponse entries

/-- Become a candidate of the next term with one's own vote, and solicit the others'. -/
def startElection (electionTimeout : U64) : SimNode × Outbox :=
  let node :=
    { node with
      term := saturatingAdd node.term 1
      role := .candidate
      isLeader := false
      votedFor := some toId
      votesReceived := {toId}
      lastHeartbeatTick := now
      electionTimeout }
  (node, peers.map fun peer => (peer, .requestVote node.term toId node.commitIndex))

/-- A random time to wait for a leader before standing for election. -/
def drawTimeout : Chance U64 :=
  genRange 15 30

/-- What a node does on its own at a tick: a leader sends heartbeats, any other node stands for
election when it has not heard of a leader for too long.
-/
def onTick : Chance (SimNode × Outbox) := do
  let waited := now.val - node.lastHeartbeatTick.val
  if node.role = .leader then
    if 5 ≤ waited then
      let node := { node with lastHeartbeatTick := now }
      return (node, peers.map fun peer => (peer, .heartbeat node.term toId node.commitIndex))
    else
      return (node, [])
  else if node.electionTimeout.val ≤ waited then
    return node.startElection toId peers now (← drawTimeout)
  else
    return (node, [])

/-- Power failure: what was in memory is lost except the applied log and the term. -/
def crash (tornWrite : Bool) : Chance SimNode := do
  let disk ← node.disk.crash tornWrite
  return { node with
    status := .crashed
    role := .follower
    isLeader := false
    votedFor := none
    votesReceived := ∅
    uncommitted := ∅
    pendingCommits := ∅
    disk }

/-- Recovery from disk; the vote is not recovered, the term is kept. -/
def reboot : Chance SimNode := do
  let node := node.recover
  let electionTimeout ← drawTimeout
  return { node with
    status := .active
    role := .follower
    isLeader := false
    votedFor := none
    votesReceived := ∅
    lastHeartbeatTick := now
    electionTimeout }

end Handlers

end SimNode

end TrustLedger.Simulator
