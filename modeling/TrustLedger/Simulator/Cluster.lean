import TrustLedger.LedgerCore.Invariants
import TrustLedger.Simulator.Node

/-! The simulated cluster of three nodes: proposals, steps that deliver packets and fire timers,
elections, crashes and reboots, and the oracle that inspects the nodes.
-/

namespace TrustLedger.Simulator

open Foundation LedgerCore

abbrev Packet := SimPacket ClusterMessage

structure SimCluster where
  nodes : Std.ExtTreeMap U64 SimNode
  network : SimNetwork ClusterMessage
  nextLogIndex : U64
  accounts : List AccountId
  totalWealth : U128

namespace SimCluster

/-- Nodes 1, 2 and 3 with the same accounts, nothing proposed yet. -/
def new3Node (netConfig : NetworkConfig) (accountIds : List U128) (balancePerAccount : U128)
    : SimCluster :=
  let accounts := accountIds.map AccountId.mk
  let node (id : U64) := SimNode.new id .usdc accounts balancePerAccount
  { nodes := (((∅ : Std.ExtTreeMap U64 SimNode).insert 1 (node 1)).insert 2 (node 2)).insert 3
      (node 3)
    network := { config := netConfig }
    nextLogIndex := 0
    accounts
    totalWealth :=
      ⟨min (balancePerAccount.val * accountIds.length) (2 ^ 128 - 1), by omega⟩ }

/-- The other nodes, in ascending order. -/
def peers (c : SimCluster) (id : U64) : List U64 :=
  c.nodes.keys.filter fun other => other ≠ id

def quorumSize (c : SimCluster) : Nat :=
  c.nodes.size / 2 + 1

/-- Send messages in order. -/
def sendAll (c : SimCluster) (fromId : U64) (out : Outbox) (now : U64) : Chance SimCluster :=
  out.foldlM
    (fun c (toId, payload) => do
      return { c with network := ← c.network.send ⟨fromId, toId, payload⟩ now })
    c

/-- Store a node and send its messages. -/
def update (c : SimCluster) (id : U64) (node : SimNode) (out : Outbox) (now : U64)
    : Chance SimCluster :=
  sendAll { c with nodes := c.nodes.insert id node } id out now

/-- The first active node that takes itself for the leader. -/
def findLeaderId (c : SimCluster) : Option U64 :=
  ((FiniteMap.values c.nodes).find? fun node =>
    node.isLeader && decide (node.status = .active)).map SimNode.id

/-- Propose an operation to the leader, which assigns the next index and asks its peers to
acknowledge. False when there is no active leader.
-/
def propose (c : SimCluster) (op : WorkloadOp) (now : U64) : Chance (Bool × SimCluster) :=
  match c.findLeaderId with
  | none => return (false, c)
  | some leaderId =>
      match c.nodes[leaderId]? with
      | none => return (false, c)
      | some leader =>
          if leader.status = .active then do
            let index := saturatingAdd c.nextLogIndex 1
            let node :=
              { leader with uncommitted := leader.uncommitted.insert index (op, {leaderId}) }
            let out := (c.peers leaderId).map fun peer => (peer, .propose leader.term index op)
            return (true, ← update { c with nextLogIndex := index } leaderId node out now)
          else
            return (false, c)

/-- Hand a packet to its receiver, if that is an active node. -/
def processPacket (c : SimCluster) (packet : Packet) (now : U64) : Chance SimCluster :=
  match c.nodes[packet.toId]? with
  | none => return c
  | some node =>
      if node.status = .active then do
        let (node, out) ← Chance.ofOption
          (node.receive packet.toId (c.peers packet.toId) c.quorumSize now packet.fromId
            packet.payload)
        update c packet.toId node out now
      else
        return c

/-- Fire the timers of one node. -/
def tickNode (now : U64) (c : SimCluster) (id : U64) : Chance SimCluster :=
  match c.nodes[id]? with
  | none => return c
  | some node => do
      let (node, out) ← node.onTick id (c.peers id) now
      update c id node out now

def activeNodeIds (c : SimCluster) : List U64 :=
  ((FiniteMap.values c.nodes).filter fun node => decide (node.status = .active)).map SimNode.id

def tickNodes (c : SimCluster) (now : U64) : Chance SimCluster :=
  c.activeNodeIds.foldlM (tickNode now) c

/-- The packets due, and the cluster without them. -/
def drain (c : SimCluster) (now : U64) : List Packet × SimCluster :=
  let (packets, network) := c.network.drainReady now
  (packets, { c with network })

/-- Deliver the packets that are due, then fire the timers of the active nodes. -/
def step (c : SimCluster) (now : U64) : Chance SimCluster := do
  let (packets, c) := c.drain now
  let c ← packets.foldlM (fun c packet => c.processPacket packet now) c
  c.tickNodes now

/-- Make an active node stand for election. -/
def triggerElection (c : SimCluster) (candidateId now : U64) : Chance SimCluster :=
  match c.nodes[candidateId]? with
  | none => return c
  | some node =>
      if node.status = .active then do
        let (node, out) := node.startElection candidateId (c.peers candidateId) now
          (← SimNode.drawTimeout)
        update c candidateId node out now
      else
        return c

/-- Crash a node and cut it off; an unknown id is only cut off. -/
def crashNode (c : SimCluster) (nodeId : U64) (tornWrite : Bool) : Chance SimCluster := do
  let network := c.network.isolate nodeId
  match c.nodes[nodeId]? with
  | none => return { c with network }
  | some node =>
      let node ← node.crash tornWrite
      return { c with nodes := c.nodes.insert nodeId node, network }

/-- Recover a node, reconnect it and let it ask its peers for what it missed. -/
def rebootNode (c : SimCluster) (nodeId now : U64) : Chance SimCluster :=
  let c := { c with network := c.network.unisolate nodeId }
  let requests (lastIndex : U64) : Outbox :=
    (c.peers nodeId).map fun peer => (peer, .catchupRequest nodeId lastIndex)
  match c.nodes[nodeId]? with
  | none => sendAll c nodeId (requests 0) now
  | some node => do
      let node ← node.reboot now
      update c nodeId node (requests node.commitIndex) now

end SimCluster

/-- What the oracle reports. -/
inductive OracleViolation where
  | wealthLeak (nodeId : U64) (expected actual : U128) (drift : Int)
  | negativeBalance (nodeId : U64) (accountId : AccountId)
  | splitBrain (nodeA nodeB : U64) (index : Nat)
  deriving DecidableEq

namespace Oracle

/-- A 128-bit pattern read as a signed number. -/
def asSigned (value : U128) : Int :=
  if value.val < 2 ^ 127 then value.val else value.val - 2 ^ 128

/-- Add the posted balance of one account to the wealth counted so far. -/
def addWealth (nodeId : U64) (ledger : Ledger) (expectedSupply : U128) (totalWealth : U128)
    (id : AccountId)
    : Except OracleViolation U128 :=
  match ledger.getAccount id with
  | .error _ => .error (.negativeBalance nodeId id)
  | .ok account =>
      let credits := account.balance.creditsPosted.units
      let debits := account.balance.debitsPosted.units
      if credits < debits then .error (.negativeBalance nodeId id)
      else
        match checkedAdd totalWealth (credits - debits) with
        | none => .error (.wealthLeak nodeId expectedSupply (Fin.last _) (2 ^ 127 - 1))
        | some nextWealth => .ok nextWealth

/-- A node's ledger passes its own checks and its accounts hold the expected total. The drift
is the difference of the two totals read as signed numbers; the source panics where that is
itself out of range.
-/
def assertConservation (nodeId : U64) (ledger : Ledger) (accounts : List AccountId)
    (expectedSupply : U128)
    : Except OracleViolation Unit :=
  match ledger.verifyInvariants with
  | .error _ => .error (.wealthLeak nodeId expectedSupply 0 (-1))
  | .ok _ => do
      let totalWealth ← accounts.foldlM (addWealth nodeId ledger expectedSupply) 0
      ensure (totalWealth = expectedSupply)
        (.wealthLeak nodeId expectedSupply totalWealth
          (asSigned totalWealth - asSigned expectedSupply))

/-- Compare two journals position by position as far as both reach. -/
def compareFrom (nodeA nodeB : U64)
    : (index : Nat) → List LedgerEvent → List LedgerEvent → Except OracleViolation Unit
  | index, evA :: eventsA, evB :: eventsB =>
      if evA = evB then compareFrom nodeA nodeB (index + 1) eventsA eventsB
      else .error (.splitBrain nodeA nodeB index)
  | _, _, _ => .ok ()

def assertLogAgreement (nodeA : U64) (eventsA : List LedgerEvent) (nodeB : U64)
    (eventsB : List LedgerEvent)
    : Except OracleViolation Unit :=
  compareFrom nodeA nodeB 0 eventsA eventsB

theorem assertLogAgreement_eq_ok {eventsA eventsB : List LedgerEvent} (nodeA nodeB : U64)
    : assertLogAgreement nodeA eventsA nodeB eventsB = .ok ()
      ↔ eventsA <+: eventsB ∨ eventsB <+: eventsA := by
  suffices ∀ index, compareFrom nodeA nodeB index eventsA eventsB = .ok ()
      ↔ eventsA <+: eventsB ∨ eventsB <+: eventsA from this 0
  induction eventsA generalizing eventsB with
  | nil => simp [compareFrom]
  | cons evA restA ih =>
      intro index
      cases eventsB with
      | nil => simp [compareFrom]
      | cons evB restB =>
          simp only [compareFrom, List.cons_prefix_cons]
          by_cases same : evA = evB
          · simp [same, ih]
          · simp [same, Ne.symm same]

end Oracle

/-- The oracle's checks on the active nodes: conservation on each, log agreement on each pair. -/
def SimCluster.verifyInvariants (c : SimCluster) : Except OracleViolation Unit := do
  let activeNodes := (FiniteMap.values c.nodes).filter fun node => decide (node.status = .active)
  activeNodes.forM fun node =>
    Oracle.assertConservation node.id node.ledger c.accounts c.totalWealth
  let pairs := (List.range activeNodes.length).flatMap fun i =>
    (activeNodes.drop (i + 1)).filterMap fun later => activeNodes[i]?.map (·, later)
  pairs.forM fun (earlier, later) =>
    Oracle.assertLogAgreement earlier.id earlier.ledger.journal later.id later.ledger.journal

end TrustLedger.Simulator
