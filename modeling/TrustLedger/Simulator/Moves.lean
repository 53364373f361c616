import TrustLedger.Simulator.Durability

/-! What a move does to the cluster: which node it changes, and what that node sends. A move never
touches another node, and the network afterwards holds packets it held before and packets just
sent; only an empty range of latencies stops it on the way.
-/

namespace TrustLedger.Simulator

open Foundation LedgerCore Chance

namespace SimCluster

variable {may : Prop} {c : SimCluster} {P : SimCluster → Prop} {now : U64} {out : Outbox} {id : U64}
  {node : SimNode} {network : SimNetwork ClusterMessage}

/-- A packet from `fromId` with a message of `out`. -/
def Sent (fromId : U64) (out : Outbox) (packet : Packet) : Prop :=
  packet.fromId = fromId ∧ (packet.toId, packet.payload) ∈ out

/-- No latency can be drawn. -/
def NoLatency (c : SimCluster) : Prop :=
  c.network.config.maxLatencyTicks < c.network.config.minLatencyTicks

/-- Sending changes the network only. The induction is on the messages left; each adds its own
packet.
-/
theorem sendAll_ends {fromId : U64} (latency : c.NoLatency → may)
    (sent : ∀ network, c.network.Carries (Sent fromId out) network → P { c with network })
    : (c.sendAll fromId out now).Ends may P := by
  suffices ∀ rest network, (∀ letter ∈ rest, letter ∈ out)
      → c.network.Carries (Sent fromId out) network
      → (sendAll { c with network } fromId rest now).Ends may P from
    this out c.network (fun _ member => member) (.refl _ _)
  intro rest
  induction rest with
  | nil =>
      intro network _ carries
      exact ends_pure (sent network carries)
  | cons letter rest ih =>
      intro network within carries
      have fresh : Sent fromId out ⟨fromId, letter.1, letter.2⟩ :=
        ⟨rfl, within letter List.mem_cons_self⟩
      have drawable : network.config.maxLatencyTicks < network.config.minLatencyTicks → may := by
        rw [carries.config]
        exact latency
      simp only [sendAll, List.foldlM_cons, bind_assoc]
      refine (SimNetwork.send_ends now fresh drawable).bind fun network' more => ?_
      rw [pure_bind]
      exact ih network' (fun other member => within other (List.mem_cons_of_mem _ member))
        (carries.trans more)

/-- The cluster with one node replaced and another network. -/
def withNode (c : SimCluster) (id : U64) (node : SimNode) (network : SimNetwork ClusterMessage)
    : SimCluster :=
  { c with nodes := c.nodes.insert id node, network }

theorem getElem?_withNode {other : U64}
    : (c.withNode id node network).nodes[other]?
      = if id = other then some node else c.nodes[other]? := by
  simp [withNode, Std.ExtTreeMap.getElem?_insert]

theorem forall_withNode {Q : U64 → SimNode → Prop} (new : Q id node)
    (others : ∀ other old, other ≠ id → c.nodes[other]? = some old → Q other old)
    : ∀ other found, (c.withNode id node network).nodes[other]? = some found → Q other found := by
  intro other found stored
  rw [getElem?_withNode] at stored
  split at stored
  · rename_i same
    cases stored
    exact same ▸ new
  · rename_i differs
    exact others other found (Ne.symm differs) stored

theorem update_ends (latency : c.NoLatency → may)
    (sent : ∀ network, c.network.Carries (Sent id out) network → P (c.withNode id node network))
    : (c.update id node out now).Ends may P :=
  sendAll_ends latency sent

theorem processPacket_ends {packet : Packet} (latency : c.NoLatency → may)
    (idle : (∀ node, c.nodes[packet.toId]? = some node → node.status ≠ .active) → P c)
    (panics : ∀ node, c.nodes[packet.toId]? = some node → node.status = .active
      → node.receive packet.toId (c.peers packet.toId) c.quorumSize now packet.fromId
        packet.payload = none
      → may) (reacts : ∀ node node' out network, c.nodes[packet.toId]? = some node
      → node.status = .active
      → node.receive packet.toId (c.peers packet.toId) c.quorumSize now packet.fromId
        packet.payload = some (node', out)
      → c.network.Carries (Sent packet.toId out) network
      → P (c.withNode packet.toId node' network))
    : (c.processPacket packet now).Ends may P := by
  unfold processPacket
  split
  · rename_i absent
    exact ends_pure (idle fun node found => by rw [absent] at found; cases found)
  · rename_i node found
    split
    · rename_i active
      refine Chance.Ends.bind
        (P := fun result => node.receive packet.toId (c.peers packet.toId) c.quorumSize now
          packet.fromId packet.payload = some result)
        (ends_ofOption (fun _ ran => ran) (panics node found active)) ?_
      intro result ran
      exact update_ends latency fun network carries =>
        reacts node result.1 result.2 network found active ran carries
    · rename_i inactive
      refine ends_pure (idle fun other same => ?_)
      rw [found] at same
      cases same
      exact inactive

theorem drawTimeout_ends {P : U64 → Prop} (holds : ∀ timeout, P timeout)
    : SimNode.drawTimeout.Ends may P :=
  genRange_ends (fun never => absurd never (by decide)) fun timeout _ _ => holds timeout

theorem onTick_ends {peers : List U64} {P : SimNode × Outbox → Prop} (idle : P (node, []))
    (beats : node.role = .leader
      → P (node.hear now,
        peers.map fun peer => (peer, .heartbeat node.term id node.commitIndex)))
    (stands : node.role ≠ .leader → ∀ timeout, P (node.startElection id peers now timeout))
    : (node.onTick id peers now).Ends may P := by
  unfold SimNode.onTick
  dsimp only
  split
  · rename_i leads
    split
    · exact ends_pure (beats leads)
    · exact ends_pure idle
  · rename_i follows
    split
    · exact (drawTimeout_ends (P := fun _ => True) fun _ => trivial).bind fun timeout _ =>
        ends_pure (stands follows timeout)
    · exact ends_pure idle

/-- One node's turn at a tick: a leader sends heartbeats, any other node may stand for election. -/
theorem tickNode_ends (latency : c.NoLatency → may) (idle : P c)
    (same : ∀ node network, c.nodes[id]? = some node → c.network.Carries (Sent id []) network
      → P (c.withNode id node network))
    (beats : ∀ node network, c.nodes[id]? = some node → node.role = .leader
      → c.network.Carries (Sent id
        ((c.peers id).map fun peer => (peer, .heartbeat node.term id node.commitIndex))) network
      → P (c.withNode id (node.hear now) network))
    (stands : ∀ node timeout network, c.nodes[id]? = some node → node.role ≠ .leader
      → c.network.Carries (Sent id (node.startElection id (c.peers id) now timeout).2) network
      → P (c.withNode id (node.startElection id (c.peers id) now timeout).1 network))
    : (c.tickNode now id).Ends may P := by
  unfold tickNode
  split
  · exact ends_pure idle
  · rename_i node found
    refine Chance.Ends.bind
      (P := fun result => ∀ network, c.network.Carries (Sent id result.2) network
        → P (c.withNode id result.1 network))
      (onTick_ends ?_ ?_ ?_) fun result holds => update_ends latency holds
    · exact fun network carries => same node network found carries
    · exact fun leads network carries => beats node network found leads carries
    · exact fun follows timeout network carries =>
        stands node timeout network found follows carries

theorem triggerElection_ends (latency : c.NoLatency → may) (idle : P c)
    (stands : ∀ node timeout network, c.nodes[id]? = some node → node.status = .active
      → c.network.Carries (Sent id (node.startElection id (c.peers id) now timeout).2) network
      → P (c.withNode id (node.startElection id (c.peers id) now timeout).1 network))
    : (c.triggerElection id now).Ends may P := by
  unfold triggerElection
  split
  · exact ends_pure idle
  · rename_i node found
    split
    · rename_i active
      refine (drawTimeout_ends (P := fun _ => True) fun _ => trivial).bind fun timeout _ => ?_
      exact update_ends latency fun network carries =>
        stands node timeout network found active carries
    · exact ends_pure idle

theorem propose_ends {op : WorkloadOp} (latency : c.NoLatency → may) (idle : P c)
    (proposes : ∀ leaderId leader network, c.nodes[leaderId]? = some leader
      → leader.status = .active
      → c.network.Carries (Sent leaderId
        ((c.peers leaderId).map fun peer =>
          (peer, .propose leader.term (saturatingAdd c.nextLogIndex 1) op))) network
      → P ({ c with nextLogIndex := saturatingAdd c.nextLogIndex 1 }.withNode leaderId
        (leader.counting (saturatingAdd c.nextLogIndex 1) op {leaderId}) network))
    : (c.propose op now).Ends may fun result => P result.2 := by
  unfold propose
  split
  · exact ends_pure idle
  · rename_i leaderId _
    split
    · exact ends_pure idle
    · rename_i leader found
      split
      · rename_i active
        refine Chance.Ends.bind (P := P) (update_ends latency fun network carries => ?_)
          fun _ holds => ends_pure holds
        exact proposes leaderId leader network found active carries
      · exact ends_pure idle

theorem crashNode_ends {tornWrite : Bool} (unknown : P { c with network := c.network.isolate id })
    (crashes : ∀ node, c.nodes[id]? = some node
      → (node.crash tornWrite).Ends may fun node' =>
        P (c.withNode id node' (c.network.isolate id)))
    : (c.crashNode id tornWrite).Ends may P := by
  unfold crashNode
  dsimp only
  split
  · exact ends_pure unknown
  · rename_i node found
    exact (crashes node found).bind fun _ holds => ends_pure holds

/-- The requests of a rebooted node for what it missed. -/
def catchupRequests (c : SimCluster) (id lastIndex : U64) : Outbox :=
  (c.peers id).map fun peer => (peer, .catchupRequest id lastIndex)

theorem rebootNode_ends (latency : c.NoLatency → may) (unknown : ∀ network,
      (c.network.unisolate id).Carries (Sent id (c.catchupRequests id 0)) network
      → P { c with network }) (reboots : ∀ node, c.nodes[id]? = some node
      → (node.reboot now).Ends may fun node' => ∀ network,
        (c.network.unisolate id).Carries (Sent id (c.catchupRequests id node'.commitIndex)) network
        → P (c.withNode id node' network))
    : (c.rebootNode id now).Ends may P := by
  unfold rebootNode
  dsimp only
  split
  · exact sendAll_ends (c := { c with network := c.network.unisolate id }) latency unknown
  · rename_i node found
    exact (reboots node found).bind fun node' holds =>
      update_ends (c := { c with network := c.network.unisolate id }) latency holds

section Membership

/-- The nodes of the cluster. -/
def members : Finset U64 :=
  {1, 2, 3}

/-- The cluster has its three nodes, each under its own id. -/
structure ThreeNodes (c : SimCluster) : Prop where
  size : c.nodes.size = 3
  present : ∀ id : U64, (∃ node, c.nodes[id]? = some node) ↔ id ∈ members
  ids : ∀ (id : U64) (node : SimNode), c.nodes[id]? = some node → node.id = id

theorem ThreeNodes.congr {c' : SimCluster} (three : c.ThreeNodes) (same : c'.nodes = c.nodes)
    : c'.ThreeNodes :=
  ⟨same ▸ three.size, same ▸ three.present, same ▸ three.ids⟩

theorem ThreeNodes.quorumSize (three : c.ThreeNodes) : c.quorumSize = members.card / 2 + 1 := by
  rw [SimCluster.quorumSize, three.size]
  decide

variable {id : U64}

theorem ThreeNodes.withNode (three : c.ThreeNodes) {before node : SimNode}
    (found : c.nodes[id]? = some before) (same : node.id = before.id)
    (network : SimNetwork ClusterMessage)
    : (c.withNode id node network).ThreeNodes := by
  refine ⟨?_, fun other => ?_, ?_⟩
  · have stored : id ∈ c.nodes := Std.ExtTreeMap.mem_iff_isSome_getElem?.mpr (by simp [found])
    simp [SimCluster.withNode, Std.ExtTreeMap.size_insert, stored, three.size]
  · rw [← three.present other, getElem?_withNode]
    split
    · rename_i here
      subst here
      simp [found]
    · rfl
  · exact forall_withNode (same.trans (three.ids id before found))
      fun other old _ there => three.ids other old there

theorem ThreeNodes.nodup_activeNodeIds (three : c.ThreeNodes) : c.activeNodeIds.Nodup := by
  have keyed : c.activeNodeIds
      = (c.nodes.toList.filter fun entry => decide (entry.2.status = .active)).map Prod.fst := by
    rw [activeNodeIds, FiniteMap.values, List.filter_map, List.map_map]
    refine List.map_congr_left fun entry listed => ?_
    have stored := (List.mem_filter.mp listed).1
    exact three.ids entry.1 entry.2 (Std.ExtTreeMap.mem_toList_iff_getElem?_eq_some.mp stored)
  rw [keyed]
  refine List.Nodup.sublist (List.Sublist.map _ List.filter_sublist) ?_
  rw [Std.ExtTreeMap.map_fst_toList_eq_keys]
  exact Std.ExtTreeMap.nodup_keys

theorem ThreeNodes.of_mem_activeNodeIds (three : c.ThreeNodes) (listed : id ∈ c.activeNodeIds)
    : ∃ node, c.nodes[id]? = some node ∧ node.status = .active := by
  obtain ⟨node, kept, rfl⟩ := List.mem_map.mp listed
  obtain ⟨value, active⟩ := List.mem_filter.mp kept
  obtain ⟨⟨key, stored⟩, entry, rfl⟩ := List.mem_map.mp value
  have found := Std.ExtTreeMap.mem_toList_iff_getElem?_eq_some.mp entry
  exact ⟨stored, (three.ids key stored found).symm ▸ found, of_decide_eq_true active⟩

end Membership

section Rule

/-- What a node does in its turn of a move, and what it sends. -/
inductive Turn (move : Move) (c : SimCluster) (id : U64) (node : SimNode)
    : SimNode → Outbox → Prop where
  | reacts {packet : Packet} {now : U64} {node' : SimNode} {out : Outbox}
    (delivers : move = .deliver packet now) (here : packet.toId = id)
    (active : node.status = .active)
    (ran : node.receive id (c.peers id) c.quorumSize now packet.fromId packet.payload
      = some (node', out))
    : Turn move c id node node' out
  | waits {now : U64} (ticks : move = .tickNodes now) : Turn move c id node node []
  | beats {now : U64} (ticks : move = .tickNodes now) (leads : node.role = .leader)
    : Turn move c id node (node.hear now)
        ((c.peers id).map fun peer => (peer, .heartbeat node.term id node.commitIndex))
  | stands {now timeout : U64}
    (due : move = .tickNodes now ∨ move = .triggerElection id now)
    (active : node.status = .active)
    : Turn move c id node (node.startElection id (c.peers id) now timeout).1
        (node.startElection id (c.peers id) now timeout).2
  | crashes {tornWrite : Bool} {node' : SimNode} (crashes : move = .crashNode id tornWrite)
    (down : node.Down node') (status : node'.status = .crashed)
    (kept : ∀ base log, node.Durable base log → node'.Durable base log)
    : Turn move c id node node' []
  | reboots {now : U64} {node' : SimNode} (reboots : move = .rebootNode id now)
    (down : node.Down node') (status : node'.status = .active)
    (kept : ∀ base log, node.Durable base log → node'.Durable base log)
    : Turn move c id node node' (c.catchupRequests id node'.commitIndex)

variable {move : Move} {id : U64} {node node' : SimNode} {out : Outbox}

theorem Turn.id_eq (turn : Turn move c id node node' out) : node'.id = node.id := by
  cases turn with
  | reacts _ _ _ ran => exact (SimNode.receive_reaction ran).electoral.id
  | waits => rfl
  | beats => rfl
  | stands => rfl
  | crashes _ down => exact down.id
  | reboots _ down => exact down.id

theorem Turn.durable {base : Ledger} {log : List Stamped}
    (turn : Turn move c id node node' out) (durable : node.Durable base log)
    : ∃ more, node'.Durable base (log ++ more) := by
  have unchanged {node' : SimNode} (kept : node'.Durable base log)
      : ∃ more, node'.Durable base (log ++ more) :=
    ⟨[], (List.append_nil log).symm ▸ kept⟩
  cases turn with
  | reacts _ _ active ran => exact durable.reaction active (SimNode.receive_reaction ran)
  | waits => exact unchanged durable
  | beats => exact unchanged (durable.congr rfl)
  | stands => exact unchanged (durable.congr rfl)
  | crashes _ _ _ kept => exact unchanged (kept base log durable)
  | reboots _ _ _ kept => exact unchanged (kept base log durable)

/-- Nothing but requests for entries. -/
def Asks (packet : Packet) : Prop :=
  ∃ fromId lastIndex, packet.payload = .catchupRequest fromId lastIndex

/-- What the moves from `start` keep: it survives each node's turn, the start of a proposal, and a
change of the network that adds requests at most. A node takes its turn as it was at the start.
-/
structure MoveRule (may : Prop) (start : SimCluster) (move : Move) (I : SimCluster → Prop)
    : Prop where
  threeNodes : ∀ {c}, I c → c.ThreeNodes
  durable
    : ∀ {c} {id : U64} {node : SimNode}, I c → c.nodes[id]? = some node
      → ∃ base log, node.Durable base log
  latency : ∀ {c}, I c → c.NoLatency → may
  panics
    : ∀ {packet : Packet} {now : U64} {node : SimNode}, move = .deliver packet now
      → start.nodes[packet.toId]? = some node → node.status = .active
      → node.receive packet.toId (start.peers packet.toId) start.quorumSize now packet.fromId
        packet.payload = none
      → may
  rewired : ∀ {c network}, I c → c.network.Carries Asks network → I { c with network }
  proposed
    : ∀ {op now} {leaderId : U64} {network} {leader : SimNode}, move = .propose op now
      → start.nodes[leaderId]? = some leader → leader.status = .active
      → start.network.Carries (Sent leaderId
        ((start.peers leaderId).map fun peer =>
          (peer, .propose leader.term (saturatingAdd start.nextLogIndex 1) op))) network
      → I ({ start with nextLogIndex := saturatingAdd start.nextLogIndex 1 }.withNode leaderId
        (leader.counting (saturatingAdd start.nextLogIndex 1) op {leaderId}) network)
  turn
    : ∀ {c} {id : U64} {node node' : SimNode} {out network}, I c → c.nodes[id]? = some node
      → start.nodes[id]? = some node → Turn move c id node node' out
      → c.network.Carries (Sent id out) network
      → I (c.withNode id node' network)

variable {start : SimCluster} {I : SimCluster → Prop}

/-- The nodes still to take their turn are active and as they were at the start. -/
def Untouched (start : SimCluster) (rest : List U64) (c : SimCluster) : Prop :=
  ∀ id ∈ rest, ∃ node : SimNode,
    start.nodes[id]? = some node ∧ node.status = .active ∧ c.nodes[id]? = some node

/-- The timers of the active nodes. The induction is on the nodes left, which are as they were. -/
theorem MoveRule.tickNodes (rule : MoveRule may start (.tickNodes now) I) (holds : I start)
    : (start.tickNodes now).Ends may I := by
  have three := rule.threeNodes holds
  refine Chance.Ends.mono (ends_foldlM
    (I := fun rest c => I c ∧ rest.Nodup ∧ start.Untouched rest c)
    ?_ ⟨holds, three.nodup_activeNodeIds, fun id listed => ?_⟩) fun c kept => kept.1
  · intro id rest c ⟨holds, distinct, untouched⟩
    obtain ⟨notLater, distinct⟩ := List.nodup_cons.mp distinct
    obtain ⟨node, original, active, found⟩ := untouched id List.mem_cons_self
    have later {node' : SimNode} {network : SimNetwork ClusterMessage}
        : start.Untouched rest (c.withNode id node' network) := by
      intro other listed
      have differs : id ≠ other := fun same => notLater (same ▸ listed)
      rw [getElem?_withNode, if_neg differs]
      exact untouched other (List.mem_cons_of_mem _ listed)
    have taken {node' : SimNode} {out : Outbox} {network : SimNetwork ClusterMessage}
        (turn : Turn (.tickNodes now) c id node node' out)
        (carries : c.network.Carries (Sent id out) network)
        : I (c.withNode id node' network) ∧ rest.Nodup
          ∧ start.Untouched rest (c.withNode id node' network) :=
      ⟨rule.turn holds found original turn carries, distinct, later⟩
    refine tickNode_ends (rule.latency holds) ?_ ?_ ?_ ?_
    · exact ⟨holds, distinct, fun other listed => untouched other (List.mem_cons_of_mem _ listed)⟩
    · intro same network there carries
      cases found.symm.trans there
      exact taken (.waits rfl) carries
    · intro same network there leads carries
      cases found.symm.trans there
      exact taken (.beats rfl leads) carries
    · intro same timeout network there _ carries
      cases found.symm.trans there
      exact taken (.stands (.inl rfl) active) carries
  · obtain ⟨node, found, active⟩ := three.of_mem_activeNodeIds listed
    exact ⟨node, found, active, found⟩

theorem MoveRule.ends (rule : MoveRule may start move I) (holds : I start)
    : (start.move move).Ends may I := by
  have latency := rule.latency holds
  have cut {network : SimNetwork ClusterMessage} {fresh : Packet → Prop}
      (config : network.config = start.network.config)
      (queue : network.queue = start.network.queue)
      : start.network.Carries fresh network :=
    ⟨config, fun event queued => .inl ⟨event, queue ▸ queued, rfl⟩⟩
  cases move with
  | propose op now =>
      refine Chance.Ends.bind (P := fun result => I result.2) ?_ fun _ kept => ends_pure kept
      exact propose_ends latency holds fun _ _ _ found active carries =>
        rule.proposed rfl found active carries
  | deliver packet now =>
      refine processPacket_ends latency (fun _ => holds)
        (fun _ found active stopped => rule.panics rfl found active stopped) ?_
      intro node node' out network found active ran carries
      exact rule.turn holds found found (.reacts rfl rfl active ran) carries
  | tickNodes now => exact rule.tickNodes holds
  | partition setA setB => exact ends_pure (rule.rewired holds (cut rfl rfl))
  | heal => exact ends_pure (rule.rewired holds (cut rfl rfl))
  | triggerElection candidateId now =>
      refine triggerElection_ends latency holds ?_
      intro node timeout network found active carries
      exact rule.turn holds found found (.stands (.inr rfl) active) carries
  | crashNode nodeId tornWrite =>
      refine crashNode_ends (rule.rewired holds (cut rfl rfl)) fun node found => ?_
      obtain ⟨base, log, durable⟩ := rule.durable holds found
      intro draws
      refine (durable.crash tornWrite draws).imp ?_ fun stopped => stopped
      intro ⟨node', rest, ran, _, down, status⟩
      refine ⟨node', rest, ran, rule.turn holds found found (.crashes rfl down status ?_) ?_⟩
      · intro base log durable
        exact (Chance.Ends.returned (@SimNode.Durable.crash _ _ _ True durable tornWrite) ran).1
      · exact cut rfl rfl
  | rebootNode nodeId now =>
      refine rebootNode_ends latency ?_ fun node found => ?_
      · intro network carries
        refine rule.rewired holds ⟨carries.config, fun event queued => ?_⟩
        refine (carries.packets event queued).imp (fun kept => kept) fun sent => ?_
        obtain ⟨-, listed⟩ := sent
        obtain ⟨peer, -, same⟩ := List.mem_map.mp listed
        exact ⟨_, _, (congrArg Prod.snd same).symm⟩
      · obtain ⟨base, log, durable⟩ := rule.durable holds found
        intro draws
        refine (durable.reboot now draws).imp ?_ fun stopped => stopped
        intro ⟨node', rest, ran, _, down, status⟩
        refine ⟨node', rest, ran, fun network carries => ?_⟩
        refine rule.turn holds found found (.reboots rfl down status ?_) ?_
        · intro base log durable
          exact (Chance.Ends.returned (@SimNode.Durable.reboot _ _ _ True durable now) ran).1
        · exact ⟨carries.config, carries.packets⟩

end Rule

section Start

variable (netConfig : NetworkConfig) (accountIds : List U128) (balance : U128)

theorem getElem?_new3Node (id : U64)
    : (new3Node netConfig accountIds balance).nodes[id]?
      = if id ∈ members then some (.new id .usdc (accountIds.map AccountId.mk) balance)
        else none := by
  simp only [new3Node, Std.ExtTreeMap.getElem?_insert, members, Finset.mem_insert,
    Finset.mem_singleton]
  by_cases first : id = 1
  · subst first
    simp
  · by_cases second : id = 2
    · subst second
      simp
    · by_cases third : id = 3
      · subst third
        simp
      · simp [first, second, third, Ne.symm first, Ne.symm second, Ne.symm third]

theorem of_getElem?_new3Node {id : U64} {node : SimNode}
    (found : (new3Node netConfig accountIds balance).nodes[id]? = some node)
    : id ∈ members ∧ node = .new id .usdc (accountIds.map AccountId.mk) balance := by
  rw [getElem?_new3Node] at found
  split at found
  · rename_i member
    exact ⟨member, (Option.some.inj found).symm⟩
  · cases found

theorem threeNodes_new3Node : (new3Node netConfig accountIds balance).ThreeNodes := by
  refine ⟨?_, fun id => ?_, fun id node found => ?_⟩
  · simp [new3Node, Std.ExtTreeMap.size_insert]
  · simp [getElem?_new3Node]
  · rw [(of_getElem?_new3Node netConfig accountIds balance found).2]
    rfl

theorem durable_new (id : U64) (accounts : List AccountId)
    : (SimNode.new id .usdc accounts balance).Durable (baseLedger .usdc accounts balance) [] where
  applied := ⟨rfl, fun index => (SimNode.slot_nil index.val).symm, rfl⟩
  rebuilt := rfl
  settled := rfl
  stored := ⟨[], .inl rfl, rfl, fun _ => rfl⟩

end Start

end SimCluster

end TrustLedger.Simulator
