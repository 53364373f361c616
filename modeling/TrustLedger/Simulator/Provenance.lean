import TrustLedger.Simulator.Replicas

/-! Where operations come from. Everything a node holds or sends under an index was proposed for
that index, so what a node has applied is a selection of the proposals, none taken twice.
-/

namespace TrustLedger.Simulator

open Foundation LedgerCore

/-- The operation was proposed for the index: the next number, or the last one for all proposals
past it.
-/
def ProposedAt (ops : List WorkloadOp) (index : U64) (op : WorkloadOp) : Prop :=
  ∃ j, SlotLog.slot ops j = some op ∧ index.val = min j (2 ^ 64 - 1)

variable {ops : List WorkloadOp}

theorem ProposedAt.mono {index : U64} {op : WorkloadOp} (proposed : ProposedAt ops index op)
    (more : List WorkloadOp)
    : ProposedAt (ops ++ more) index op := by
  obtain ⟨j, held, number⟩ := proposed
  exact ⟨j, SlotLog.slot_of_isPrefix (List.prefix_append _ _) held, number⟩

/-- The operations a message carries were proposed for their indexes. -/
def ClusterMessage.Sourced (ops : List WorkloadOp) : ClusterMessage → Prop
  | .propose _ index op => ProposedAt ops index op
  | .commit _ index op _ => ProposedAt ops index op
  | .catchupResponse _ entries => ∀ entry ∈ entries, ProposedAt ops entry.1 entry.2.1
  | _ => True

theorem ClusterMessage.Sourced.mono {msg : ClusterMessage} (sourced : msg.Sourced ops)
    (more : List WorkloadOp)
    : msg.Sourced (ops ++ more) := by
  cases msg with
  | propose => exact ProposedAt.mono sourced more
  | commit => exact ProposedAt.mono sourced more
  | catchupResponse => exact fun entry listed => (sourced entry listed).mono more
  | _ => trivial

namespace SimNode

/-- All operations of a node were proposed for their indexes. -/
structure Sourced (ops : List WorkloadOp) (node : SimNode) : Prop where
  committed
    : ∀ (index : U64) (entry : Stamped), node.committedOps[index]? = some entry
      → ProposedAt ops index entry.1
  pending
    : ∀ (index : U64) (entry : Stamped), node.pendingCommits[index]? = some entry
      → ProposedAt ops index entry.1
  uncommitted
    : ∀ (index : U64) (waiting : WorkloadOp × Finset U64), node.uncommitted[index]? = some waiting
      → ProposedAt ops index waiting.1

variable {ops : List WorkloadOp} {node node' : SimNode} {id now fromId : U64} {peers : List U64}
  {quorumSize : Nat} {out : Outbox} {β : Type} {map : Std.ExtTreeMap U64 β} {key index : U64}
  {entry : β} {msg : ClusterMessage}

theorem Sourced.mono (sourced : node.Sourced ops) (more : List WorkloadOp)
    : node.Sourced (ops ++ more) :=
  ⟨fun index entry held => (sourced.committed index entry held).mono more,
    fun index entry held => (sourced.pending index entry held).mono more,
    fun index waiting held => (sourced.uncommitted index waiting held).mono more⟩

/-- The parts of a node that hold operations. -/
def operationParts (node : SimNode) :=
  (node.committedOps, node.pendingCommits, node.uncommitted)

theorem Sourced.congr (sourced : node.Sourced ops)
    (same : node'.operationParts = node.operationParts)
    : node'.Sourced ops := by
  simp only [operationParts, Prod.mk.injEq] at same
  obtain ⟨committed, pending, uncommitted⟩ := same
  refine ⟨?_, ?_, ?_⟩
  · rw [committed]
    exact sourced.committed
  · rw [pending]
    exact sourced.pending
  · rw [uncommitted]
    exact sourced.uncommitted

/-- An entry of a map after an insertion is the new one or an old one. -/
theorem getElem?_insert_cases {value : β} (held : (map.insert key value)[index]? = some entry)
    : key = index ∧ entry = value ∨ map[index]? = some entry := by
  rw [Std.ExtTreeMap.getElem?_insert] at held
  split at held
  · rename_i same
    exact .inl ⟨by simpa using same, (Option.some.inj held).symm⟩
  · exact .inr held

theorem getElem?_of_erase (held : (map.erase key)[index]? = some entry)
    : map[index]? = some entry := by
  rw [Std.ExtTreeMap.getElem?_erase] at held
  split at held
  · cases held
  · exact held

theorem Sourced.counting (sourced : node.Sourced ops) {op : WorkloadOp}
    (proposed : ProposedAt ops index op) (acks : Finset U64)
    : (node.counting index op acks).Sourced ops := by
  refine ⟨sourced.committed, sourced.pending, fun other waiting held => ?_⟩
  rcases getElem?_insert_cases held with ⟨rfl, rfl⟩ | before
  · exact proposed
  · exact sourced.uncommitted other waiting before

theorem Sourced.pend (sourced : node.Sourced ops) {entry : Stamped}
    (proposed : ProposedAt ops index entry.1)
    : (node.pend index entry).Sourced ops := by
  refine ⟨sourced.committed, fun other found held => ?_, sourced.uncommitted⟩
  rcases getElem?_insert_cases held with ⟨rfl, rfl⟩ | before
  · exact proposed
  · exact sourced.pending other found before

theorem applyNext_operationParts (node : SimNode) (next : U64) (entry : Stamped)
    : (node.applyNext next entry).operationParts
      = (node.committedOps.insert next entry, node.pendingCommits.erase next,
          node.uncommitted.erase next) := by
  simp only [applyNext, applyOp]
  split <;> rfl

theorem Sourced.applyNext (sourced : node.Sourced ops) {next : U64} {entry : Stamped}
    (pending : node.pendingCommits[next]? = some entry)
    : (node.applyNext next entry).Sourced ops := by
  have parts := applyNext_operationParts node next entry
  simp only [operationParts, Prod.mk.injEq] at parts
  obtain ⟨committed, left, uncommitted⟩ := parts
  refine ⟨fun index found held => ?_, fun index found held => ?_, fun index waiting held => ?_⟩
  · rw [committed] at held
    rcases getElem?_insert_cases held with ⟨rfl, rfl⟩ | before
    · exact sourced.pending _ _ pending
    · exact sourced.committed index found before
  · rw [left] at held
    exact sourced.pending index found (getElem?_of_erase held)
  · rw [uncommitted] at held
    exact sourced.uncommitted index waiting (getElem?_of_erase held)

/-- What is applied was pending, so announcing it is sourced too. -/
theorem Sourced.applyReady (sourced : node.Sourced ops) {newly : List (U64 × Stamped)}
    (ran : node.applyReady = some (node', newly))
    : node'.Sourced ops ∧ ∀ entry ∈ newly, ProposedAt ops entry.1 entry.2.1 := by
  refine applyPending_keeps
    (I := fun done mid => mid.Sourced ops ∧ ∀ entry ∈ done, ProposedAt ops entry.1 entry.2.1)
    ?_ ⟨sourced, nofun⟩ ran
  intro done mid next entry ⟨sourced, known⟩ _ pending
  refine ⟨sourced.applyNext pending, fun other listed => ?_⟩
  rcases List.mem_append.mp listed with before | last
  · exact known other before
  · cases List.mem_singleton.mp last
    exact sourced.pending _ _ pending

theorem Sourced.learnAll (sourced : node.Sourced ops) {entries : List (U64 × Stamped)}
    (proposed : ∀ entry ∈ entries, ProposedAt ops entry.1 entry.2.1)
    : (node.learnAll entries).Sourced ops := by
  induction entries generalizing node with
  | nil => exact sourced
  | cons first rest ih =>
      have learnt : (node.learn first.1 first.2).Sourced ops := by
        unfold SimNode.learn
        split
        · exact sourced
        · exact sourced.pend (proposed first List.mem_cons_self)
      exact ih learnt fun entry listed => proposed entry (List.mem_cons_of_mem _ listed)

theorem adoptTerm_operationParts (node : SimNode) (term : U64)
    : (node.adoptTerm term).operationParts = node.operationParts := by
  unfold SimNode.adoptTerm
  split <;> rfl

theorem Sourced.readies (sourced : node.Sourced ops) {mid : SimNode}
    (readies : node.Readies quorumSize now msg mid) (carries : msg.Sourced ops)
    : mid.Sourced ops := by
  cases readies with
  | committed leads current found quorum fresh =>
      have proposed := sourced.uncommitted _ _ found
      exact (sourced.counting proposed _).pend proposed
  | @told term index op timestamp fresh =>
      have heard : ((node.adoptTerm term).hear now).Sourced ops :=
        sourced.congr (adoptTerm_operationParts node term)
      exact heard.pend carries
  | caughtUp => exact sourced.learnAll carries

/-- Whatever a node receives, it only hands on what was proposed. -/
theorem Sourced.reaction (sourced : node.Sourced ops)
    (reaction : node.Reaction id peers quorumSize now fromId msg node' out)
    (carries : msg.Sourced ops)
    : node'.Sourced ops ∧ ∀ letter ∈ out, letter.2.Sourced ops := by
  have adopt (term : U64) : (node.adoptTerm term).Sourced ops :=
    sourced.congr (adoptTerm_operationParts node term)
  have one {letter : U64 × ClusterMessage} (fine : letter.2.Sourced ops)
      : ∀ other ∈ [letter], other.2.Sourced ops := by
    intro other listed
    cases List.mem_singleton.mp listed
    exact fine
  cases reaction with
  | ignored => exact ⟨sourced, nofun⟩
  | adopted term => exact ⟨adopt term, nofun⟩
  | @held term index op =>
      have heard : ((node.adoptTerm term).hear now).Sourced ops := (adopt term).congr rfl
      exact ⟨heard.counting carries _, one trivial⟩
  | counted acks found => exact ⟨sourced.counting (sourced.uncommitted _ _ found) _, nofun⟩
  | applied readies ran =>
      obtain ⟨applied, newly⟩ := (sourced.readies readies carries).applyReady ran
      refine ⟨applied, fun letter listed => ?_⟩
      cases msg with
      | ack ackFrom term index =>
          obtain ⟨peer, -, named⟩ := List.mem_flatMap.mp listed
          obtain ⟨entry, new, rfl⟩ := List.mem_map.mp named
          exact newly entry new
      | _ => cases listed
  | heard => exact ⟨(adopt _).congr rfl, nofun⟩
  | followed _ asks =>
      refine ⟨(adopt _).congr rfl, fun letter listed => ?_⟩
      obtain ⟨lastIndex, same⟩ := asks letter listed
      rw [same]
      trivial
  | voted => exact ⟨(adopt _).congr rfl, one trivial⟩
  | tallied => exact ⟨sourced.congr rfl, nofun⟩
  | won =>
      exact ⟨sourced.congr rfl, List.forall_mem_map.mpr fun _ _ => trivial⟩
  | shared =>
      refine ⟨sourced, one fun entry kept => ?_⟩
      have stored := Std.ExtTreeMap.mem_toList_iff_getElem?_eq_some.mp (List.mem_filter.mp kept).1
      exact sourced.committed entry.1 entry.2 stored

/-- What a node has applied is a selection of the proposals, in order. Witness: every index but
the last has one proposal, and the last is applied once.
-/
theorem Sourced.sublist (sourced : node.Sourced ops) {base : Ledger} {log : List Stamped}
    (durable : node.Durable base log)
    : (log.map Prod.fst).Sublist ops := by
  have short : log.length < 2 ^ 64 := durable.applied.commitIndex ▸ node.commitIndex.isLt
  have proposed {i : Nat} (within : i < log.length)
      : ∃ j, SlotLog.slot ops j = some log[i].1 ∧ i + 1 = min j (2 ^ 64 - 1) := by
    have held : SlotLog.slot log (i + 1) = some log[i] := List.getElem?_eq_getElem within
    exact sourced.committed ⟨i + 1, by omega⟩ log[i]
      ((durable.applied.committed ⟨i + 1, by omega⟩).trans held)
  have early {i : Nat} (within : i < log.length) (below : i + 1 < 2 ^ 64 - 1)
      : ops[i]? = some log[i].1 := by
    obtain ⟨j, held, number⟩ := proposed within
    have same : j = i + 1 := by omega
    rwa [same] at held
  have taken (n : Nat) (within : n ≤ log.length) (below : n < 2 ^ 64 - 1)
      : (log.take n).map Prod.fst <+: ops := by
    rw [List.prefix_iff_getElem?]
    intro i bound
    simp only [List.length_map, List.length_take] at bound
    rw [early (by omega) (by omega)]
    simp
  by_cases full : log.length < 2 ^ 64 - 1
  · have whole := taken log.length (Nat.le_refl _) full
    rw [List.take_length] at whole
    exact whole.sublist
  · -- the last index: all before it are the first proposals, and it is one of the others
    obtain ⟨n, count⟩ : ∃ n, log.length = n + 1 := ⟨log.length - 1, by omega⟩
    have before := taken n (by omega) (by omega)
    obtain ⟨j, held, number⟩ := proposed (by omega : n < log.length)
    have length : ((log.take n).map Prod.fst).length < j := by
      simp only [List.length_map, List.length_take]
      omega
    have split : log = log.take n ++ [log[n]] := by
      rw [List.take_append_getElem, ← count, List.take_length]
    rw [split, List.map_append]
    simpa using SlotLog.sublist_snoc before held length

end SimNode

namespace SimCluster

/-- Everything the cluster holds was proposed for its index, and the indexes count the proposals.
The packets in hand are those still to be delivered.
-/
structure Sourced (ops : List WorkloadOp) (todo : List Packet) (c : SimCluster) : Prop where
  numbered : c.nextLogIndex.val = min ops.length (2 ^ 64 - 1)
  nodes : ∀ (id : U64) (node : SimNode), c.nodes[id]? = some node → node.Sourced ops
  flight : ∀ event ∈ c.network.queue, event.payload.payload.Sourced ops
  todo : ∀ packet ∈ todo, packet.payload.Sourced ops

variable {base : Ledger} {ops : List WorkloadOp} {todo : List Packet} {c start : SimCluster}
  {id : U64} {node node' : SimNode} {network : SimNetwork ClusterMessage} {out : Outbox}
  {move : Move}

theorem Turn.sourced (turn : Turn move c id node node' out) (sourced : node.Sourced ops)
    (durable : ∃ base log, node.Durable base log)
    (given : ∀ packet ∈ move.brings, packet.payload.Sourced ops)
    : node'.Sourced ops ∧ ∀ letter ∈ out, letter.2.Sourced ops := by
  -- the committed operations come back from the disk, nothing else does
  have recovered (down : node.Down node')
      (kept : ∀ base log, node.Durable base log → node'.Durable base log)
      : node'.Sourced ops := by
    obtain ⟨base, log, durable⟩ := durable
    refine ⟨fun index entry held => sourced.committed index entry ?_, ?_, ?_⟩
    · rw [durable.applied.committed, ← (kept base log durable).applied.committed]
      exact held
    · rw [down.pendingCommits]
      intro index entry held
      simp at held
    · rw [down.uncommitted]
      intro index waiting held
      simp at held
  cases turn with
  | @reacts packet now _ _ delivers here active ran =>
      subst delivers
      exact sourced.reaction (SimNode.receive_reaction ran) (given packet List.mem_cons_self)
  | waits => exact ⟨sourced, nofun⟩
  | beats =>
      exact ⟨sourced.congr rfl, List.forall_mem_map.mpr fun _ _ => trivial⟩
  | stands =>
      exact ⟨sourced.congr rfl, List.forall_mem_map.mpr fun _ _ => trivial⟩
  | crashes _ down _ kept => exact ⟨recovered down kept, nofun⟩
  | reboots _ down _ kept =>
      exact ⟨recovered down kept, List.forall_mem_map.mpr fun _ _ => trivial⟩

/-- What a move leads to: at most the operation it proposes is new. -/
structure Traced (base : Ledger) (ops : List WorkloadOp) (todo : List Packet) (move : Move)
    (c : SimCluster)
    : Prop where
  grown : c.Grown base fun _ => []
  sourced
    : ∃ more : List WorkloadOp, more.Sublist move.op?.toList ∧ c.Sourced (ops ++ more) todo

theorem provenance_rule (sourced : start.Sourced ops (move.brings ++ todo))
    (grown : start.Grown base fun _ => [])
    : MoveRule True start move (Traced base ops todo move) where
  threeNodes traced := traced.grown.threeNodes
  durable traced found := traced.grown.durable found
  latency _ _ := trivial
  panics _ _ _ _ := trivial
  rewired {c network} traced carries := by
    obtain ⟨more, named, there⟩ := traced.sourced
    refine ⟨traced.grown.rewired network, more, named, there.numbered, there.nodes, ?_, there.todo⟩
    refine carries.forall (P := fun packet => packet.payload.Sourced (ops ++ more)) there.flight
      fun packet ⟨fromId, lastIndex, asks⟩ => ?_
    rw [asks]
    trivial
  proposed {op now leaderId network leader} proposes found _ carries := by
    subst proposes
    have next : (saturatingAdd start.nextLogIndex 1).val
        = min (ops ++ [op]).length (2 ^ 64 - 1) := by
      have before := sourced.numbered
      have one : ((1 : U64)).val = 1 := rfl
      rw [saturatingAdd_val, one, before, List.length_append, List.length_singleton]
      omega
    have new : ProposedAt (ops ++ [op]) (saturatingAdd start.nextLogIndex 1) op :=
      ⟨ops.length + 1, SlotLog.slot_append_self ops op, by simpa using next⟩
    refine ⟨grown.counting found _ _ _, [op], .refl _, next, ?_, ?_, ?_⟩
    · exact forall_withNode (((sourced.nodes leaderId leader found).mono [op]).counting new _)
        fun other old _ there => (sourced.nodes other old there).mono [op]
    · refine carries.forall (P := fun packet => packet.payload.Sourced (ops ++ [op]))
        (fun event queued => (sourced.flight event queued).mono [op]) fun packet ⟨_, listed⟩ => ?_
      obtain ⟨peer, -, same⟩ := List.mem_map.mp listed
      rw [← (Prod.mk.inj same).2]
      exact new
    · exact fun packet listed => (sourced.todo packet listed).mono [op]
  turn {c id node node' out network} traced found original turn carries := by
    obtain ⟨more, named, there⟩ := traced.sourced
    have given : ∀ packet ∈ move.brings, packet.payload.Sourced (ops ++ more) :=
      fun packet brought => (sourced.todo packet (List.mem_append_left _ brought)).mono more
    obtain ⟨node_sourced, letters⟩ :=
      turn.sourced (there.nodes id node found) (traced.grown.durable found) given
    refine ⟨traced.grown.turn found turn, more, named, there.numbered, ?_, ?_, there.todo⟩
    · exact forall_withNode node_sourced fun other old _ before => there.nodes other old before
    · exact carries.forall (P := fun packet => packet.payload.Sourced (ops ++ more)) there.flight
        fun packet sent => letters (packet.toId, packet.payload) sent.2

/-- What holds of a run so far: the operations in it are among those proposed. -/
structure Provenance (base : Ledger) (made : List Transition) (todo : List Packet)
    (c : SimCluster)
    : Prop where
  grown : c.Grown base fun _ => []
  sourced : ∃ ops : List WorkloadOp, ops.Sublist (proposedOps made) ∧ c.Sourced ops todo

theorem provenance_preserved (base : Ledger)
    : Preserved True (fun _ _ _ => True) (Provenance base) where
  drain {made c} now known := by
    obtain ⟨grown, ops, named, sourced⟩ := known
    refine ⟨grown.rewired _, ops, named, sourced.numbered, sourced.nodes, ?_, ?_⟩
    · exact (SimNetwork.drainReady_carries c.network now fun _ => False).forall
        (P := fun packet => packet.payload.Sourced ops) sourced.flight nofun
    · intro packet ready
      obtain ⟨event, queued, rfl⟩ := SimNetwork.mem_drainReady ready
      exact sourced.flight event queued
  move {made todo c} move known _ := by
    obtain ⟨grown, ops, named, sourced⟩ := known
    have start : Traced base ops todo move c := by
      refine ⟨grown, [], List.nil_sublist _, ?_⟩
      rw [List.append_nil]
      exact { sourced with
        todo := fun packet listed => sourced.todo packet (List.mem_append_right _ listed) }
    refine ((provenance_rule sourced grown).ends start).mono fun c' traced => ?_
    obtain ⟨grown', more, newly, there⟩ := traced
    refine ⟨grown', ops ++ more, ?_, there⟩
    rw [proposedOps_append, proposedOps_singleton]
    exact named.append newly

theorem provenance_new3Node (netConfig : NetworkConfig) (accountIds : List U128) (balance : U128)
    : Provenance (startLedger accountIds balance) [] []
        (new3Node netConfig accountIds balance) := by
  refine ⟨(replicas_new3Node netConfig accountIds balance).grown
    (threeNodes_new3Node netConfig accountIds balance), [], .slnil, rfl, ?_, nofun, nofun⟩
  intro id node found
  rw [(of_getElem?_new3Node netConfig accountIds balance found).2]
  refine ⟨fun index entry held => ?_, fun index entry held => ?_, fun index waiting held => ?_⟩ <;>
    simp [SimNode.new, SimNode.reinitBaseState] at held

/-- In every state of a run, every node's ledger is the base state after some of the proposed
operations, in the order they were proposed.
-/
theorem applied_proposals (netConfig : NetworkConfig) (accountIds : List U128) (balance : U128)
    (draws : List U64) (calls : List Call) {c : SimCluster}
    (visited : c ∈ states (new3Node netConfig accountIds balance) draws calls)
    (found : c.nodes[id]? = some node)
    : ∃ log, node.Durable (startLedger accountIds balance) log
        ∧ (log.map Prod.fst).Sublist (calls.filterMap Call.op?) := by
  obtain ⟨known, -⟩ := (provenance_preserved _).states
    (provenance_new3Node netConfig accountIds balance) fun _ _ _ _ => trivial
  obtain ⟨made, todo, begins, ⟨-, logs, replicas, -⟩, ops, named, sourced⟩ := known c visited
  have durable := replicas id node found
  refine ⟨logs id, durable, ((sourced.nodes id node found).sublist durable).trans ?_⟩
  obtain ⟨rest, split⟩ := begins
  have whole := proposedOps_trace (new3Node netConfig accountIds balance) draws calls
  rw [← split, proposedOps_append] at whole
  exact (named.trans (List.sublist_append_left _ _)).trans whole

end SimCluster

end TrustLedger.Simulator
