import TrustLedger.Foundation.SlotLog
import TrustLedger.Simulator.Replicas

/-! Replication of the log in the terms of slots with owners. The leader that a proposal went to
owns its index; acknowledgements go back to it alone, so only it ever chooses what is committed
there, and every other node copies what some node has applied. Each turn of a node is a sequence
of steps of that abstract log.
-/

namespace TrustLedger.Simulator

open Foundation LedgerCore

/-- The abstract log: nodes are participants, stamped operations are contents. -/
abbrev World := SlotLog.State U64 Stamped

/-- What a packet says is so: proposals come from the owner of the index, acknowledgements go
there, and announced entries are applied somewhere.
-/
def Truthful (w : World) (packet : Packet) : Prop :=
  match packet.payload with
  | .propose _ index _ => w.owner index.val = some packet.fromId
  | .ack _ _ index => w.owner index.val = some packet.toId
  | .commit _ index op timestamp => ∃ j, SlotLog.slot (w.log j) index.val = some (op, timestamp)
  | .catchupResponse _ entries =>
      ∀ entry ∈ entries, ∃ j, SlotLog.slot (w.log j) entry.1.val = some entry.2
  | _ => True

theorem Truthful.extends {w w' : World} {packet : Packet} (truthful : Truthful w packet)
    (kept : w.Extends w')
    : Truthful w' packet := by
  obtain ⟨fromId, toId, payload⟩ := packet
  cases payload with
  | propose => exact kept.owner truthful
  | ack => exact kept.owner truthful
  | commit =>
      obtain ⟨j, held⟩ := truthful
      exact ⟨j, SlotLog.slot_of_isPrefix (kept.log j) held⟩
  | catchupResponse sender entries =>
      intro entry listed
      obtain ⟨j, held⟩ := truthful entry listed
      exact ⟨j, SlotLog.slot_of_isPrefix (kept.log j) held⟩
  | _ => trivial

/-- What node `id` may do in a turn at tick `now`: anything but claim an index. What it chooses
gets the stamp of that tick, and if `inTurn`, it chooses for its next index.
-/
def Acts (id now : U64) (inTurn : Prop) (w : World) : SlotLog.Action U64 Stamped → Prop
  | .claim _ _ => False
  | .choose k i entry =>
      k = id ∧ entry.2 = SimNode.commitStamp now ∧ (inTurn → i = (w.log id).length + 1)
  | .learn k _ _ | .apply k _ | .forget k => k = id

/-- What a node's turn does to the abstract log. -/
abbrev Acted (id now : U64) (inTurn : Prop) : World → World → Prop :=
  Path SlotLog.State.Step (Acts id now inTurn)

section Acts

variable {w w' : World} {id now : U64} {inTurn : Prop}

/-- A node's turn leaves the owners and the other participants alone. -/
theorem path_acts (path : Acted id now inTurn w w')
    : w'.owner = w.owner
      ∧ ∀ other, other ≠ id → w'.log other = w.log other ∧ w'.waiting other = w.waiting other := by
  induction path with
  | refl => exact ⟨rfl, fun _ _ => ⟨rfl, rfl⟩⟩
  | tail earlier last ok ih =>
      obtain ⟨owners, frame⟩ := ih
      have still {mid next : World} {action : SlotLog.Action U64 Stamped}
          (step : mid.Step action next) (acts : Acts id now inTurn mid action)
          : next.owner = mid.owner ∧ action.actor = id := by
        cases step with
        | claim => exact acts.elim
        | choose => exact ⟨rfl, acts.1⟩
        | learn => exact ⟨rfl, acts⟩
        | apply => exact ⟨rfl, acts⟩
        | forget => exact ⟨rfl, acts⟩
      obtain ⟨same, actor⟩ := still last ok
      refine ⟨same.trans owners, fun other differs => ?_⟩
      have there := last.frame (actor ▸ differs : other ≠ _)
      have before := frame other differs
      exact ⟨there.1.trans before.1, there.2.trans before.2⟩

theorem path_consistent (consistent : w.Consistent)
    {allowed : World → SlotLog.Action U64 Stamped → Prop}
    (path : Path SlotLog.State.Step allowed w w')
    : w'.Consistent :=
  path.invariant (fun known step _ => step.consistent known) consistent

end Acts

namespace SimNode

/-- A node is a participant: its log is applied and its pending operations are what waits. -/
structure Holds (base : Ledger) (w : World) (id : U64) (node : SimNode) : Prop where
  durable : node.Durable base (w.log id)
  pending : ∀ index : U64, node.pendingCommits[index]? = w.waiting id index.val

/-- The acknowledgement completes a quorum for an index not applied yet. -/
def CompletesQuorum (node : SimNode) (quorumSize : Nat) (ackFrom term index : U64) : Prop :=
  node.isLeader ∧ node.term = term ∧ index ∉ node.committedOps
  ∧ ∃ waiting ∈ node.uncommitted[index]?, quorumSize ≤ (insert ackFrom waiting.2).card

instance decidableCompletesQuorum (node : SimNode) (quorumSize : Nat) (ackFrom term index : U64)
    : Decidable (node.CompletesQuorum quorumSize ackFrom term index) :=
  inferInstanceAs (Decidable (_ ∧ _ ∧ _ ∧ _))

variable {base : Ledger} {w : World} {id now fromId : U64} {inTurn : Prop} {node node' : SimNode}
  {peers : List U64} {quorumSize : Nat} {out : Outbox} {index : U64} {entry : Stamped}
  {msg : ClusterMessage}

theorem Holds.congr (holds : node.Holds base w id) (same : node'.durableParts = node.durableParts)
    (pending : node'.pendingCommits = node.pendingCommits)
    : node'.Holds base w id :=
  ⟨holds.durable.congr same, fun index => by rw [pending, holds.pending]⟩

theorem Holds.ahead (holds : node.Holds base w id) (positive : 1 ≤ index.val)
    (fresh : index ∉ node.committedOps)
    : (w.log id).length < index.val := by
  have count := holds.durable.applied.commitIndex
  have beyond : ¬ (1 ≤ index ∧ index ≤ node.commitIndex) :=
    fun within => fresh (holds.durable.mem_committedOps.mpr within)
  rw [Fin.le_def, Fin.le_def, count] at beyond
  have one : ((1 : U64)).val = 1 := rfl
  omega

theorem Holds.pend (holds : node.Holds base w id) (index : U64) (entry : Stamped)
    : (node.pend index entry).Holds base (w.await id index.val entry) id := by
  refine ⟨holds.durable.congr rfl, fun other => ?_⟩
  simp only [SimNode.pend, SlotLog.State.await, SlotLog.State.setWaiting, Function.update_self,
    Std.ExtTreeMap.getElem?_insert]
  by_cases same : index = other
  · subst same
    simp
  · have differs : other.val ≠ index.val := fun equal => same (Fin.ext equal.symm)
    simp [same, Function.update_of_ne differs, holds.pending other]

theorem applyNext_pendingCommits (node : SimNode) (next : U64) (entry : Stamped)
    : (node.applyNext next entry).pendingCommits = node.pendingCommits.erase next := by
  simp only [applyNext, applyOp]
  split <;> rfl

/-- Applying the next pending operation is one step of the abstract log. -/
theorem Holds.applyNext (holds : node.Holds base w id) (active : node.status = .active) {next : U64}
    (counted : checkedAdd node.commitIndex 1 = some next)
    (pending : node.pendingCommits[next]? = some entry)
    : w.Step (.apply id entry) (w.append id entry)
      ∧ (node.applyNext next entry).Holds base (w.append id entry) id
      ∧ next.val = (w.log id).length + 1 := by
  have numbered := holds.durable.applied.next counted
  have ready : w.waiting id ((w.log id).length + 1) = some entry := by
    rw [← numbered, ← holds.pending]
    exact pending
  refine ⟨.apply ready, ⟨?_, fun index => ?_⟩, numbered⟩
  · rw [SlotLog.State.log_append_self]
    exact holds.durable.applyNext active counted entry
  · simp only [applyNext_pendingCommits, SlotLog.State.append, SlotLog.State.setWaiting,
      Function.update_self, Std.ExtTreeMap.getElem?_erase, ← numbered]
    by_cases same : next = index
    · subst same
      simp
    · have differs : index.val ≠ next.val := fun equal => same (Fin.ext equal.symm)
      simp [same, Function.update_of_ne differs, holds.pending index]

/-- Everything that becomes applicable is applied in steps of the abstract log. -/
theorem Holds.applyReady (holds : node.Holds base w id) (active : node.status = .active)
    {newly : List (U64 × Stamped)} (ran : node.applyReady = some (node', newly))
    : ∃ w', Acted id now inTurn w w' ∧ node'.Holds base w' id
        ∧ ∀ entry ∈ newly, SlotLog.slot (w'.log id) entry.1.val = some entry.2 := by
  refine (applyPending_keeps
    (I := fun done mid => mid.status = .active
      ∧ ∃ w', Acted id now inTurn w w' ∧ mid.Holds base w' id
        ∧ ∀ entry ∈ done, SlotLog.slot (w'.log id) entry.1.val = some entry.2)
    ?_ ⟨active, w, .refl, holds, nofun⟩ ran).2
  intro done mid next entry ⟨up, w', path, held, logged⟩ counted pending
  obtain ⟨step, applied, numbered⟩ := held.applyNext up counted pending
  refine ⟨(electionParts_status (applyNext_electionParts mid next entry)).trans up,
    w'.append id entry, path.tail step rfl, applied, fun other listed => ?_⟩
  rcases List.mem_append.mp listed with before | last
  · exact SlotLog.slot_of_isPrefix (step.extends.log id) (logged other before)
  · cases List.mem_singleton.mp last
    rw [numbered, SlotLog.State.log_append_self]
    exact SlotLog.slot_append_self _ _

/-- The loop cannot run past the last index while the log is short of it. -/
theorem Holds.applyReady_isSome (holds : node.Holds base w id) (active : node.status = .active)
    (consistent : w.Consistent) {bound : Nat} (room : bound < 2 ^ 64 - 1)
    (owned : ∀ {i k}, w.owner i = some k → i ≤ bound)
    : node.applyReady ≠ none := by
  suffices ∃ result, node.applyReady = some result by
    obtain ⟨result, ran⟩ := this
    rw [ran]
    nofun
  refine applyPending_isSome
    (I := fun mid => mid.status = .active
      ∧ ∃ w', Acted id 0 False w w' ∧ mid.Holds base w' id)
    ?_ ?_ ⟨active, w, .refl, holds⟩
  · intro mid next entry ⟨up, w', path, held⟩ counted pending
    obtain ⟨step, applied, -⟩ := held.applyNext up counted pending
    exact ⟨(electionParts_status (applyNext_electionParts mid next entry)).trans up, _,
      path.tail step rfl, applied⟩
  · intro mid ⟨_, w', path, held⟩
    have still {i : Nat} {k : U64} (owner : w'.owner i = some k) : i ≤ bound :=
      owned ((path_acts path).1 ▸ owner)
    have short := (path_consistent consistent path).length_le still id
    have count := held.durable.applied.commitIndex
    have one : ((1 : U64)).val = 1 := rfl
    exact ⟨⟨mid.commitIndex.val + 1, by omega⟩, checkedAdd_eq_some.mpr rfl⟩

/-- Learning an entry that is applied somewhere is a step of the abstract log, or nothing. -/
theorem Holds.learn (holds : node.Holds base w id)
    (known : ∃ j, SlotLog.slot (w.log j) index.val = some entry) (now : U64) (inTurn : Prop)
    : ∃ w', Acted id now inTurn w w' ∧ (node.learn index entry).Holds base w' id := by
  unfold SimNode.learn
  split
  · exact ⟨w, .refl, holds⟩
  · rename_i fresh
    have positive : 1 ≤ index.val := by
      obtain ⟨j, held⟩ := known
      by_contra zero
      have none_there : index.val = 0 := by omega
      rw [none_there] at held
      cases held
    have ahead := holds.ahead positive (by simpa using fresh)
    exact ⟨_, .single (.learn known ahead) rfl, holds.pend index entry⟩

theorem Holds.learnAll (holds : node.Holds base w id) {entries : List (U64 × Stamped)}
    (known : ∀ entry ∈ entries, ∃ j, SlotLog.slot (w.log j) entry.1.val = some entry.2)
    : ∃ w', Acted id now inTurn w w' ∧ (node.learnAll entries).Holds base w' id := by
  induction entries generalizing node w with
  | nil => exact ⟨w, .refl, holds⟩
  | cons first rest ih =>
      obtain ⟨mid, path, learnt⟩ := holds.learn (known first List.mem_cons_self) now inTurn
      have later : ∀ entry ∈ rest, ∃ j, SlotLog.slot (mid.log j) entry.1.val = some entry.2 := by
        intro entry listed
        obtain ⟨j, held⟩ := known entry (List.mem_cons_of_mem _ listed)
        exact ⟨j, SlotLog.slot_of_isPrefix ((SlotLog.State.path_extends path).log j) held⟩
      obtain ⟨w', more, final⟩ := ih learnt later
      exact ⟨w', path.trans more, final⟩

variable (holds : node.Holds base w id) (positive : ∀ {i k}, w.owner i = some k → 1 ≤ i)
  (truthful : Truthful w ⟨fromId, id, msg⟩)
  (turn : inTurn → ∀ ackFrom term index, msg = .ack ackFrom term index
    → node.CompletesQuorum quorumSize ackFrom term index
    → index.val = node.commitIndex.val + 1)

include holds positive truthful turn

/-- What makes a node about to apply operations is a sequence of abstract steps: an owner chooses
on a quorum, any other node learns.
-/
theorem Holds.readies {mid : SimNode} (readies : node.Readies quorumSize now msg mid)
    : ∃ w', Acted id now inTurn w w' ∧ mid.Holds base w' id := by
  cases readies with
  | @committed ackFrom term index op acks leads current found quorum fresh =>
      have ahead := holds.ahead (positive truthful) fresh
      have chosen (inTurn : inTurn) : index.val = (w.log id).length + 1 := by
        rw [← holds.durable.applied.commitIndex]
        exact turn inTurn ackFrom term index rfl ⟨leads, current, fresh, (op, acks), found, quorum⟩
      have counting : (node.counting index op (insert ackFrom acks)).Holds base w id :=
        holds.congr rfl rfl
      exact ⟨w.await id index.val (op, commitStamp now),
        .single (.choose truthful ahead) ⟨rfl, rfl, chosen⟩, counting.pend index _⟩
  | @told term index op timestamp fresh =>
      have adopted : ((node.adoptTerm term).hear now).Holds base w id := by
        refine holds.congr (adoptTerm_durableParts node term) ?_
        unfold SimNode.adoptTerm
        split <;> rfl
      have learns : ((node.adoptTerm term).hear now).learn index (op, timestamp)
          = ((node.adoptTerm term).hear now).pend index (op, timestamp) :=
        if_neg (by simpa [hear] using fresh)
      rw [← learns]
      exact adopted.learn truthful now inTurn
  | caughtUp => exact holds.learnAll truthful

/-- Whatever a node receives, it acts within the abstract log and tells the truth. -/
theorem Holds.reaction (active : node.status = .active)
    (reaction : node.Reaction id peers quorumSize now fromId msg node' out)
    : ∃ w', Acted id now inTurn w w' ∧ node'.Holds base w' id
        ∧ ∀ letter ∈ out, Truthful w' ⟨id, letter.1, letter.2⟩ := by
  have adopt (term : U64) : (node.adoptTerm term).Holds base w id := by
    refine holds.congr (adoptTerm_durableParts node term) ?_
    unfold SimNode.adoptTerm
    split <;> rfl
  cases reaction with
  | ignored => exact ⟨w, .refl, holds, nofun⟩
  | adopted term => exact ⟨w, .refl, adopt term, nofun⟩
  | held =>
      refine ⟨w, .refl, (adopt _).congr rfl rfl, fun letter listed => ?_⟩
      cases List.mem_singleton.mp listed
      exact truthful
  | counted => exact ⟨w, .refl, holds.congr rfl rfl, nofun⟩
  | @applied _ mid _ newly readies ran =>
      obtain ⟨ready, path, held⟩ := holds.readies positive truthful turn readies
      have up : mid.status = .active :=
        (status_eq_of_durableParts readies.durableParts).trans active
      obtain ⟨w', more, final, logged⟩ := held.applyReady up ran
      refine ⟨w', path.trans more, final, fun letter listed => ?_⟩
      cases msg with
      | ack ackFrom term index =>
          obtain ⟨peer, -, named⟩ := List.mem_flatMap.mp listed
          obtain ⟨entry, new, rfl⟩ := List.mem_map.mp named
          exact ⟨id, logged entry new⟩
      | _ => cases listed
  | heard => exact ⟨w, .refl, (adopt _).congr rfl rfl, nofun⟩
  | followed _ asks =>
      refine ⟨w, .refl, (adopt _).congr rfl rfl, fun letter listed => ?_⟩
      obtain ⟨lastIndex, same⟩ := asks letter listed
      rw [same]
      trivial
  | voted =>
      refine ⟨w, .refl, (adopt _).congr rfl rfl, fun letter listed => ?_⟩
      cases List.mem_singleton.mp listed
      trivial
  | tallied => exact ⟨w, .refl, holds.congr rfl rfl, nofun⟩
  | won =>
      exact ⟨w, .refl, holds.congr rfl rfl, List.forall_mem_map.mpr fun _ _ => trivial⟩
  | shared =>
      refine ⟨w, .refl, holds, fun letter listed => ?_⟩
      cases List.mem_singleton.mp listed
      intro entry kept
      have stored := Std.ExtTreeMap.mem_toList_iff_getElem?_eq_some.mp (List.mem_filter.mp kept).1
      exact ⟨id, by rw [← holds.durable.applied.committed, stored]⟩

end SimNode

namespace SimCluster

/-- Every acknowledgement that completes a quorum is for the leader's next index. -/
def InTurn (c : SimCluster) : Move → Prop
  | .deliver ⟨_, toId, .ack ackFrom term index⟩ _ =>
      ∀ node ∈ c.nodes[toId]?, node.CompletesQuorum c.quorumSize ackFrom term index
        → index.val = node.commitIndex.val + 1
  | _ => True

instance decidableInTurn (c : SimCluster) (move : Move) : Decidable (c.InTurn move) := by
  unfold InTurn
  split <;> infer_instance

/-- What a move may do to the abstract log: what is chosen in a delivery gets the stamp of its
tick, and if the move is in turn, it is for the chooser's next index.
-/
def Allows (start : SimCluster) (move : Move) (w : World) : SlotLog.Action U64 Stamped → Prop
  | .choose k i entry =>
      ∃ packet now, move = .deliver packet now ∧ entry.2 = SimNode.commitStamp now
        ∧ (start.InTurn move → i = (w.log k).length + 1)
  | _ => True

/-- The cluster is an implementation of the abstract log. The packets in flight and those still to
be delivered are truthful, and an index has an owner only if it was proposed.
-/
structure Coupled (base : Ledger) (w : World) (todo : List Packet) (c : SimCluster) : Prop where
  threeNodes : c.ThreeNodes
  consistent : w.Consistent
  holds : ∀ (id : U64) (node : SimNode), c.nodes[id]? = some node → node.Holds base w id
  owned : ∀ {i k}, w.owner i = some k → 1 ≤ i ∧ i ≤ c.nextLogIndex.val
  flight : ∀ event ∈ c.network.queue, Truthful w event.payload
  todo : ∀ packet ∈ todo, Truthful w packet

variable {base : Ledger} {w w' : World} {todo : List Packet} {c : SimCluster} {id now : U64}
  {node node' : SimNode} {network : SimNetwork ClusterMessage} {out : Outbox} {inTurn : Prop}
  {start : SimCluster}

theorem Coupled.withNode (coupled : c.Coupled base w todo) (found : c.nodes[id]? = some node)
    (same : node'.id = node.id) (acted : Acted id now inTurn w w') (holds : node'.Holds base w' id)
    (truthful : ∀ letter ∈ out, Truthful w' ⟨id, letter.1, letter.2⟩)
    (carries : c.network.Carries (Sent id out) network)
    : (c.withNode id node' network).Coupled base w' todo := by
  have kept := SlotLog.State.path_extends acted
  obtain ⟨owners, frame⟩ := path_acts acted
  refine ⟨coupled.threeNodes.withNode found same network, path_consistent coupled.consistent acted,
    ?_, ?_, ?_, fun packet listed => (coupled.todo packet listed).extends kept⟩
  · refine forall_withNode holds fun other old differs there => ?_
    obtain ⟨log, waiting⟩ := frame other differs
    obtain ⟨durable, pending⟩ := coupled.holds other old there
    exact ⟨log.symm ▸ durable, waiting.symm ▸ pending⟩
  · intro i k owner
    exact coupled.owned (owners ▸ owner)
  · refine carries.forall (fun event queued => (coupled.flight event queued).extends kept) ?_
    intro packet sent
    obtain ⟨fromId, toId, payload⟩ := packet
    obtain ⟨rfl, listed⟩ := sent
    exact truthful _ listed

/-- Every turn of a move is a sequence of steps of the abstract log. -/
theorem Coupled.turn (coupled : c.Coupled base w todo) (three : start.ThreeNodes)
    (found : c.nodes[id]? = some node) (original : start.nodes[id]? = some node) {move : Move}
    (turn : Turn move c id node node' out) (given : ∀ packet ∈ move.brings, Truthful w packet)
    (carries : c.network.Carries (Sent id out) network)
    : ∃ w', Path SlotLog.State.Step (start.Allows move) w w'
        ∧ (c.withNode id node' network).Coupled base w' todo := by
  have holds := coupled.holds id node found
  have same := turn.id_eq
  have idle (still : node'.Holds base w id)
      (truthful : ∀ letter ∈ out, Truthful w ⟨id, letter.1, letter.2⟩)
      : ∃ w', Path SlotLog.State.Step (start.Allows move) w w'
        ∧ (c.withNode id node' network).Coupled base w' todo := by
    have acted : Acted id 0 False w w := .refl
    exact ⟨w, .refl, coupled.withNode found same acted still truthful carries⟩
  -- what was pending is lost in a crash, and not recovered
  have forgets (durable : node'.Durable base (w.log id)) (empty : node'.pendingCommits = ∅)
      (truthful : ∀ w' : World, ∀ letter ∈ out, Truthful w' ⟨id, letter.1, letter.2⟩)
      : ∃ w', Path SlotLog.State.Step (start.Allows move) w w'
        ∧ (c.withNode id node' network).Coupled base w' todo := by
    have acted : Acted id 0 False w (w.setWaiting id fun _ => none) := .single .forget rfl
    refine ⟨_, .single .forget trivial, coupled.withNode found same acted ?_ (truthful _) carries⟩
    exact ⟨durable, fun index => by simp [empty, SlotLog.State.setWaiting]⟩
  cases turn with
  | @reacts packet now _ _ delivers here active ran =>
      subst delivers here
      have quorums : c.quorumSize = start.quorumSize :=
        coupled.threeNodes.quorumSize.trans three.quorumSize.symm
      have next (inTurn : start.InTurn (.deliver packet now)) (ackFrom term index : U64)
          (ack : packet.payload = .ack ackFrom term index)
          (completes : node.CompletesQuorum c.quorumSize ackFrom term index)
          : index.val = node.commitIndex.val + 1 := by
        obtain ⟨sender, toId, payload⟩ := packet
        cases ack
        exact inTurn node original (quorums ▸ completes)
      obtain ⟨w', acted, held, truthful⟩ := holds.reaction (fun owner => (coupled.owned owner).1)
        (given packet List.mem_cons_self) next active (SimNode.receive_reaction ran)
      refine ⟨w', acted.mono ?_, coupled.withNode found same acted held truthful carries⟩
      intro s action acts
      cases action with
      | choose k i entry =>
          obtain ⟨rfl, stamped, next⟩ := acts
          exact ⟨packet, now, rfl, stamped, next⟩
      | _ => trivial
  | waits => exact idle holds (by simp)
  | beats =>
      exact idle (holds.congr rfl rfl) (List.forall_mem_map.mpr fun _ _ => trivial)
  | stands =>
      exact idle (holds.congr rfl rfl) (List.forall_mem_map.mpr fun _ _ => trivial)
  | crashes _ down _ kept =>
      exact forgets (kept base _ holds.durable) down.pendingCommits (by simp)
  | reboots _ down _ kept =>
      refine forgets (kept base _ holds.durable) down.pendingCommits fun w' letter listed => ?_
      obtain ⟨peer, -, rfl⟩ := List.mem_map.mp listed
      trivial

/-- A proposal claims the next index for the leader it goes to. -/
theorem Coupled.proposed (coupled : c.Coupled base w todo) {leaderId : U64} {leader : SimNode}
    (found : c.nodes[leaderId]? = some leader) (op : WorkloadOp)
    (room : c.nextLogIndex.val < 2 ^ 64 - 1) (carries : c.network.Carries (Sent leaderId
      ((c.peers leaderId).map fun peer =>
        (peer, .propose leader.term (saturatingAdd c.nextLogIndex 1) op))) network)
    : ∃ w', w.Step (.claim leaderId (c.nextLogIndex.val + 1)) w'
        ∧ ({ c with nextLogIndex := saturatingAdd c.nextLogIndex 1 }.withNode leaderId
            (leader.counting (saturatingAdd c.nextLogIndex 1) op {leaderId}) network).Coupled
            base w' todo := by
  have next : (saturatingAdd c.nextLogIndex 1).val = c.nextLogIndex.val + 1 := by
    rw [saturatingAdd_val]
    exact Nat.min_eq_left (Nat.succ_le_of_lt room)
  have free : w.owner (c.nextLogIndex.val + 1) = none := by
    by_contra taken
    obtain ⟨k, owner⟩ := Option.ne_none_iff_exists'.mp taken
    have within := (coupled.owned owner).2
    omega
  have step : w.Step (.claim leaderId (c.nextLogIndex.val + 1)) _ := .claim free
  have kept := step.extends
  refine ⟨_, step, ?_, step.consistent coupled.consistent, ?_, ?_, ?_, ?_⟩
  · have raised : ThreeNodes { c with nextLogIndex := saturatingAdd c.nextLogIndex 1 } :=
      coupled.threeNodes.congr rfl
    have same : (leader.counting (saturatingAdd c.nextLogIndex 1) op {leaderId}).id = leader.id :=
      rfl
    exact raised.withNode found same network
  · have leads := coupled.holds leaderId leader found
    refine forall_withNode ⟨leads.durable.congr rfl, leads.pending⟩ fun other old _ there => ?_
    exact ⟨(coupled.holds other old there).durable, (coupled.holds other old there).pending⟩
  · intro i k owner
    by_cases here : i = c.nextLogIndex.val + 1
    · exact ⟨by omega, by simp only [SimCluster.withNode, next]; omega⟩
    · dsimp only at owner
      rw [Function.update_of_ne here] at owner
      have before := coupled.owned owner
      exact ⟨before.1, by simp only [SimCluster.withNode, next]; omega⟩
  · refine carries.forall (fun event queued => (coupled.flight event queued).extends kept) ?_
    intro packet sent
    obtain ⟨fromId, toId, payload⟩ := packet
    obtain ⟨rfl, listed⟩ := sent
    obtain ⟨peer, -, same⟩ := List.mem_map.mp listed
    cases same
    change Function.update w.owner (c.nextLogIndex.val + 1) _ _ = _
    rw [next, Function.update_self]
  · exact fun packet listed => (coupled.todo packet listed).extends kept

/-- What a move leads to: a coupled cluster with the same latencies, and at most one index more. -/
structure Reached (base : Ledger) (w : World) (todo : List Packet) (start : SimCluster)
    (move : Move) (c : SimCluster)
    : Prop where
  config : c.network.config = start.network.config
  proposed : c.nextLogIndex.val ≤ start.nextLogIndex.val + move.proposes
  coupled : ∃ w', Path SlotLog.State.Step (start.Allows move) w w' ∧ c.Coupled base w' todo

/-- Every move is a sequence of steps of the abstract log, and panics for want of a latency
only: indexes never run out while there are fewer proposals than indexes.
-/
theorem replication_rule {move : Move} (coupled : start.Coupled base w (move.brings ++ todo))
    (room : start.nextLogIndex.val + move.proposes < 2 ^ 64 - 1)
    : MoveRule start.NoLatency start move (Reached base w todo start move) where
  threeNodes reached := by
    obtain ⟨w', -, there⟩ := reached.coupled
    exact there.threeNodes
  durable reached found := by
    obtain ⟨w', -, there⟩ := reached.coupled
    exact ⟨base, _, (there.holds _ _ found).durable⟩
  latency reached none_left := by
    unfold NoLatency at none_left ⊢
    rwa [reached.config] at none_left
  panics {packet now node} delivers found active panics := by
    subst delivers
    obtain ⟨mid, readies, stopped⟩ := SimNode.receive_eq_none panics
    have holds := coupled.holds _ node found
    obtain ⟨w', acted, held⟩ := holds.readies (fun owner => (coupled.owned owner).1)
      (coupled.todo packet List.mem_cons_self) False.elim readies
    have within {i : Nat} {k : U64} (owner : w'.owner i = some k)
        : i ≤ start.nextLogIndex.val :=
      (coupled.owned ((path_acts acted).1 ▸ owner)).2
    have up : mid.status = .active :=
      (SimNode.status_eq_of_durableParts readies.durableParts).trans active
    exact absurd stopped (held.applyReady_isSome up (path_consistent coupled.consistent acted)
      (Nat.lt_of_le_of_lt (Nat.le_add_right _ _) room) within)
  rewired reached carries := by
    obtain ⟨w', path, there⟩ := reached.coupled
    refine ⟨carries.config.trans reached.config, reached.proposed, w', path,
      there.threeNodes.congr rfl, there.consistent, there.holds, there.owned, ?_, there.todo⟩
    refine carries.forall there.flight fun packet ⟨fromId, lastIndex, asks⟩ => ?_
    unfold Truthful
    rw [asks]
    trivial
  proposed {op now leaderId network leader} proposes found active carries := by
    subst proposes
    have later : start.Coupled base w todo := coupled
    have next : (saturatingAdd start.nextLogIndex 1).val ≤ start.nextLogIndex.val + 1 :=
      Nat.min_le_left _ _
    obtain ⟨w', step, there⟩ := later.proposed found op (by omega) carries
    exact ⟨carries.config, next, w', .single step trivial, there⟩
  turn {c id node node' out network} reached found original turn carries := by
    obtain ⟨w', path, there⟩ := reached.coupled
    have given : ∀ packet ∈ move.brings, Truthful w' packet := fun packet brought =>
      (coupled.todo packet (List.mem_append_left _ brought)).extends
        (SlotLog.State.path_extends path)
    obtain ⟨final, more, done⟩ := there.turn coupled.threeNodes found original turn given carries
    exact ⟨carries.config.trans reached.config, reached.proposed, final, path.trans more, done⟩

theorem Coupled.move {move : Move} (coupled : start.Coupled base w (move.brings ++ todo))
    (room : start.nextLogIndex.val + move.proposes < 2 ^ 64 - 1)
    : (start.move move).Ends start.NoLatency (Reached base w todo start move) := by
  refine (replication_rule coupled room).ends ⟨rfl, Nat.le_add_right _ _, w, .refl, ?_⟩
  exact { coupled with
    todo := fun packet listed => coupled.todo packet (List.mem_append_right _ listed) }

end SimCluster

end TrustLedger.Simulator
