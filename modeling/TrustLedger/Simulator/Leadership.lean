import TrustLedger.Simulator.Replicas

/-! Who becomes leader, and with what log. A vote only compares commit indexes, and an operation is
applied on acknowledgements that leave no trace in them. So a new leader is sure to have what was
applied anywhere only if a quorum had applied it before any vote for that leader was cast.
-/

namespace TrustLedger.Simulator

open Foundation LedgerCore

namespace SimNode

/-- A node takes itself for the leader exactly in the leader's role. -/
def Steady (node : SimNode) : Prop :=
  node.isLeader = true ↔ node.role = .leader

/-- One more vote makes the node the leader of its term. -/
def Wins (node : SimNode) (quorumSize : Nat) (voter term : U64) : Prop :=
  node.status = .active ∧ node.term = term ∧ node.role = .candidate
  ∧ quorumSize ≤ (insert voter node.votesReceived).card

variable {node node' : SimNode} {toId : U64} {quorumSize : Nat} {out : Outbox} {Q : U64 → Prop}
  {mid : SimNode} {msg : ClusterMessage}

/-- The node is steady, and leads only if the earlier one did. -/
def Remains (node node' : SimNode) : Prop :=
  node'.Steady ∧ (node'.isLeader = true → node.isLeader = true)

theorem Remains.congr (remains : node.Remains mid) (same : node'.electionParts = mid.electionParts)
    : node.Remains node' := by
  simp only [electionParts, Prod.mk.injEq] at same
  obtain ⟨-, -, -, role, leads, -⟩ := same
  unfold Remains Steady
  rw [role, leads]
  exact remains

theorem Steady.remains (steady : node.Steady) : node.Remains node :=
  ⟨steady, fun leads => leads⟩

theorem remains_of_not_leader (role : node'.role ≠ .leader) (lowered : node'.isLeader = false)
    : node.Remains node' :=
  ⟨by simp [Steady, role, lowered], by simp [lowered]⟩

theorem Steady.adoptTerm (steady : node.Steady) (term : U64)
    : node.Remains (node.adoptTerm term) := by
  unfold SimNode.adoptTerm
  split
  · exact remains_of_not_leader (by simp) rfl
  · exact steady.remains

/-- A node becomes leader only by a vote that decides the election, and applies nothing then. -/
theorem Steady.electoral (steady : node.Steady) (active : node.status = .active)
    (electoral : node.Electoral toId quorumSize msg node' out)
    : node.Remains node'
      ∨ node'.Steady
        ∧ ∃ voter term, msg = .voteGranted voter term ∧ node.Wins quorumSize voter term
          ∧ node'.commitIndex = node.commitIndex := by
  cases electoral with
  | aside term same => exact .inl ((steady.adoptTerm term).congr same)
  | followed term same =>
      exact .inl (Remains.congr (remains_of_not_leader (by simp [follow]) rfl) same)
  | @voted _ term candidateId _ _ _ _ same =>
      have kept : node.Remains ((node.adoptTerm term).voteFor candidateId) :=
        steady.adoptTerm term
      exact .inl (kept.congr same)
  | @tallied _ voter _ _ _ _ same =>
      have kept : node.Remains (node.tally voter) := steady.remains
      exact .inl (kept.congr same)
  | won current standing quorum same index =>
      simp only [electionParts, Prod.mk.injEq] at same
      obtain ⟨-, -, -, role, leads, -⟩ := same
      refine .inr ⟨?_, _, _, rfl, ⟨active, current, standing, quorum⟩, index⟩
      simp [Steady, role, leads, lead]

/-- The term only grows, and a candidacy goes on with the votes it has and fresh ones. -/
structure Canvasses (fresh : U64 → Prop) (node node' : SimNode) : Prop where
  term : node.term ≤ node'.term
  standing
    : node'.role = .candidate → node.role = .candidate ∧ node'.term = node.term
      ∧ ∀ v ∈ node'.votesReceived, v ∈ node.votesReceived ∨ fresh v

theorem Canvasses.congr (canvasses : node.Canvasses Q mid)
    (same : node'.electionParts = mid.electionParts)
    : node.Canvasses Q node' := by
  simp only [electionParts, Prod.mk.injEq] at same
  obtain ⟨-, -, term, role, -, -, votes⟩ := same
  refine ⟨term ▸ canvasses.term, ?_⟩
  rw [role, term, votes]
  exact canvasses.standing

theorem canvasses_adoptTerm (term : U64) : node.Canvasses Q (node.adoptTerm term) := by
  unfold SimNode.adoptTerm
  split
  · rename_i later
    exact ⟨le_of_lt later, nofun⟩
  · exact ⟨le_refl _, fun standing => ⟨standing, rfl, fun _ => .inl⟩⟩

/-- A candidate counts the votes it is sent. -/
theorem Electoral.canvasses (electoral : node.Electoral toId quorumSize msg node' out)
    : node.Canvasses (fun v => msg = .voteGranted v node.term) node' := by
  generalize counts : (fun v => msg = .voteGranted v node.term) = Q
  cases electoral with
  | aside term same => exact (canvasses_adoptTerm term).congr same
  | followed term same =>
      have kept : node.Canvasses Q (node.adoptTerm term) := canvasses_adoptTerm term
      have follows : node.Canvasses Q (node.adoptTerm term).follow := ⟨kept.term, nofun⟩
      exact follows.congr same
  | @voted _ term candidateId _ _ _ _ same =>
      have kept : node.Canvasses Q (node.adoptTerm term) := canvasses_adoptTerm term
      have votes : node.Canvasses Q ((node.adoptTerm term).voteFor candidateId) :=
        ⟨kept.term, kept.standing⟩
      exact votes.congr same
  | @tallied _ voter term _ current standing same =>
      have tallies : node.Canvasses Q (node.tally voter) := by
        refine ⟨le_refl _, fun _ => ⟨standing, rfl, fun v joined => ?_⟩⟩
        subst current counts
        rcases Finset.mem_insert.mp joined with rfl | before
        · exact .inr rfl
        · exact .inl before
      exact tallies.congr same
  | @won _ voter _ _ _ _ _ same =>
      have leads : node.Canvasses Q (node.tally voter).lead := ⟨le_refl _, nofun⟩
      exact leads.congr same

/-- A node that reacts asks for no vote, and gives its own only to a candidate that is not behind.
-/
theorem Electoral.grants (electoral : node.Electoral toId quorumSize msg node' out)
    : ∀ letter ∈ out,
        (∀ term candidateId lastIndex, letter.2 ≠ .requestVote term candidateId lastIndex)
        ∧ ∀ voter term, letter.2 = .voteGranted voter term
          → voter = toId ∧ ∃ lastIndex, msg = .requestVote term letter.1 lastIndex
            ∧ node.commitIndex ≤ lastIndex := by
  intro letter listed
  have mute (silent : Silent out) {R : U64 → U64 → Prop}
      : (∀ term candidateId lastIndex, letter.2 ≠ .requestVote term candidateId lastIndex)
        ∧ ∀ voter term, letter.2 = .voteGranted voter term → R voter term :=
    ⟨(silent letter listed).1,
      fun voter term granted => absurd granted ((silent letter listed).2 voter term)⟩
  cases electoral with
  | aside _ _ silent => exact mute silent
  | followed _ _ silent => exact mute silent
  | tallied _ _ _ silent => exact mute silent
  | won _ _ _ _ _ silent => exact mute silent
  | voted _ _ upToDate =>
      cases List.mem_singleton.mp listed
      refine ⟨nofun, fun voter term granted => ?_⟩
      cases granted
      exact ⟨rfl, _, rfl, upToDate⟩

end SimNode

namespace SimCluster

variable {base : Ledger} {seen : List SimCluster} {todo : List Packet} {c c' start : SimCluster}
  {id : U64} {node node' : SimNode} {move : Move} {out : Outbox}
  {network : SimNetwork ClusterMessage} {term voter : U64} {packet : Packet}

/-- The move hands a node the vote that makes it leader. -/
def Decides (c : SimCluster) (id : U64) (node : SimNode) : Move → Prop
  | .deliver ⟨_, toId, .voteGranted voter term⟩ _ => toId = id ∧ node.Wins c.quorumSize voter term
  | _ => False

instance decidableDecides (c : SimCluster) (id : U64) (node : SimNode) (move : Move)
    : Decidable (c.Decides id node move) := by
  unfold Decides SimNode.Wins
  split <;> infer_instance

/-- A turn makes a node leader only by a deciding vote. -/
theorem Turn.steady (steady : node.Steady) (turn : Turn move c id node node' out)
    : node.Remains node'
      ∨ node'.Steady ∧ c.Decides id node move ∧ node'.commitIndex = node.commitIndex := by
  cases turn with
  | @reacts packet _ _ _ delivers here active ran =>
      subst delivers
      refine (steady.electoral active (SimNode.receive_reaction ran).electoral).imp
        (fun remains => remains) ?_
      rintro ⟨kept, voter, term, granted, wins, index⟩
      obtain ⟨fromId, toId, payload⟩ := packet
      cases granted
      exact ⟨kept, ⟨here, wins⟩, index⟩
  | waits => exact .inl steady.remains
  | beats => exact .inl (steady.remains.congr rfl)
  | stands => exact .inl (SimNode.remains_of_not_leader (by simp [SimNode.startElection]) rfl)
  | crashes _ down => exact .inl (SimNode.remains_of_not_leader (by simp [down.role]) down.isLeader)
  | reboots _ down => exact .inl (SimNode.remains_of_not_leader (by simp [down.role]) down.isLeader)

/-- A number a node keeps; zero if there is no such node. -/
def reading (c : SimCluster) (part : SimNode → U64) (id : U64) : U64 :=
  (c.nodes[id]?.map part).getD 0

/-- The last index a node has applied. -/
abbrev applied (c : SimCluster) : U64 → U64 :=
  c.reading SimNode.commitIndex

abbrev termOf (c : SimCluster) : U64 → U64 :=
  c.reading SimNode.term

theorem reading_of_found (found : c.nodes[id]? = some node) (part : SimNode → U64)
    : c.reading part id = part node := by
  simp [reading, found]

theorem reading_withNode_self (part : SimNode → U64)
    : (c.withNode id node network).reading part id = part node := by
  rw [reading, getElem?_withNode, if_pos rfl]
  rfl

theorem reading_withNode (part : SimNode → U64) (other : U64)
    : (c.withNode id node network).reading part other
      = if id = other then part node else c.reading part other := by
  unfold reading
  rw [getElem?_withNode]
  split <;> rfl

/-- No node has lost anything it applied, or gone back to an earlier term. -/
structure Precedes (c c' : SimCluster) : Prop where
  applied : ∀ id, c.applied id ≤ c'.applied id
  term : ∀ id, c.termOf id ≤ c'.termOf id

theorem Precedes.refl (c : SimCluster) : c.Precedes c :=
  ⟨fun _ => le_refl _, fun _ => le_refl _⟩

theorem Precedes.trans {c'' : SimCluster} (first : c.Precedes c') (second : c'.Precedes c'')
    : c.Precedes c'' :=
  ⟨fun id => (first.applied id).trans (second.applied id),
    fun id => (first.term id).trans (second.term id)⟩

theorem precedes_withNode (found : c.nodes[id]? = some node)
    (index : node.commitIndex ≤ node'.commitIndex) (term : node.term ≤ node'.term)
    : c.Precedes (c.withNode id node' network) := by
  have grows {part : SimNode → U64} (more : part node ≤ part node') (other : U64)
      : c.reading part other ≤ (c.withNode id node' network).reading part other := by
    rw [reading_withNode]
    split
    · rename_i here
      subst here
      rwa [reading_of_found found]
    · exact le_refl _
  exact ⟨grows index, grows term⟩

/-- A vote was given with good reason: before the candidate entered its term, the voter had not
applied more than the candidate has now.
-/
structure Backed (seen : List SimCluster) (c : SimCluster) (id term voter : U64) : Prop where
  member : voter ∈ members
  entered : term ≤ c.termOf id
  behind : ∀ earlier ∈ seen, earlier.termOf id < term → earlier.applied voter ≤ c.applied id

/-- What a packet says is so: who asks for votes has entered the term and applied what it says, and
votes are given with good reason.
-/
def Told (seen : List SimCluster) (c : SimCluster) (packet : Packet) : Prop :=
  match packet.payload with
  | .requestVote term candidateId lastIndex =>
      term ≤ c.termOf candidateId ∧ lastIndex ≤ c.applied candidateId
  | .voteGranted voter term => Backed seen c packet.toId term voter
  | _ => True

theorem Backed.mono (backed : c.Backed seen id term voter) (later : c.Precedes c')
    : c'.Backed seen id term voter :=
  ⟨backed.member, backed.entered.trans (later.term id), fun earlier listed before =>
    (backed.behind earlier listed before).trans (later.applied id)⟩

theorem Backed.see (backed : c.Backed seen id term voter)
    : c.Backed (seen ++ [c]) id term voter := by
  refine { backed with behind := fun earlier listed before => ?_ }
  rcases List.mem_append.mp listed with old | new
  · exact backed.behind earlier old before
  · cases List.mem_singleton.mp new
    exact absurd backed.entered (not_le.mpr before)

theorem Told.mono (told : c.Told seen packet) (later : c.Precedes c') : c'.Told seen packet := by
  obtain ⟨fromId, toId, payload⟩ := packet
  cases payload with
  | requestVote => exact ⟨told.1.trans (later.term _), told.2.trans (later.applied _)⟩
  | voteGranted => exact Backed.mono told later
  | _ => trivial

theorem Told.see (told : c.Told seen packet) : c.Told (seen ++ [c]) packet := by
  obtain ⟨fromId, toId, payload⟩ := packet
  cases payload with
  | requestVote => exact told
  | voteGranted => exact Backed.see told
  | _ => trivial

/-- What is known of a run: nothing applied is ever lost, and all votes are given with good reason,
those counted and those on the way.
-/
structure Succession (base : Ledger) (seen : List SimCluster) (todo : List Packet) (c : SimCluster)
    : Prop where
  grown : c.Grown base fun _ => []
  steady : ∀ (id : U64) (node : SimNode), c.nodes[id]? = some node → node.Steady
  past : ∀ earlier ∈ seen, earlier.Grown base (fun _ => []) ∧ earlier.Precedes c
  votes
    : ∀ (id : U64) (node : SimNode), c.nodes[id]? = some node → node.role = .candidate
      → ∀ v ∈ node.votesReceived, c.Backed seen id node.term v
  flight : ∀ event ∈ c.network.queue, c.Told seen event.payload
  todo : ∀ packet ∈ todo, c.Told seen packet

theorem Succession.see (known : Succession base seen todo c)
    : Succession base (seen ++ [c]) todo c where
  grown := known.grown
  steady := known.steady
  past earlier listed := by
    rcases List.mem_append.mp listed with old | new
    · exact known.past earlier old
    · cases List.mem_singleton.mp new
      exact ⟨known.grown, .refl c⟩
  votes id node found standing v counted := (known.votes id node found standing v counted).see
  flight event queued := (known.flight event queued).see
  todo packet listed := (known.todo packet listed).see

theorem Succession.rewired {todo' : List Packet} (known : Succession base seen todo c)
    (same : c'.nodes = c.nodes) (flight : ∀ event ∈ c'.network.queue, c.Told seen event.payload)
    (pending : ∀ packet ∈ todo', c.Told seen packet)
    : Succession base seen todo' c' := by
  have later : c.Precedes c' := by
    constructor <;> simp [reading, same]
  obtain ⟨three, logs, replicas, longer⟩ := known.grown
  refine ⟨⟨three.congr same, logs, ?_, longer⟩, ?_, fun earlier visited => ?_, ?_, ?_, ?_⟩
  · rwa [Replicas, same]
  · rw [same]
    exact known.steady
  · exact ⟨(known.past earlier visited).1, (known.past earlier visited).2.trans later⟩
  · rw [same]
    exact fun id node found standing v counted =>
      (known.votes id node found standing v counted).mono later
  · exact fun event queued => (flight event queued).mono later
  · exact fun packet listed => (pending packet listed).mono later

/-- A node is replaced by a later one of itself that tells the truth. -/
theorem Succession.withNode (known : Succession base seen todo c)
    (grown : (c.withNode id node' network).Grown base fun _ => []) (steady : node'.Steady)
    (later : c.Precedes (c.withNode id node' network)) (votes : node'.role = .candidate
      → ∀ v ∈ node'.votesReceived, (c.withNode id node' network).Backed seen id node'.term v)
    (tells : ∀ letter ∈ out, (c.withNode id node' network).Told seen ⟨id, letter.1, letter.2⟩)
    (carries : c.network.Carries (Sent id out) network)
    : Succession base seen todo (c.withNode id node' network) where
  grown := grown
  steady := forall_withNode steady fun other old _ there => known.steady other old there
  past earlier listed :=
    ⟨(known.past earlier listed).1, (known.past earlier listed).2.trans later⟩
  votes := forall_withNode votes fun other old _ there standing v counted =>
    (known.votes other old there standing v counted).mono later
  flight := by
    refine carries.forall (fun event queued => (known.flight event queued).mono later) ?_
    rintro ⟨fromId, toId, payload⟩ ⟨rfl, listed⟩
    exact tells _ listed
  todo packet listed := (known.todo packet listed).mono later

theorem Turn.term_le (turn : Turn move c id node node' out) : node.term ≤ node'.term := by
  cases turn with
  | reacts _ _ _ ran => exact (SimNode.receive_reaction ran).electoral.canvasses.term
  | waits => exact le_refl _
  | beats => exact le_refl _
  | stands =>
      rw [SimNode.startElection, Fin.le_def, saturatingAdd_val]
      exact le_min (Nat.le_add_right _ _) (Nat.le_pred_of_lt node.term.isLt)
  | crashes _ down => exact down.term.ge
  | reboots _ down => exact down.term.ge

section Turns

variable (known : Succession base seen todo c) (found : c.nodes[id]? = some node)
  (takes : Turn move c id node node' out) (given : ∀ packet ∈ move.brings, c.Told seen packet)

include known found takes given

/-- The votes a node has after its turn are those it had and one it was sent, or its own. -/
theorem Succession.turn_votes
    (later : c.Precedes (c.withNode id node' network)) (standing : node'.role = .candidate)
    : ∀ v ∈ node'.votesReceived, (c.withNode id node' network).Backed seen id node'.term v := by
  intro v counted
  cases takes with
  | @reacts packet _ _ _ delivers here _ ran =>
      subst delivers here
      have told := given packet List.mem_cons_self
      obtain ⟨stood, same, sources⟩ :=
        (SimNode.receive_reaction ran).electoral.canvasses.standing standing
      rw [same]
      refine Backed.mono ?_ later
      rcases sources v counted with before | granted
      · exact known.votes _ node found stood v before
      · unfold Told at told
        rwa [granted] at told
  | waits => exact (known.votes id node found standing v counted).mono later
  | beats => exact (known.votes id node found standing v counted).mono later
  | stands =>
      rw [Finset.mem_singleton.mp counted]
      exact ⟨(known.grown.threeNodes.present id).mp ⟨node, found⟩, (reading_withNode_self _).ge,
        fun earlier visited _ => ((known.past earlier visited).2.trans later).applied id⟩
  | crashes _ down =>
      rw [down.role] at standing
      cases standing
  | reboots _ down =>
      rw [down.role] at standing
      cases standing

/-- What a node sends in its turn is so. Witness: a node votes for a candidate that is not behind
it, and has applied whatever it had before.
-/
theorem Succession.turn_tells (later : c.Precedes (c.withNode id node' network))
    : ∀ letter ∈ out, (c.withNode id node' network).Told seen ⟨id, letter.1, letter.2⟩ := by
  intro letter listed
  cases takes with
  | @reacts packet _ _ _ delivers here _ ran =>
      subst delivers here
      have told := given packet List.mem_cons_self
      obtain ⟨noRequest, grants⟩ := (SimNode.receive_reaction ran).electoral.grants letter listed
      unfold Told
      split
      · exact absurd ‹_› (noRequest _ _ _)
      · rename_i voter term granted
        obtain ⟨rfl, lastIndex, asked, upToDate⟩ := grants voter term granted
        unfold Told at told
        rw [asked] at told
        have member := (known.grown.threeNodes.present packet.toId).mp ⟨node, found⟩
        refine Backed.mono ⟨member, told.1, fun earlier visited _ => ?_⟩ later
        refine ((known.past earlier visited).2.applied packet.toId).trans (le_trans ?_ told.2)
        rwa [applied, reading_of_found found]
      · trivial
  | waits => cases listed
  | stands =>
      obtain ⟨peer, -, rfl⟩ := List.mem_map.mp listed
      exact ⟨(reading_withNode_self _).ge, (reading_withNode_self _).ge⟩
  | crashes => cases listed
  | beats | reboots =>
      obtain ⟨peer, -, rfl⟩ := List.mem_map.mp listed
      trivial

/-- Every turn keeps what is known of the run. -/
theorem Succession.turn (carries : c.network.Carries (Sent id out) network)
    : Succession base seen todo (c.withNode id node' network) := by
  have index : node.commitIndex ≤ node'.commitIndex := by
    obtain ⟨-, logs, replicas, -⟩ := known.grown
    have durable := replicas id node found
    obtain ⟨more, durable'⟩ := takes.durable durable
    rw [Fin.le_def, durable.applied.commitIndex, durable'.applied.commitIndex, List.length_append]
    exact Nat.le_add_right _ _
  have later : c.Precedes (c.withNode id node' network) :=
    precedes_withNode found index takes.term_le
  have steady := (takes.steady (known.steady id node found)).elim And.left And.left
  exact known.withNode (known.grown.turn found takes) steady later
    (known.turn_votes found takes given later) (known.turn_tells found takes given later) carries

end Turns

/-- A node leads that did not at the start only by the vote that decides its election. -/
def Decided (start : SimCluster) (move : Move) (c : SimCluster) : Prop :=
  ∀ (id : U64) (after : SimNode), c.nodes[id]? = some after → after.isLeader = true
    → ∀ before : SimNode, start.nodes[id]? = some before → before.isLeader = false
    → start.Decides id before move ∧ after.commitIndex = before.commitIndex

theorem decided_start (start : SimCluster) (move : Move) : Decided start move start := by
  intro id after found leads before there follows
  cases found.symm.trans there
  rw [follows] at leads
  cases leads

/-- A move keeps what is known and passes leadership on by deciding votes only. -/
theorem succession_rule (known : Succession base seen (move.brings ++ todo) start)
    (visited : start ∈ seen)
    : MoveRule True start move fun c => Succession base seen todo c ∧ Decided start move c where
  threeNodes kept := kept.1.grown.threeNodes
  durable kept found := kept.1.grown.durable found
  latency _ _ := trivial
  panics _ _ _ _ := trivial
  rewired {c network} kept carries := by
    refine ⟨kept.1.rewired rfl ?_ kept.1.todo, kept.2⟩
    refine carries.forall kept.1.flight fun packet ⟨fromId, lastIndex, asks⟩ => ?_
    unfold Told
    rw [asks]
    trivial
  proposed {op now leaderId network leader} _ found _ carries := by
    let raised := { start with nextLogIndex := saturatingAdd start.nextLogIndex 1 }
    have kept : Succession base seen todo raised := known.rewired rfl known.flight
      fun packet listed => known.todo packet (List.mem_append_right _ listed)
    have later : raised.Precedes (raised.withNode leaderId
        (leader.counting (saturatingAdd start.nextLogIndex 1) op {leaderId}) network) :=
      precedes_withNode found (le_refl _) (le_refl _)
    refine ⟨kept.withNode (known.grown.counting found _ _ _) (known.steady leaderId leader found)
      later ?_ ?_ carries, ?_⟩
    · exact fun standing v counted =>
        (kept.votes leaderId leader found standing v counted).mono later
    · intro letter listed
      obtain ⟨peer, -, rfl⟩ := List.mem_map.mp listed
      trivial
    · exact forall_withNode (decided_start start _ leaderId leader found)
        fun other old _ there => decided_start start _ other old there
  turn {c id node node' out network} kept found original turn carries := by
    obtain ⟨known', decided⟩ := kept
    have given (packet : Packet) (brought : packet ∈ move.brings) : c.Told seen packet :=
      (known.todo packet (List.mem_append_left _ brought)).mono (known'.past start visited).2
    refine ⟨known'.turn found turn given carries, ?_⟩
    refine forall_withNode (fun leads before there follows => ?_)
      fun other old _ there => decided other old there
    cases original.symm.trans there
    rcases turn.steady (known'.steady id node found) with remains | ⟨-, decides, index⟩
    · rw [remains.2 leads] at follows
      cases follows
    · refine ⟨?_, index⟩
      unfold Decides at decides ⊢
      rwa [known.grown.threeNodes.quorumSize, ← known'.grown.threeNodes.quorumSize]

/-- An index is applied on a quorum: the leader's announcement has reached it. -/
def Announced (c : SimCluster) (index : U64) : Prop :=
  c.quorumSize ≤ (members.filter fun id => index ≤ c.applied id).card

instance decidableAnnounced (c : SimCluster) (index : U64) : Decidable (c.Announced index) :=
  inferInstanceAs (Decidable (_ ≤ _))

/-- When a vote decides an election, whatever any node has applied was applied on a quorum before
the winner entered the term, so before any vote for it was cast.
-/
def AnnouncedBeforeVotes (seen : List SimCluster) (c : SimCluster) (move : Move) : Prop :=
  ∀ id ∈ members, ∀ node ∈ c.nodes[id]?, c.Decides id node move
    → ∀ other ∈ members, ∃ earlier ∈ seen, earlier.termOf id < node.term
      ∧ earlier.Announced (c.applied other)

instance decidableAnnouncedBeforeVotes (seen : List SimCluster) (c : SimCluster) (move : Move)
    : Decidable (AnnouncedBeforeVotes seen c move) :=
  -- identifiers are numbers below `2 ^ 64`, which are not to be tried one by one
  have among (P : U64 → Prop) [DecidablePred P] : Decidable (∀ id ∈ members, P id) :=
    Finset.decidableDforallFinset
  among _

/-- The winner of a deciding vote has applied what any node has. Witness: the quorum that voted and
the one that had applied it share a node.
-/
theorem Succession.complete (known : Succession base seen (move.brings ++ todo) c)
    (announced : AnnouncedBeforeVotes seen c move) (found : c.nodes[id]? = some node)
    (decides : c.Decides id node move) (other : U64)
    : c.applied other ≤ node.commitIndex := by
  have three := known.grown.threeNodes
  have member : id ∈ members := (three.present id).mp ⟨node, found⟩
  by_cases present : other ∈ members
  · obtain ⟨earlier, visited, before, quorum⟩ :=
      announced id member node found decides other present
    obtain ⟨voters, within, enough, backed⟩ : ∃ voters ⊆ members, c.quorumSize ≤ voters.card
        ∧ ∀ v ∈ voters, c.Backed seen id node.term v := by
      unfold Decides at decides
      split at decides
      · rename_i toId voter term _
        obtain ⟨rfl, -, rfl, standing, quorum⟩ := decides
        have backed : ∀ v ∈ insert voter node.votesReceived, c.Backed seen toId node.term v := by
          intro v joined
          rcases Finset.mem_insert.mp joined with rfl | counted
          · exact known.todo _ List.mem_cons_self
          · exact known.votes _ node found standing v counted
        exact ⟨_, fun v joined => (backed v joined).member, quorum, backed⟩
      · exact decides.elim
    rw [Announced, (known.past earlier visited).1.threeNodes.quorumSize] at quorum
    rw [three.quorumSize] at enough
    have shared
        : (voters ∩ members.filter fun id => c.applied other ≤ earlier.applied id).Nonempty :=
      Finset.inter_nonempty_of_card_lt_card_add_card within (Finset.filter_subset _ _) (by omega)
    obtain ⟨v, both⟩ := shared
    obtain ⟨voted, applied⟩ := Finset.mem_inter.mp both
    rw [← reading_of_found found SimNode.commitIndex]
    exact (Finset.mem_filter.mp applied).2.trans ((backed v voted).behind earlier visited before)
  · have absent : c.nodes[other]? = none := by
      rw [Option.eq_none_iff_forall_not_mem]
      exact fun node there => present ((three.present other).mp ⟨node, there⟩)
    simp [applied, reading, absent]

end SimCluster

open SimCluster

/-- A node that did not lead leads after the transition. -/
structure Transition.Elects (transition : Transition) (id : U64) (before after : SimNode)
    : Prop where
  found : transition.before.nodes[id]? = some before
  follows : before.isLeader = false
  leads : ∃ c', transition.after = some c' ∧ c'.nodes[id]? = some after ∧ after.isLeader = true

/-- A node elected here has applied every index that any node had applied up to now. -/
def LeaderComplete (past : List Transition) (transition : Transition) : Prop :=
  ∀ id before after, transition.Elects id before after
    → ∀ earlier ∈ past ++ [transition], ∀ (other : U64) (node : SimNode) (index : U64),
      earlier.before.nodes[other]? = some node → index ∈ node.committedOps
      → index ≤ after.commitIndex

theorem succession_preserved (base : Ledger)
    : Preserved True
        (fun made c move => AnnouncedBeforeVotes (made.map Transition.before) c move)
        fun made todo c => Succession base (made.map Transition.before) todo c
          ∧ Along LeaderComplete [] made where
  drain {made c} now known := by
    obtain ⟨known, complete⟩ := known
    refine ⟨known.rewired rfl ?_ ?_, complete⟩
    · exact (SimNetwork.drainReady_carries c.network now fun _ => False).forall known.flight nofun
    · intro packet ready
      obtain ⟨event, queued, rfl⟩ := SimNetwork.mem_drainReady ready
      exact known.flight event queued
  move {made todo c} move known announced := by
    obtain ⟨known, complete⟩ := known
    have rule := succession_rule known.see (List.mem_append_right _ List.mem_cons_self)
    have begins : Succession base (made.map Transition.before ++ [c]) todo c :=
      known.see.rewired rfl known.see.flight
        fun packet listed => known.see.todo packet (List.mem_append_right _ listed)
    refine (rule.ends ⟨begins, decided_start c move⟩).mono ?_
    intro c' ⟨known', decided⟩
    refine ⟨by simpa using known', along_append.mpr ⟨complete, along_cons.mpr ⟨?_, along_nil⟩⟩⟩
    intro id before after elects earlier listed other node index there applied
    obtain ⟨found, follows, _, reached, new, leads⟩ := elects
    cases reached
    obtain ⟨decides, same⟩ := decided id after new leads before found follows
    have visited : earlier.before ∈ made.map Transition.before ++ [c] := by
      simpa using List.mem_map_of_mem (f := Transition.before) listed
    obtain ⟨⟨-, logs, replicas, -⟩, precedes⟩ := known.see.past earlier.before visited
    rw [same]
    calc index
        ≤ node.commitIndex := ((replicas other node there).mem_committedOps.mp applied).2
      _ = earlier.before.applied other := (reading_of_found there _).symm
      _ ≤ c.applied other := precedes.applied other
      _ ≤ before.commitIndex := known.complete announced found decides other

theorem succession_new3Node (netConfig : NetworkConfig) (accountIds : List U128) (balance : U128)
    : Succession (startLedger accountIds balance) [] []
        (new3Node netConfig accountIds balance) where
  grown := (replicas_new3Node netConfig accountIds balance).grown
    (threeNodes_new3Node netConfig accountIds balance)
  steady id node found := by
    rw [(of_getElem?_new3Node netConfig accountIds balance found).2]
    by_cases first : id = 1 <;> simp [SimNode.Steady, SimNode.new, SimNode.reinitBaseState, first]
  past := nofun
  votes id node found standing := by
    rw [(of_getElem?_new3Node netConfig accountIds balance found).2] at standing
    by_cases first : id = 1 <;> simp [SimNode.new, SimNode.reinitBaseState, first] at standing
  flight := nofun
  todo := nofun

/-- In every run whose deciding votes come after a quorum had applied whatever any node has, new
leaders have applied everything applied anywhere before them.
-/
theorem announced_leaders_complete (netConfig : NetworkConfig) (accountIds : List U128)
    (balance : U128) (draws : List U64) (calls : List Call) (announced : Along
      (fun past transition => AnnouncedBeforeVotes (past.map Transition.before) transition.before
        transition.move)
      [] (trace (.new3Node netConfig accountIds balance) draws calls))
    : Along LeaderComplete [] (trace (.new3Node netConfig accountIds balance) draws calls) := by
  have known := (succession_preserved _).trace
    ⟨succession_new3Node netConfig accountIds balance, along_nil⟩ announced
  intro past transition rest split id before after elects
  obtain ⟨c', returned, -⟩ := elects.leads
  obtain ⟨_, -, complete⟩ := (known past transition rest split).after c' returned
  exact complete past transition [] (by simp) id before after elects

/-- A transfer is announced to everybody before node 2 stands for election. -/
def announcedTransfer : List Call :=
  [.propose (.directTransfer 7 1 2 30) 0, .step 1, .step 2, .step 3, .triggerElection 2 3, .step 4,
    .step 5]

/-- Witness: node 2 is elected with the transfer applied. -/
theorem announcedTransfer_leader_complete
    : (∃ c ∈ states (new3Node {} [1, 2] 100) [] announcedTransfer, ∃ node ∈ c.nodes[(2 : U64)]?,
        node.isLeader = true ∧ node.commitIndex = 1)
      ∧ Along LeaderComplete [] (trace (.new3Node {} [1, 2] 100) [] announcedTransfer) :=
  ⟨by decide +kernel,
    announced_leaders_complete {} [1, 2] 100 [] announcedTransfer (by decide +kernel)⟩

/-- Node 1 applies a transfer on node 2's acknowledgement and is cut off before it can announce
it; nodes 2 and 3 then elect node 2.
-/
def cutOffLeader : List Call :=
  [.propose (.directTransfer 7 1 2 30) 0, .step 1, .step 2, .partition {1} {2, 3},
    .triggerElection 2 3, .step 4, .step 5]

/-- Node 2 becomes leader with nothing applied, while node 1 has applied the first index. -/
def Transition.losesFirst (transition : Transition) : Bool :=
  match transition.before.nodes[(2 : U64)]?, transition.after.bind fun c' => c'.nodes[(2 : U64)]?,
    transition.before.nodes[(1 : U64)]? with
  | some before, some after, some other =>
      !before.isLeader && after.isLeader && decide (after.commitIndex = 0)
        && other.committedOps.contains 1
  | _, _, _ => false

theorem cutOffLeader_not_complete
    : ¬ Along LeaderComplete [] (trace (.new3Node {} [1, 2] 100) [] cutOffLeader) := by
  have lost : (trace (.new3Node {} [1, 2] 100) [] cutOffLeader).any Transition.losesFirst := by
    decide +kernel
  intro complete
  obtain ⟨transition, listed, loses⟩ := List.any_eq_true.mp lost
  obtain ⟨past, rest, split⟩ := List.append_of_mem listed
  unfold Transition.losesFirst at loses
  split at loses
  · rename_i before after other found new there
    simp only [Bool.and_eq_true, Bool.not_eq_true', decide_eq_true_eq] at loses
    obtain ⟨⟨⟨follows, leads⟩, empty⟩, applied⟩ := loses
    obtain ⟨c', returned, new⟩ := Option.bind_eq_some_iff.mp new
    have within := complete past transition rest split 2 before after
      ⟨found, follows, c', returned, new, leads⟩ transition
      (List.mem_append_right _ List.mem_cons_self) 1 other 1 there applied
    rw [empty] at within
    exact absurd within (by decide)
  · cases loses

end TrustLedger.Simulator
