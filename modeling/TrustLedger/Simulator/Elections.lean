import TrustLedger.Foundation.Ballots
import TrustLedger.Simulator.Replicas

/-! Elections in the terms of ballots. A node that never forgets its vote votes once in a term, so
a term has one leader. A crash keeps the term and loses the vote; a node rebooted in the term it
voted in can vote again, and then a term can have two leaders.
-/

namespace TrustLedger.Simulator

open Foundation LedgerCore

/-- The abstract election: nodes are voters and candidates. -/
abbrev Polls := Ballots.State U64

/-- What a node does to the abstract election in its turn. -/
abbrev Polled (id : U64) : Polls → Polls → Prop :=
  Path Ballots.State.Step fun _ action => action.voter = id

open SimCluster (members)

/-- What a packet says is so: votes are asked for in later terms than the first, and a granted
vote is a ballot cast.
-/
def Earnest (w : Polls) (packet : Packet) : Prop :=
  match packet.payload with
  | .requestVote term _ _ => 2 ≤ term.val
  | .voteGranted voter term => voter ∈ members ∧ w.ballots voter term.val packet.toId
  | _ => True

/-- A later election has the ballots of an earlier one. -/
def Kept (w w' : Polls) : Prop :=
  ∀ {voter term candidate}, w.ballots voter term candidate → w'.ballots voter term candidate

variable {id : U64} {w w' : Polls}

theorem Polled.kept (polled : Polled id w w') : Kept w w' :=
  Ballots.State.path_ballots polled

theorem Earnest.kept {packet : Packet} (earnest : Earnest w packet) (kept : Kept w w')
    : Earnest w' packet := by
  obtain ⟨fromId, toId, payload⟩ := packet
  cases payload with
  | voteGranted => exact ⟨earnest.1, kept earnest.2⟩
  | requestVote => exact earnest
  | _ => trivial

theorem elected_kept {term : Nat} {candidate : U64} (kept : Kept w w')
    (elected : w.Elected members term candidate)
    : w'.Elected members term candidate := by
  obtain ⟨majority, within, enough, voted⟩ := elected
  exact ⟨majority, within, enough, fun v member => kept (voted v member)⟩

theorem earnest_of_silent {out : Outbox} (silent : SimNode.Silent out)
    : ∀ letter ∈ out, Earnest w ⟨id, letter.1, letter.2⟩ := by
  intro letter listed
  obtain ⟨noRequest, noVote⟩ := silent letter listed
  unfold Earnest
  split
  · exact absurd ‹_› (noRequest _ _ _)
  · exact absurd ‹_› (noVote _ _)
  · trivial

namespace SimNode

/-- A node is a voter: its term is that of the election, its vote too while it is up, and the
votes and the leadership it claims are backed by ballots. A vote it lost in a crash was seen
before.
-/
structure Enrolled (seen : List SimCluster) (w : Polls) (id : U64) (node : SimNode) : Prop where
  term : w.term id = node.term.val
  started : 1 ≤ node.term.val
  vote : node.status = .active → 2 ≤ node.term.val → w.vote id = node.votedFor
  remembered
    : node.status = .crashed → 2 ≤ node.term.val → w.vote id ≠ none
      → ∃ c ∈ seen, ∃ old ∈ c.nodes[id]?, old.term = node.term ∧ old.votedFor ≠ none
  votes
    : node.role = .candidate
      → node.votesReceived ⊆ members ∧ ∀ v ∈ node.votesReceived, w.ballots v node.term.val id
  leads : node.isLeader → w.Elected members node.term.val id

variable {seen : List SimCluster} {w : Polls} {id fromId : U64} {node node' : SimNode}
  {quorumSize : Nat} {out : Outbox}

variable (enrolled : node.Enrolled seen w id)

include enrolled

theorem Enrolled.congr (same : node'.electionParts = node.electionParts)
    : node'.Enrolled seen w id := by
  simp only [electionParts, Prod.mk.injEq] at same
  obtain ⟨-, status, term, role, leads, votedFor, votes⟩ := same
  constructor
  · rw [term]
    exact enrolled.term
  · rw [term]
    exact enrolled.started
  · rw [status, term, votedFor]
    exact enrolled.vote
  · rw [status, term]
    exact enrolled.remembered
  · rw [role, term, votes]
    exact enrolled.votes
  · rw [leads, term]
    exact enrolled.leads

theorem Enrolled.frame {w' : Polls} {other : U64}
    (polled : Polled other w w') (differs : id ≠ other)
    : node.Enrolled seen w' id := by
  obtain ⟨term, vote⟩ := Ballots.State.path_frame polled differs
  refine ⟨term.trans enrolled.term, enrolled.started, ?_, ?_, fun standing => ?_, fun leads => ?_⟩
  · rw [vote]
    exact enrolled.vote
  · rw [vote]
    exact enrolled.remembered
  · obtain ⟨within, voted⟩ := enrolled.votes standing
    exact ⟨within, fun v member => polled.kept (voted v member)⟩
  · exact elected_kept polled.kept (enrolled.leads leads)

theorem Enrolled.follow : node.follow.Enrolled seen w id :=
  ⟨enrolled.term, enrolled.started, enrolled.vote, enrolled.remembered, nofun, nofun⟩

theorem Enrolled.adoptTerm (active : node.status = .active) (term : U64)
    : ∃ w', Polled id w w' ∧ (node.adoptTerm term).Enrolled seen w' id := by
  unfold SimNode.adoptTerm
  split
  · rename_i later
    have advances : w.term id < term.val := by
      rw [enrolled.term]
      exact later
    refine ⟨w.enter id term.val, .single (.advance advances) rfl, ?_⟩
    have started := enrolled.started
    refine ⟨by simp [Ballots.State.enter], ?_, fun _ _ => by simp [Ballots.State.enter], ?_, nofun,
      nofun⟩
    · exact Nat.le_trans started (Nat.le_of_lt later)
    · intro crashed
      rw [active] at crashed
      cases crashed
  · exact ⟨w, .refl, enrolled⟩

theorem Enrolled.voteFor (active : node.status = .active) (later : 2 ≤ node.term.val)
    (candidateId : U64) (free : node.votedFor = none ∨ node.votedFor = some candidateId)
    : Polled id w (w.cast id candidateId)
      ∧ (node.voteFor candidateId).Enrolled seen (w.cast id candidateId) id
      ∧ (w.cast id candidateId).ballots id node.term.val candidateId := by
  have votes := enrolled.vote active later
  have polled : Polled id w (w.cast id candidateId) :=
    .single (.vote (votes ▸ free)) rfl
  refine ⟨polled, ⟨enrolled.term, enrolled.started, ?_, ?_, ?_, ?_⟩, .inr ⟨rfl, ?_, rfl⟩⟩
  · intro _ _
    simp [Ballots.State.cast, SimNode.voteFor]
  · intro crashed
    rw [SimNode.voteFor, active] at crashed
    cases crashed
  · intro standing
    obtain ⟨within, voted⟩ := enrolled.votes standing
    exact ⟨within, fun v member => .inl (voted v member)⟩
  · exact fun leads => elected_kept polled.kept (enrolled.leads leads)
  · exact enrolled.term.symm

theorem Enrolled.tally (standing : node.role = .candidate) {voter term : U64}
    (current : node.term = term) (earnest : Earnest w ⟨fromId, id, .voteGranted voter term⟩)
    : insert voter node.votesReceived ⊆ members
      ∧ ∀ v ∈ insert voter node.votesReceived, w.ballots v node.term.val id := by
  obtain ⟨within, voted⟩ := enrolled.votes standing
  refine ⟨Finset.insert_subset earnest.1 within, fun v joined => ?_⟩
  rcases Finset.mem_insert.mp joined with rfl | before
  · rw [current]
    exact earnest.2
  · exact voted v before

/-- Whatever a node receives, it acts within the abstract election and tells the truth. -/
theorem Enrolled.electoral (active : node.status = .active)
    {msg : ClusterMessage} (electoral : node.Electoral id quorumSize msg node' out)
    (quorums : quorumSize = members.card / 2 + 1) (member : id ∈ members)
    (earnest : Earnest w ⟨fromId, id, msg⟩)
    : ∃ w', Polled id w w' ∧ node'.Enrolled seen w' id
        ∧ ∀ letter ∈ out, Earnest w' ⟨id, letter.1, letter.2⟩ := by
  cases electoral with
  | aside term same silent =>
      obtain ⟨w', polled, adopted⟩ := enrolled.adoptTerm active term
      exact ⟨w', polled, adopted.congr same, earnest_of_silent silent⟩
  | followed term same silent =>
      obtain ⟨w', polled, adopted⟩ := enrolled.adoptTerm active term
      exact ⟨w', polled, adopted.follow.congr same, earnest_of_silent silent⟩
  | @voted _ term candidateId lastIndex current free _ same =>
      obtain ⟨mid, polled, adopted⟩ := enrolled.adoptTerm active term
      have later : 2 ≤ (node.adoptTerm term).term.val := by
        rw [current]
        exact earnest
      obtain ⟨votes, voted, ballot⟩ :=
        adopted.voteFor ((adoptTerm_status node term).trans active) later candidateId free
      refine ⟨_, polled.trans votes, voted.congr same, fun letter listed => ?_⟩
      cases List.mem_singleton.mp listed
      rw [current] at ballot
      exact ⟨member, ballot⟩
  | tallied current standing same silent =>
      refine ⟨w, .refl, Enrolled.congr ?_ same, earnest_of_silent silent⟩
      refine ⟨enrolled.term, enrolled.started, enrolled.vote, enrolled.remembered, fun _ => ?_,
        enrolled.leads⟩
      exact enrolled.tally standing current earnest
  | @won _ voter _ _ current standing quorum same index silent =>
      obtain ⟨within, voted⟩ := enrolled.tally standing current earnest
      refine ⟨w, .refl, Enrolled.congr ?_ same, earnest_of_silent silent⟩
      refine ⟨enrolled.term, enrolled.started, enrolled.vote, enrolled.remembered, nofun,
        fun _ => ?_⟩
      exact ⟨insert voter node.votesReceived, within, quorums ▸ quorum, voted⟩

/-- A node that stands for election enters the next term and votes for itself. -/
theorem Enrolled.startElection (active : node.status = .active) (room : node.term.val < 2 ^ 64 - 1)
    (member : id ∈ members) (peers : List U64) (now timeout : U64)
    : ∃ w', Polled id w w'
        ∧ (node.startElection id peers now timeout).1.Enrolled seen w' id
        ∧ ∀ letter ∈ (node.startElection id peers now timeout).2,
          Earnest w' ⟨id, letter.1, letter.2⟩ := by
  have next : (saturatingAdd node.term 1).val = node.term.val + 1 := by
    rw [saturatingAdd_val]
    exact Nat.min_eq_left (Nat.succ_le_of_lt room)
  have later : node.term < saturatingAdd node.term 1 := by
    rw [Fin.lt_def, next]
    omega
  -- entering the term is what a message of that term would do
  obtain ⟨mid, polled, adopted⟩ := enrolled.adoptTerm active (saturatingAdd node.term 1)
  have entered : node.adoptTerm (saturatingAdd node.term 1)
      = { node with
          term := saturatingAdd node.term 1, role := .follower, isLeader := false
          votedFor := none } :=
    if_pos later
  rw [entered] at adopted
  have two : 2 ≤ (saturatingAdd node.term 1).val := by
    have started := enrolled.started
    omega
  obtain ⟨votes, voted, ballot⟩ := adopted.voteFor active two id (.inl rfl)
  refine ⟨_, polled.trans votes, ?_, fun letter listed => ?_⟩
  · refine ⟨voted.term, voted.started, voted.vote, voted.remembered, fun _ => ⟨?_, ?_⟩, nofun⟩
    · exact Finset.singleton_subset_iff.mpr member
    · intro v own
      rw [Finset.mem_singleton.mp own]
      exact ballot
  · obtain ⟨peer, -, rfl⟩ := List.mem_map.mp listed
    exact two

/-- A node that goes down or comes up again without its vote stays enrolled, if the vote was seen
before it went down, or there was none when it comes up.
-/
theorem Enrolled.down (down : node.Down node')
    (vote : node'.status = .active → 2 ≤ node.term.val → w.vote id = none) (remembered
      : node'.status = .crashed → 2 ≤ node.term.val → w.vote id ≠ none
        → ∃ c ∈ seen, ∃ old ∈ c.nodes[id]?, old.term = node.term ∧ old.votedFor ≠ none)
    : node'.Enrolled seen w id := by
  constructor
  · rw [down.term]
    exact enrolled.term
  · rw [down.term]
    exact enrolled.started
  · rw [down.term, down.votedFor]
    exact vote
  · rw [down.term]
    exact remembered
  · rw [down.role]
    nofun
  · rw [down.isLeader]
    nofun

end SimNode

namespace SimCluster

/-- No node is in the last term. -/
def TermsLeft (c : SimCluster) : Prop :=
  ∀ id ∈ members, ∀ node ∈ c.nodes[id]?, node.term.val < 2 ^ 64 - 1

instance decidableTermsLeft (c : SimCluster) : Decidable c.TermsLeft :=
  Finset.decidableDforallFinset

/-- A node is rebooted only in a term it has not voted in. In the first term nobody is asked. -/
def RemembersVotes (seen : List SimCluster) (c : SimCluster) : Move → Prop
  | .rebootNode nodeId _ =>
      ∀ node ∈ c.nodes[nodeId]?, 2 ≤ node.term.val
        → ∀ earlier ∈ seen, ∀ old ∈ earlier.nodes[nodeId]?, old.term = node.term
          → old.votedFor = none
  | _ => True

instance decidableRemembersVotes (seen : List SimCluster) (c : SimCluster) (move : Move)
    : Decidable (RemembersVotes seen c move) := by
  unfold RemembersVotes
  split <;> infer_instance

/-- The cluster is an implementation of the abstract election. -/
structure Balloting (seen : List SimCluster) (w : Polls) (todo : List Packet) (c : SimCluster)
    : Prop where
  honest : w.Honest
  enrolled : ∀ (id : U64) (node : SimNode), c.nodes[id]? = some node → node.Enrolled seen w id
  flight : ∀ event ∈ c.network.queue, Earnest w event.payload
  todo : ∀ packet ∈ todo, Earnest w packet

variable {seen : List SimCluster} {w w' : Polls} {todo : List Packet} {c start : SimCluster}
  {id : U64} {node node' : SimNode} {network : SimNetwork ClusterMessage} {out : Outbox}
  {move : Move} {base : Ledger}

theorem Balloting.withNode (balloting : c.Balloting seen w todo) (polled : Polled id w w')
    (enrolled : node'.Enrolled seen w' id)
    (earnest : ∀ letter ∈ out, Earnest w' ⟨id, letter.1, letter.2⟩)
    (carries : c.network.Carries (Sent id out) network)
    : (c.withNode id node' network).Balloting seen w' todo where
  honest := polled.invariant (fun known step _ => step.honest known) balloting.honest
  enrolled := forall_withNode enrolled fun other old differs there =>
    (balloting.enrolled other old there).frame polled differs
  flight := by
    refine carries.forall (fun event queued => (balloting.flight event queued).kept polled.kept) ?_
    intro packet sent
    obtain ⟨fromId, toId, payload⟩ := packet
    obtain ⟨rfl, listed⟩ := sent
    exact earnest _ listed
  todo packet listed := (balloting.todo packet listed).kept polled.kept

/-- Every turn of a move that forgets no vote is a sequence of steps of the abstract election. -/
theorem Balloting.turn (balloting : c.Balloting seen w todo) (three : c.ThreeNodes)
    (found : c.nodes[id]? = some node) (original : start.nodes[id]? = some node)
    (visited : start ∈ seen) (terms : start.TermsLeft) (remembers : RemembersVotes seen start move)
    (turn : Turn move c id node node' out) (given : ∀ packet ∈ move.brings, Earnest w packet)
    (carries : c.network.Carries (Sent id out) network)
    : ∃ w', Polled id w w' ∧ (c.withNode id node' network).Balloting seen w' todo := by
  have enrolled := balloting.enrolled id node found
  have member : id ∈ members := (three.present id).mp ⟨node, found⟩
  have idle (still : node'.Enrolled seen w id)
      (earnest : ∀ letter ∈ out, Earnest w ⟨id, letter.1, letter.2⟩)
      : ∃ w', Polled id w w' ∧ (c.withNode id node' network).Balloting seen w' todo :=
    ⟨w, .refl, balloting.withNode .refl still earnest carries⟩
  cases turn with
  | @reacts packet now _ _ delivers here active ran =>
      subst delivers here
      obtain ⟨w', polled, enrolled', earnest⟩ := enrolled.electoral active
        (SimNode.receive_reaction ran).electoral three.quorumSize member
        (given packet List.mem_cons_self)
      exact ⟨w', polled, balloting.withNode polled enrolled' earnest carries⟩
  | waits => exact idle enrolled nofun
  | beats =>
      exact idle (enrolled.congr rfl) (List.forall_mem_map.mpr fun _ _ => trivial)
  | stands _ active =>
      obtain ⟨w', polled, enrolled', earnest⟩ :=
        enrolled.startElection active (terms id member node original) member _ _ _
      exact ⟨w', polled, balloting.withNode polled enrolled' earnest carries⟩
  | crashes _ down status =>
      refine idle (enrolled.down down (fun up => ?_) fun _ later voted => ?_) nofun
      · rw [status] at up
        cases up
      · cases state : node.status with
        | active =>
            rw [enrolled.vote state later] at voted
            exact ⟨start, visited, node, original, rfl, voted⟩
        | crashed => exact enrolled.remembered state later voted
  | reboots moves down status =>
      subst moves
      refine idle (enrolled.down down (fun _ later => ?_) fun crashed => ?_) fun letter listed => ?_
      · by_contra voted
        cases state : node.status with
        | active =>
            rw [enrolled.vote state later] at voted
            exact voted (remembers node original later start visited node original rfl)
        | crashed =>
            obtain ⟨earlier, before, old, there, term, cast⟩ :=
              enrolled.remembered state later voted
            exact cast (remembers node original later earlier before old there term)
      · rw [status] at crashed
        cases crashed
      · obtain ⟨peer, -, rfl⟩ := List.mem_map.mp listed
        trivial

/-- What a move leads to: the three nodes with their logs, and an election with more ballots. -/
structure Voted (base : Ledger) (seen : List SimCluster) (w : Polls) (todo : List Packet)
    (c : SimCluster)
    : Prop where
  grown : c.Grown base fun _ => []
  balloting : ∃ w', Kept w w' ∧ c.Balloting seen w' todo

theorem voting_rule (balloting : start.Balloting seen w (move.brings ++ todo))
    (grown : start.Grown base fun _ => []) (visited : start ∈ seen) (terms : start.TermsLeft)
    (remembers : RemembersVotes seen start move)
    : MoveRule True start move (Voted base seen w todo) where
  threeNodes voted := voted.grown.threeNodes
  durable voted found := voted.grown.durable found
  latency _ _ := trivial
  panics _ _ _ _ := trivial
  rewired {c network} voted carries := by
    obtain ⟨w', kept, there⟩ := voted.balloting
    refine ⟨voted.grown.rewired network, w', kept, there.honest, there.enrolled, ?_, there.todo⟩
    refine carries.forall there.flight fun packet ⟨fromId, lastIndex, asks⟩ => ?_
    unfold Earnest
    rw [asks]
    trivial
  proposed {op now leaderId network leader} _ found _ carries := by
    refine ⟨grown.counting found _ _ _, w, fun cast => cast, balloting.honest, ?_, ?_, ?_⟩
    · exact forall_withNode ((balloting.enrolled leaderId leader found).congr rfl)
        fun other old _ there => balloting.enrolled other old there
    · refine carries.forall balloting.flight fun packet ⟨_, listed⟩ => ?_
      obtain ⟨peer, -, same⟩ := List.mem_map.mp listed
      unfold Earnest
      rw [← (Prod.mk.inj same).2]
      trivial
    · exact fun packet listed => balloting.todo packet (List.mem_append_right _ listed)
  turn {c id node node' out network} voted found original turn carries := by
    obtain ⟨w', kept, there⟩ := voted.balloting
    have given : ∀ packet ∈ move.brings, Earnest w' packet := fun packet brought =>
      (balloting.todo packet (List.mem_append_left _ brought)).kept kept
    obtain ⟨final, polled, done⟩ := there.turn voted.grown.threeNodes found original visited terms
      remembers turn given carries
    exact ⟨voted.grown.turn found turn, final, fun cast => polled.kept (kept cast), done⟩

/-- What holds of a run that forgets no vote so far: whoever led in it was elected. -/
structure Campaign (base : Ledger) (start : SimCluster) (made : List Transition)
    (todo : List Packet) (c : SimCluster)
    : Prop where
  grown : c.Grown base fun _ => []
  polls
    : ∃ w, c.Balloting (made.map Transition.before) w todo
      ∧ ∀ earlier ∈ history start made, ∀ (id : U64) (node : SimNode),
        earlier.nodes[id]? = some node → node.isLeader
        → Ballots.State.Elected members w node.term.val id

theorem Balloting.seen_mono {more : List SimCluster} (balloting : c.Balloting seen w todo)
    (wider : ∀ earlier ∈ seen, earlier ∈ more)
    : c.Balloting more w todo := by
  refine ⟨balloting.honest, fun id node found => ?_, balloting.flight, balloting.todo⟩
  obtain ⟨term, started, vote, remembered, votes, leads⟩ := balloting.enrolled id node found
  refine ⟨term, started, vote, fun crashed later voted => ?_, votes, leads⟩
  obtain ⟨earlier, listed, rest⟩ := remembered crashed later voted
  exact ⟨earlier, wider earlier listed, rest⟩

theorem campaign_preserved (base : Ledger) (start : SimCluster)
    : Preserved True
        (fun made c move => c.TermsLeft
          ∧ RemembersVotes (made.map Transition.before ++ [c]) c move)
        (Campaign base start) where
  drain {made c} now known := by
    obtain ⟨grown, w, balloting, leaders⟩ := known
    refine ⟨grown.rewired _, w, ⟨balloting.honest, balloting.enrolled, ?_, ?_⟩, leaders⟩
    · exact (SimNetwork.drainReady_carries c.network now fun _ => False).forall balloting.flight
        nofun
    · intro packet ready
      obtain ⟨event, queued, rfl⟩ := SimNetwork.mem_drainReady ready
      exact balloting.flight event queued
  move {made todo c} move known guard := by
    obtain ⟨grown, w, balloting, leaders⟩ := known
    obtain ⟨terms, remembers⟩ := guard
    have wider := balloting.seen_mono fun _ listed => List.mem_append_left [c] listed
    have rule := voting_rule wider grown (List.mem_append_right _ List.mem_cons_self) terms
      remembers
    refine (rule.ends ⟨grown, w, fun cast => cast, wider.honest, wider.enrolled, wider.flight,
      fun packet listed => wider.todo packet (List.mem_append_right _ listed)⟩).mono ?_
    intro c' voted
    obtain ⟨grown', w', kept, there⟩ := voted
    refine ⟨grown', w', by simpa using there, fun earlier visited id node found leads => ?_⟩
    rcases mem_history_append.mp visited with before | rfl | reached
    · exact elected_kept kept (leaders earlier before id node found leads)
    · exact elected_kept kept ((balloting.enrolled id node found).leads leads)
    · cases reached
      exact (there.enrolled id node found).leads leads

/-- The first term: everybody is taken to have voted for node 1. -/
def firstPolls : Polls :=
  ⟨fun _ => 1, fun _ => some 1, fun _ term candidate => term = 1 ∧ candidate = 1⟩

theorem firstPolls_elected : firstPolls.Elected members 1 1 :=
  ⟨members, fun _ member => member, by decide, fun _ _ => ⟨rfl, rfl⟩⟩

theorem campaign_new3Node (netConfig : NetworkConfig) (accountIds : List U128) (balance : U128)
    : Campaign (startLedger accountIds balance) (new3Node netConfig accountIds balance) [] []
        (new3Node netConfig accountIds balance) := by
  have leads {id : U64} {node : SimNode}
      (found : (new3Node netConfig accountIds balance).nodes[id]? = some node)
      (leader : node.isLeader)
      : firstPolls.Elected members node.term.val id := by
    obtain ⟨-, rfl⟩ := of_getElem?_new3Node netConfig accountIds balance found
    have first : id = 1 := of_decide_eq_true leader
    subst first
    exact firstPolls_elected
  refine ⟨(replicas_new3Node netConfig accountIds balance).grown
    (threeNodes_new3Node netConfig accountIds balance), firstPolls, ⟨?_, ?_, nofun, nofun⟩, ?_⟩
  · refine ⟨fun cast => le_of_eq cast.1, fun cast => ?_, fun left right => ?_⟩
    · rw [cast.2]
      rfl
    · rw [left.2, right.2]
  · intro id node found
    have leads := leads found
    obtain ⟨-, rfl⟩ := of_getElem?_new3Node netConfig accountIds balance found
    refine ⟨rfl, Nat.le_refl _, fun _ later => absurd later (Nat.not_succ_le_self 1), nofun, ?_,
      leads⟩
    intro standing
    by_cases first : id = 1 <;>
      simp [SimNode.new, SimNode.reinitBaseState, first] at standing
  · intro earlier visited id node found leader
    cases List.mem_singleton.mp visited
    exact leads found leader

/-- One election covers all that a run goes through: whoever leads in it was elected. -/
theorem Campaign.elected {start : SimCluster} {transitions : List Transition}
    (initial : Campaign base start [] [] start)
    (known : Along (Known True (Campaign base start)) [] transitions)
    : ∃ w : Polls, w.Honest ∧ ∀ c ∈ history start transitions, ∀ (id : U64) (node : SimNode),
        c.nodes[id]? = some node → node.isLeader
        → Ballots.State.Elected members w node.term.val id := by
  rcases List.eq_nil_or_concat transitions with rfl | ⟨past, last, rfl⟩
  · obtain ⟨-, w, balloting, leaders⟩ := initial
    exact ⟨w, balloting.honest, leaders⟩
  · rw [List.concat_eq_append] at known ⊢
    obtain ⟨⟨_, before⟩, after, -⟩ := known past last [] rfl
    cases reached : last.after with
    | some c' =>
        -- the election after the last move has all ballots
        obtain ⟨_, -, w, balloting, leaders⟩ := after c' reached
        exact ⟨w, balloting.honest, leaders⟩
    | none =>
        obtain ⟨-, w, balloting, leaders⟩ := before
        refine ⟨w, balloting.honest, fun c visited id node found leads => ?_⟩
        rcases mem_history_append.mp visited with earlier | rfl | returned
        · exact leaders c earlier id node found leads
        · exact (balloting.enrolled id node found).leads leads
        · rw [reached] at returned
          cases returned

/-- In every run in which no node reaches the last term and no node is rebooted in a term it has
voted in, two nodes that ever lead in the same term are the same.
-/
theorem one_leader_per_term (netConfig : NetworkConfig) (accountIds : List U128) (balance : U128)
    (draws : List U64) (calls : List Call) (safe : Along
      (fun past transition => transition.before.TermsLeft
        ∧ RemembersVotes (past.map Transition.before ++ [transition.before]) transition.before
            transition.move)
      [] (trace (new3Node netConfig accountIds balance) draws calls))
    : ∀ c ∈ states (new3Node netConfig accountIds balance) draws calls,
      ∀ c' ∈ states (new3Node netConfig accountIds balance) draws calls,
      ∀ (a b : U64) (nodeA nodeB : SimNode), c.nodes[a]? = some nodeA → c'.nodes[b]? = some nodeB
        → nodeA.isLeader → nodeB.isLeader → nodeA.term = nodeB.term → a = b := by
  have initial := campaign_new3Node netConfig accountIds balance
  obtain ⟨w, honest, elected⟩ := initial.elected ((campaign_preserved _ _).trace initial safe)
  intro c visited c' visited' a b nodeA nodeB foundA foundB leadsA leadsB same
  have left := elected c visited a nodeA foundA leadsA
  have right := elected c' visited' b nodeB foundB leadsB
  rw [same] at left
  exact left.unique honest right

/-- Node 2 is elected while node 1 is cut off from it; node 1 goes down, comes up again still in
its first term, and is elected after node 2.
-/
def orderlyElections : List Call :=
  [.partition {1} {2}, .triggerElection 2 0, .step 1, .step 2, .crashNode 1 true, .rebootNode 1 3,
    .heal, .triggerElection 1 3, .step 4, .step 5, .triggerElection 1 5, .step 6, .step 7]

theorem orderlyElections_one_leader_per_term
    : (∃ c ∈ states (new3Node {} [] 0) [] orderlyElections, ∃ node ∈ c.nodes[(2 : U64)]?,
        node.isLeader = true ∧ node.term = 2)
      ∧ (∃ c ∈ states (new3Node {} [] 0) [] orderlyElections, ∃ node ∈ c.nodes[(1 : U64)]?,
        node.isLeader = true ∧ node.term = 3)
      ∧ ∀ c ∈ states (new3Node {} [] 0) [] orderlyElections,
        ∀ c' ∈ states (new3Node {} [] 0) [] orderlyElections,
        ∀ (a b : U64) (nodeA nodeB : SimNode), c.nodes[a]? = some nodeA → c'.nodes[b]? = some nodeB
          → nodeA.isLeader → nodeB.isLeader → nodeA.term = nodeB.term → a = b :=
  ⟨by decide +kernel, by decide +kernel,
    one_leader_per_term {} [] 0 [] orderlyElections (by decide +kernel)⟩

/-- Node 3 votes for node 2, reboots and votes for node 1, which the first election had not
reached.
-/
def forgottenVote : List Call :=
  [.partition {1} {2}, .triggerElection 2 0, .step 1, .step 2, .crashNode 3 false,
    .rebootNode 3 2, .triggerElection 1 2, .step 3, .step 4]

theorem forgottenVote_two_leaders
    : ∃ c ∈ states (new3Node {} [] 0) [] forgottenVote,
        ∃ nodeA ∈ c.nodes[(1 : U64)]?, ∃ nodeB ∈ c.nodes[(2 : U64)]?,
          nodeA.isLeader = true ∧ nodeB.isLeader = true ∧ nodeA.term = nodeB.term := by
  decide +kernel

end SimCluster

end TrustLedger.Simulator
