import TrustLedger.Simulator.Runs

/-! What an active node can do on a message, case by case, with what it checked and what it sends.
Invariants over messages are read off this description, never off the handlers.
-/

namespace TrustLedger.Simulator

open Foundation

namespace SimNode

/-- The node has acknowledgements counted for an operation. -/
def counting (node : SimNode) (index : U64) (op : WorkloadOp) (acks : Finset U64) : SimNode :=
  { node with uncommitted := node.uncommitted.insert index (op, acks) }

/-- The node has an operation pending. -/
def pend (node : SimNode) (index : U64) (entry : Stamped) : SimNode :=
  { node with pendingCommits := node.pendingCommits.insert index entry }

/-- The node has heard of the leader of its term. -/
def hear (node : SimNode) (now : U64) : SimNode :=
  { node with lastHeartbeatTick := now }

/-- The node has one more vote. -/
def tally (node : SimNode) (voter : U64) : SimNode :=
  { node with votesReceived := insert voter node.votesReceived }

/-- The node has learnt entries in order. -/
def learnAll (node : SimNode) (entries : List (U64 × Stamped)) : SimNode :=
  entries.foldl (fun node (index, entry) => node.learn index entry) node

/-- What a node announces when a message made it apply operations: only a leader that counted
acknowledgements does.
-/
def announcements (peers : List U64) (newly : List (U64 × Stamped)) : ClusterMessage → Outbox
  | .ack _ term _ =>
      peers.flatMap fun peer =>
        newly.map fun (index, op, timestamp) => (peer, .commit term index op timestamp)
  | _ => []

/-- The node about to apply what is pending, on a message. -/
inductive Readies (node : SimNode) (quorumSize : Nat) (now : U64)
    : ClusterMessage → SimNode → Prop where
  | committed {ackFrom term index op acks} (leads : node.isLeader) (current : node.term = term)
    (found : node.uncommitted[index]? = some (op, acks))
    (quorum : quorumSize ≤ (insert ackFrom acks).card) (fresh : index ∉ node.committedOps)
    : Readies node quorumSize now (.ack ackFrom term index)
        ((node.counting index op (insert ackFrom acks)).pend index (op, commitStamp now))
  | told {term index op timestamp} (fresh : index ∉ (node.adoptTerm term).committedOps)
    : Readies node quorumSize now (.commit term index op timestamp)
        (((node.adoptTerm term).hear now).pend index (op, timestamp))
  | caughtUp {sender entries}
    : Readies node quorumSize now (.catchupResponse sender entries) (node.learnAll entries)

/-- What an active node becomes on a message, and what it sends. -/
inductive Reaction (node : SimNode) (toId : U64) (peers : List U64) (quorumSize : Nat)
    (now fromId : U64)
    : ClusterMessage → SimNode → Outbox → Prop where
  | ignored {msg} : Reaction node toId peers quorumSize now fromId msg node []
  | adopted {msg} (term : U64)
    : Reaction node toId peers quorumSize now fromId msg (node.adoptTerm term) []
  | held {term index op} (current : (node.adoptTerm term).term ≤ term)
    : Reaction node toId peers quorumSize now fromId (.propose term index op)
        (((node.adoptTerm term).hear now).counting index op ∅)
        [(fromId, .ack toId term index)]
  | counted {ackFrom term index op before} (acks : Finset U64)
    (found : node.uncommitted[index]? = some (op, before))
    : Reaction node toId peers quorumSize now fromId (.ack ackFrom term index)
        (node.counting index op acks) []
  | applied {msg mid node' newly} (readies : node.Readies quorumSize now msg mid)
    (ran : mid.applyReady = some (node', newly))
    : Reaction node toId peers quorumSize now fromId msg node' (announcements peers newly msg)
  | heard {term index op timestamp}
    : Reaction node toId peers quorumSize now fromId (.commit term index op timestamp)
        ((node.adoptTerm term).hear now) []
  | followed {term leaderId commitIndex out} (current : (node.adoptTerm term).term ≤ term)
    (asks : ∀ letter ∈ out, ∃ lastIndex, letter.2 = .catchupRequest toId lastIndex)
    : Reaction node toId peers quorumSize now fromId (.heartbeat term leaderId commitIndex)
        { (node.adoptTerm term).hear now with role := .follower, isLeader := false } out
  | voted {term candidateId lastIndex} (current : (node.adoptTerm term).term = term)
    (free : (node.adoptTerm term).votedFor = none
      ∨ (node.adoptTerm term).votedFor = some candidateId)
    (upToDate : node.commitIndex ≤ lastIndex)
    : Reaction node toId peers quorumSize now fromId (.requestVote term candidateId lastIndex)
        { (node.adoptTerm term).hear now with votedFor := some candidateId }
        [(candidateId, .voteGranted toId term)]
  | tallied {voter term} (current : node.term = term) (standing : node.role = .candidate)
    : Reaction node toId peers quorumSize now fromId (.voteGranted voter term)
        (node.tally voter) []
  | won {voter term} (current : node.term = term) (standing : node.role = .candidate)
    (quorum : quorumSize ≤ (insert voter node.votesReceived).card)
    : Reaction node toId peers quorumSize now fromId (.voteGranted voter term)
        { (node.tally voter).hear now with role := .leader, isLeader := true }
        (peers.map fun peer => (peer, .heartbeat term toId node.commitIndex))
  | shared {reqFrom lastIndex}
    : Reaction node toId peers quorumSize now fromId (.catchupRequest reqFrom lastIndex) node
        [(reqFrom, .catchupResponse toId
          (node.committedOps.toList.filter fun entry => lastIndex < entry.1))]

variable {node node' : SimNode} {toId now fromId : U64} {peers : List U64} {quorumSize : Nat}
  {out : Outbox}

/-- The description covers everything a node does. -/
theorem receive_reaction {msg : ClusterMessage}
    (ran : node.receive toId peers quorumSize now fromId msg = some (node', out))
    : node.Reaction toId peers quorumSize now fromId msg node' out := by
  cases msg with
  | propose term index op =>
      simp only [receive, onPropose] at ran
      split at ran
      · rename_i current
        cases ran
        exact .held current
      · cases ran
        exact .adopted term
  | ack ackFrom term index =>
      simp only [receive, onAck] at ran
      split at ran
      · rename_i leads
        split at ran
        · cases ran
          exact .ignored
        · rename_i op acks found
          split at ran
          · rename_i ready
            obtain ⟨⟨final, newly⟩, applied, whole⟩ := Option.bind_eq_some_iff.mp ran
            cases whole
            exact .applied (.committed leads.1 leads.2 found ready.1 (by simpa using ready.2))
              applied
          · cases ran
            exact .counted _ found
      · cases ran
        exact .ignored
  | commit term index op timestamp =>
      simp only [receive, onCommit] at ran
      split at ran
      · split at ran
        · cases ran
          exact .heard
        · rename_i fresh
          simp only [learn, if_neg fresh] at ran
          obtain ⟨⟨final, newly⟩, applied, whole⟩ := Option.map_eq_some_iff.mp ran
          cases whole
          exact .applied (.told (by simpa using fresh)) applied
      · cases ran
        exact .adopted term
  | heartbeat term leaderId commitIndex =>
      simp only [receive, onHeartbeat] at ran
      split at ran
      · rename_i current
        split at ran
        · cases ran
          exact .followed current (by simp)
        · cases ran
          exact .followed current (by simp)
      · cases ran
        exact .adopted term
  | requestVote term candidateId lastIndex =>
      have index : (node.adoptTerm term).commitIndex = node.commitIndex := by
        unfold adoptTerm
        split <;> rfl
      simp only [receive, onRequestVote] at ran
      split at ran
      · rename_i granted
        obtain ⟨current, free, upToDate⟩ := granted
        cases ran
        exact .voted current.symm free (index ▸ upToDate)
      · cases ran
        exact .adopted term
  | voteGranted voter term =>
      simp only [receive, onVoteGranted] at ran
      split at ran
      · rename_i standing
        split at ran
        · rename_i quorum
          cases ran
          exact .won standing.1 standing.2 quorum
        · cases ran
          exact .tallied standing.1 standing.2
      · cases ran
        exact .ignored
  | catchupRequest reqFrom lastIndex =>
      simp only [receive, onCatchupRequest] at ran
      split at ran
      · cases ran
        exact .ignored
      · cases ran
        exact .shared
  | catchupResponse sender entries =>
      obtain ⟨⟨final, newly⟩, applied, whole⟩ := Option.map_eq_some_iff.mp ran
      cases whole
      exact .applied .caughtUp applied

/-- A node panics only where what it is about to apply reaches past the last index. -/
theorem receive_eq_none {msg : ClusterMessage}
    (panics : node.receive toId peers quorumSize now fromId msg = none)
    : ∃ mid, node.Readies quorumSize now msg mid ∧ mid.applyReady = none := by
  cases msg with
  | ack ackFrom term index =>
      simp only [receive, onAck] at panics
      split at panics
      · rename_i leads
        split at panics
        · cases panics
        · rename_i op acks found
          split at panics
          · rename_i ready
            refine ⟨_, .committed leads.1 leads.2 found ready.1 (by simpa using ready.2), ?_⟩
            by_contra runs
            obtain ⟨result, ran⟩ := Option.ne_none_iff_exists'.mp runs
            simp only [commitQuorum, Option.bind_eq_bind] at panics
            change Option.bind (applyReady (pend (counting _ _ _ _) _ _)) _ = _ at panics
            rw [ran] at panics
            cases panics
          · cases panics
      · cases panics
  | commit term index op timestamp =>
      simp only [receive, onCommit] at panics
      split at panics
      · split at panics
        · cases panics
        · rename_i fresh
          simp only [learn, if_neg fresh] at panics
          exact ⟨_, .told (by simpa using fresh), Option.map_eq_none_iff.mp panics⟩
      · cases panics
  | catchupResponse sender entries =>
      exact ⟨_, .caughtUp, Option.map_eq_none_iff.mp panics⟩
  | _ => cases panics

section Loop

theorem applyPending_keeps {I : List (U64 × Stamped) → SimNode → Prop}
    (step : ∀ {done node next entry}, I done node → checkedAdd node.commitIndex 1 = some next
      → node.pendingCommits[next]? = some entry
      → I (done ++ [(next, entry)]) (node.applyNext next entry))
    {rounds : Nat} {node node' : SimNode} {newly : List (U64 × Stamped)}
    (holds : I [] node) (ran : applyPending rounds node = some (node', newly))
    : I newly node' := by
  -- the invariant speaks of all rounds so far, so the induction carries those before
  suffices ∀ done, I done node → I (done ++ newly) node' from this [] holds
  clear holds
  induction rounds generalizing node newly with
  | zero =>
      intro done holds
      cases ran
      simpa using holds
  | succ rounds ih =>
      intro done holds
      simp only [applyPending, Option.bind_eq_bind, Option.bind_eq_some_iff] at ran
      obtain ⟨next, counted, ran⟩ := ran
      split at ran
      · cases ran
        simpa using holds
      · rename_i entry pending
        obtain ⟨⟨final, applied⟩, later, whole⟩ := Option.bind_eq_some_iff.mp ran
        cases whole
        have reached := ih later _ (step holds counted pending)
        simpa using reached

/-- The loop does not panic while there is a next index. -/
theorem applyPending_isSome {I : SimNode → Prop}
    (step : ∀ {node next entry}, I node → checkedAdd node.commitIndex 1 = some next
      → node.pendingCommits[next]? = some entry → I (node.applyNext next entry))
    (room : ∀ {node}, I node → ∃ next, checkedAdd node.commitIndex 1 = some next)
    {rounds : Nat} {node : SimNode} (holds : I node)
    : ∃ result, applyPending rounds node = some result := by
  induction rounds generalizing node with
  | zero => exact ⟨_, rfl⟩
  | succ rounds ih =>
      obtain ⟨next, counted⟩ := room holds
      simp only [applyPending, counted, Option.bind_eq_bind, Option.bind_some]
      split
      · exact ⟨_, rfl⟩
      · rename_i entry pending
        obtain ⟨result, later⟩ := ih (step holds counted pending)
        rw [later]
        exact ⟨_, rfl⟩

end Loop

section Elections

/-- The parts of a node that elections are about. -/
def electionParts (node : SimNode) :=
  (node.id, node.status, node.term, node.role, node.isLeader, node.votedFor, node.votesReceived)

theorem electionParts_status (same : node'.electionParts = node.electionParts)
    : node'.status = node.status := by
  simp only [electionParts, Prod.mk.injEq] at same
  exact same.2.1

theorem applyNext_electionParts (node : SimNode) (next : U64) (entry : Stamped)
    : (node.applyNext next entry).electionParts = node.electionParts := by
  simp only [applyNext, applyOp]
  split <;> rfl

theorem applyReady_electionParts {newly : List (U64 × Stamped)}
    (ran : node.applyReady = some (node', newly))
    : node'.electionParts = node.electionParts :=
  applyPending_keeps (I := fun _ mid => mid.electionParts = node.electionParts)
    (fun kept _ _ => (applyNext_electionParts _ _ _).trans kept) rfl ran

theorem learnAll_electionParts (node : SimNode) (entries : List (U64 × Stamped))
    : (node.learnAll entries).electionParts = node.electionParts := by
  have one (node : SimNode) (index : U64) (entry : Stamped)
      : (node.learn index entry).electionParts = node.electionParts := by
    unfold learn
    split <;> rfl
  induction entries generalizing node with
  | nil => rfl
  | cons first rest ih => exact (ih _).trans (one node first.1 first.2)

/-- Up to a term it may have to adopt, a node about to apply operations is as it was. -/
theorem Readies.electionParts {msg : ClusterMessage} {mid : SimNode}
    (readies : node.Readies quorumSize now msg mid)
    : mid.electionParts = node.electionParts
      ∨ ∃ term, mid.electionParts = (node.adoptTerm term).electionParts := by
  cases readies with
  | committed => exact .inl rfl
  | told => exact .inr ⟨_, rfl⟩
  | caughtUp => exact .inl (learnAll_electionParts node _)

/-- The node as a follower of its term. -/
def follow (node : SimNode) : SimNode :=
  { node with role := .follower, isLeader := false }

def voteFor (node : SimNode) (candidateId : U64) : SimNode :=
  { node with votedFor := some candidateId }

/-- The node as the leader of its term. -/
def lead (node : SimNode) : SimNode :=
  { node with role := .leader, isLeader := true }

/-- No message to send asks for a vote or gives one. -/
def Silent (out : Outbox) : Prop :=
  ∀ letter ∈ out, (∀ term candidateId lastIndex, letter.2 ≠ .requestVote term candidateId lastIndex)
    ∧ ∀ voter term, letter.2 ≠ .voteGranted voter term

/-- What a message does to the parts of a node that elections are about. -/
inductive Electoral (node : SimNode) (toId : U64) (quorumSize : Nat)
    : ClusterMessage → SimNode → Outbox → Prop where
  | aside {msg node' out} (term : U64)
    (same : node'.electionParts = (node.adoptTerm term).electionParts) (silent : Silent out)
    : Electoral node toId quorumSize msg node' out
  | followed {msg node' out} (term : U64)
    (same : node'.electionParts = (node.adoptTerm term).follow.electionParts)
    (silent : Silent out)
    : Electoral node toId quorumSize msg node' out
  | voted {node' term candidateId lastIndex} (current : (node.adoptTerm term).term = term)
    (free : (node.adoptTerm term).votedFor = none
      ∨ (node.adoptTerm term).votedFor = some candidateId)
    (upToDate : node.commitIndex ≤ lastIndex)
    (same : node'.electionParts = ((node.adoptTerm term).voteFor candidateId).electionParts)
    : Electoral node toId quorumSize (.requestVote term candidateId lastIndex) node'
        [(candidateId, .voteGranted toId term)]
  | tallied {node' voter term out} (current : node.term = term) (standing : node.role = .candidate)
    (same : node'.electionParts = (node.tally voter).electionParts) (silent : Silent out)
    : Electoral node toId quorumSize (.voteGranted voter term) node' out
  | won {node' voter term out} (current : node.term = term) (standing : node.role = .candidate)
    (quorum : quorumSize ≤ (insert voter node.votesReceived).card)
    (same : node'.electionParts = (node.tally voter).lead.electionParts)
    (index : node'.commitIndex = node.commitIndex) (silent : Silent out)
    : Electoral node toId quorumSize (.voteGranted voter term) node' out

theorem adoptTerm_zero (node : SimNode) : node.adoptTerm 0 = node :=
  if_neg (Fin.not_lt_zero _)

theorem silent_announcements (newly : List (U64 × Stamped)) (msg : ClusterMessage)
    : Silent (announcements peers newly msg) := by
  intro letter listed
  cases msg with
  | ack ackFrom term index =>
      obtain ⟨peer, -, named⟩ := List.mem_flatMap.mp listed
      obtain ⟨entry, -, rfl⟩ := List.mem_map.mp named
      exact ⟨nofun, nofun⟩
  | _ => cases listed

theorem Reaction.electoral {msg : ClusterMessage}
    (reaction : node.Reaction toId peers quorumSize now fromId msg node' out)
    : node.Electoral toId quorumSize msg node' out := by
  have silent : Silent [] := nofun
  -- most messages leave the node's part in elections as it is
  have still {msg : ClusterMessage} {node' : SimNode} {out : Outbox}
      (same : node'.electionParts = node.electionParts) (silent : Silent out)
      : node.Electoral toId quorumSize msg node' out :=
    .aside 0 (by rw [adoptTerm_zero, same]) silent
  cases reaction with
  | ignored => exact still rfl silent
  | adopted term => exact .aside term rfl silent
  | @held term index op =>
      refine .aside term rfl fun letter listed => ?_
      cases List.mem_singleton.mp listed
      exact ⟨nofun, nofun⟩
  | counted => exact still rfl silent
  | applied readies ran =>
      have applied := applyReady_electionParts ran
      rcases readies.electionParts with same | ⟨term, same⟩
      · exact still (applied.trans same) (silent_announcements _ _)
      · exact .aside term (applied.trans same) (silent_announcements _ _)
  | @heard term => exact .aside term rfl silent
  | @followed term _ _ _ _ asks =>
      refine .followed term rfl fun letter listed => ?_
      obtain ⟨lastIndex, same⟩ := asks letter listed
      rw [same]
      exact ⟨nofun, nofun⟩
  | voted current free upToDate => exact .voted current free upToDate rfl
  | tallied current standing => exact .tallied current standing rfl silent
  | won current standing quorum =>
      exact .won current standing quorum rfl rfl (List.forall_mem_map.mpr fun _ _ => ⟨nofun, nofun⟩)
  | shared =>
      refine still rfl fun letter listed => ?_
      cases List.mem_singleton.mp listed
      exact ⟨nofun, nofun⟩

theorem electionParts_id (same : node'.electionParts = node.electionParts) : node'.id = node.id :=
  congrArg Prod.fst same

theorem adoptTerm_id (node : SimNode) (term : U64) : (node.adoptTerm term).id = node.id := by
  unfold adoptTerm
  split <;> rfl

theorem Electoral.id {msg : ClusterMessage}
    (electoral : node.Electoral toId quorumSize msg node' out)
    : node'.id = node.id := by
  cases electoral with
  | aside term same => exact (electionParts_id same).trans (adoptTerm_id node term)
  | followed term same => exact (electionParts_id same).trans (adoptTerm_id node term)
  | voted _ _ _ same => exact (electionParts_id same).trans (adoptTerm_id node _)
  | tallied _ _ same => exact (electionParts_id same).trans rfl
  | won _ _ _ same => exact (electionParts_id same).trans rfl

end Elections

end SimNode

end TrustLedger.Simulator
