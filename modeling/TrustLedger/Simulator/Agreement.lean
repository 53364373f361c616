import TrustLedger.Simulator.Replication

/-! Agreement of the logs. Whatever the network, the timers and the failures do, the nodes hold
the same operations with the same timestamps under the same indexes, and their journals continue
one another.
-/

namespace TrustLedger.Simulator

open Foundation LedgerCore

namespace SimCluster

/-- The nodes agree on what they have committed. -/
structure Agrees (c : SimCluster) : Prop where
  keys
    : ∀ (id : U64) (node : SimNode), c.nodes[id]? = some node
      → ∀ index, index ∈ node.committedOps ↔ 1 ≤ index ∧ index ≤ node.commitIndex
  entries
    : ∀ (a b : U64) (nodeA nodeB : SimNode), c.nodes[a]? = some nodeA → c.nodes[b]? = some nodeB
      → ∀ (index : U64) (entryA entryB : Stamped), nodeA.committedOps[index]? = some entryA
      → nodeB.committedOps[index]? = some entryB → entryA = entryB
  journals
    : ∀ (a b : U64) (nodeA nodeB : SimNode), c.nodes[a]? = some nodeA → c.nodes[b]? = some nodeB
      → (nodeA.ledger.journal <+: nodeB.ledger.journal
          ∨ nodeB.ledger.journal <+: nodeA.ledger.journal)
        ∧ Oracle.assertLogAgreement a nodeA.ledger.journal b nodeB.ledger.journal = .ok ()

variable {base : Ledger} {w : World} {todo : List Packet} {c : SimCluster}

theorem Coupled.agrees (coupled : c.Coupled base w todo) : c.Agrees where
  keys id node found _ := (coupled.holds id node found).durable.mem_committedOps
  entries a b nodeA nodeB foundA foundB index entryA entryB heldA heldB := by
    have left := (coupled.holds a nodeA foundA).durable.applied
    have right := (coupled.holds b nodeB foundB).durable.applied
    rw [left.committed] at heldA
    rw [right.committed] at heldB
    exact coupled.consistent.agree heldA heldB
  journals a b nodeA nodeB foundA foundB := by
    have left := (coupled.holds a nodeA foundA).durable.applied.ledger
    have right := (coupled.holds b nodeB foundB).durable.applied.ledger
    have journals : nodeA.ledger.journal <+: nodeB.ledger.journal
        ∨ nodeB.ledger.journal <+: nodeA.ledger.journal := by
      rw [left, right]
      rcases coupled.consistent.comparable a b with ⟨more, longer⟩ | ⟨more, longer⟩
      · rw [← longer, replay_append]
        exact .inl (journal_isPrefix_replay _ more)
      · rw [← longer, replay_append]
        exact .inr (journal_isPrefix_replay _ more)
    exact ⟨journals, (Oracle.assertLogAgreement_eq_ok a b).mpr journals⟩

/-- What holds of a run with few proposals so far. -/
structure Replicated (netConfig : NetworkConfig) (base : Ledger) (made : List Transition)
    (todo : List Packet) (c : SimCluster)
    : Prop where
  config : c.network.config = netConfig
  proposed : c.nextLogIndex.val ≤ proposals made
  coupled : ∃ w, c.Coupled base w todo

theorem Coupled.drain (coupled : c.Coupled base w []) (now : U64)
    : (c.drain now).2.Coupled base w (c.drain now).1 where
  threeNodes := coupled.threeNodes.congr rfl
  consistent := coupled.consistent
  holds := coupled.holds
  owned := coupled.owned
  flight := (SimNetwork.drainReady_carries c.network now fun _ => False).forall coupled.flight nofun
  todo packet ready := by
    obtain ⟨event, queued, rfl⟩ := SimNetwork.mem_drainReady ready
    exact coupled.flight event queued

theorem replicated_preserved (netConfig : NetworkConfig) (base : Ledger)
    : Preserved (netConfig.maxLatencyTicks < netConfig.minLatencyTicks)
        (fun made _ move => proposals made + move.proposes < 2 ^ 64 - 1)
        (Replicated netConfig base) where
  drain now known := by
    obtain ⟨config, proposed, w, coupled⟩ := known
    exact ⟨config, proposed, w, coupled.drain now⟩
  move {made todo c} move known few := by
    obtain ⟨config, proposed, w, coupled⟩ := known
    have ends := coupled.move (by omega)
    unfold NoLatency at ends
    rw [config] at ends
    refine ends.mono fun c' reached => ⟨reached.config.trans config, ?_, ?_⟩
    · rw [proposals_append, proposals_singleton]
      exact Nat.le_trans reached.proposed (Nat.add_le_add_right proposed _)
    · obtain ⟨w', -, there⟩ := reached.coupled
      exact ⟨w', there⟩

theorem coupled_new3Node (netConfig : NetworkConfig) (accountIds : List U128) (balance : U128)
    : (new3Node netConfig accountIds balance).Coupled (startLedger accountIds balance)
        ⟨fun _ => none, fun _ => [], fun _ _ => none⟩ [] where
  threeNodes := threeNodes_new3Node netConfig accountIds balance
  consistent := by
    refine ⟨fun {k i e} held => ?_, nofun, nofun⟩
    rw [SimNode.slot_nil] at held
    cases held
  holds id node found := by
    refine ⟨replicas_new3Node netConfig accountIds balance id node found, fun index => ?_⟩
    rw [(of_getElem?_new3Node netConfig accountIds balance found).2]
    simp [SimNode.new, SimNode.reinitBaseState]
  owned := nofun
  flight := nofun
  todo := nofun

/-- In every run with fewer than 2^64 - 1 proposals the nodes agree at all times, and the run
panics only if no latency can be drawn.
-/
theorem cluster_agrees (netConfig : NetworkConfig) (accountIds : List U128) (balance : U128)
    (draws : List U64) (calls : List Call) (few : calls.countP Call.isProposal < 2 ^ 64 - 1)
    : (∀ c ∈ states (new3Node netConfig accountIds balance) draws calls, c.Agrees)
      ∧ ∀ transition ∈ trace (new3Node netConfig accountIds balance) draws calls,
        transition.after = none → netConfig.maxLatencyTicks < netConfig.minLatencyTicks := by
  have start : Replicated netConfig (startLedger accountIds balance) [] []
      (new3Node netConfig accountIds balance) :=
    ⟨rfl, Nat.le_refl _, _, coupled_new3Node netConfig accountIds balance⟩
  obtain ⟨known, panics⟩ := (replicated_preserved netConfig _).states start (few_proposals few)
  refine ⟨fun c visited => ?_, panics⟩
  obtain ⟨made, todo, -, replicated⟩ := known c visited
  obtain ⟨w, coupled⟩ := replicated.coupled
  exact coupled.agrees

/-- A transfer proposed, acknowledged, applied by the leader and, after a crash of node 3 with a
torn write, by all nodes.
-/
def crashAndCatchUp : List Call :=
  [.propose (.directTransfer 7 1 2 30) 0, .step 1, .step 2, .crashNode 3 true, .step 3,
    .rebootNode 3 4, .step 5, .step 6]

theorem crashAndCatchUp_agrees
    : crashAndCatchUp.countP Call.isProposal < 2 ^ 64 - 1
      ∧ ∀ c ∈ states (new3Node {} [1, 2] 100) [] crashAndCatchUp, c.Agrees :=
  ⟨by decide, (cluster_agrees {} [1, 2] 100 [] crashAndCatchUp (by decide)).1⟩

end SimCluster

end TrustLedger.Simulator
