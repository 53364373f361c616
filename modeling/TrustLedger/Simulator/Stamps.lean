import TrustLedger.Simulator.Agreement

/-! Commit timestamps. A leader stamps an operation when its quorum is complete and applies it when
its index is due, so stamps follow the indexes as long as quorums complete in the order of the
indexes. Where they do not, an operation can be committed with a stamp behind its predecessor's,
and every ledger discards it.
-/

namespace TrustLedger.Simulator

open Foundation LedgerCore

/-- Entries are ranked by their timestamps. -/
def stampRank (entry : Stamped) : Nat :=
  entry.2.val

theorem commitStamp_mono {earlier later : U64} (ordered : earlier ≤ later)
    : SimNode.commitStamp earlier ≤ SimNode.commitStamp later := by
  rw [Fin.le_def] at ordered ⊢
  simp only [SimNode.commitStamp, saturatingAdd_val]
  omega

theorem execute_lastTimestamp (op : WorkloadOp) (timestamp : U64) (ledger : Ledger)
    : (op.execute timestamp ledger).lastTimestamp = ledger.lastTimestamp
      ∨ (op.execute timestamp ledger).lastTimestamp = timestamp := by
  rcases execute_cases op timestamp ledger with unchanged | step
  · exact .inl (congrArg Ledger.lastTimestamp unchanged)
  · rw [step_lastTimestamp step, eventStamp_event]
    cases op <;> exact .inr rfl

theorem replay_lastTimestamp_le {base : Ledger} {log : List Stamped} {bound : U64}
    (start : base.lastTimestamp ≤ bound) (stamps : ∀ entry ∈ log, entry.2 ≤ bound)
    : (replay base log).lastTimestamp ≤ bound := by
  induction log generalizing base with
  | nil => exact start
  | cons entry rest ih =>
      refine ih ?_ fun other later => stamps other (List.mem_cons_of_mem _ later)
      rcases execute_lastTimestamp entry.1 entry.2 base with same | moved
      · rw [same]
        exact start
      · rw [moved]
        exact stamps entry List.mem_cons_self

namespace SimCluster

/-- Committed operations are stamped in the order of their indexes, and none is refused for its
timestamp unless the accounts themselves were opened later.
-/
structure InTimeOrder (base : Ledger) (c : SimCluster) : Prop where
  stamps
    : ∀ (id : U64) (node : SimNode), c.nodes[id]? = some node
      → ∀ (i j : U64) (entryI entryJ : Stamped), i < j → node.committedOps[i]? = some entryI
      → node.committedOps[j]? = some entryJ → entryI.2 ≤ entryJ.2
  executed
    : ∀ (id : U64) (node : SimNode), c.nodes[id]? = some node
      → ∃ log, node.Applied base log
        ∧ ∀ before entry after, log = before ++ entry :: after → base.lastTimestamp ≤ entry.2
          → (replay base before).checkTimestamp entry.2 = .ok ()

/-- The stamp of an entry is that of a move made. -/
def StampedBy (made : List Transition) (entry : Stamped) : Prop :=
  ∃ earlier ∈ made, ∃ tick, earlier.move.now = some tick ∧ entry.2 = SimNode.commitStamp tick

variable {base : Ledger} {w w' : World} {todo : List Packet} {c c' : SimCluster}
  {made : List Transition} {move : Move}

/-- A coupled cluster whose abstract logs are sorted by their stamps is in time order. -/
theorem Coupled.inTimeOrder (coupled : c.Coupled base w todo) (ordered : w.Ordered stampRank)
    : c.InTimeOrder base where
  stamps id node found i j entryI entryJ less heldI heldJ := by
    have applied := (coupled.holds id node found).durable.applied
    rw [applied.committed] at heldI heldJ
    exact SlotLog.slot_pairwise (ordered.sorted id) heldI heldJ less
  executed id node found := by
    refine ⟨w.log id, (coupled.holds id node found).durable.applied, ?_⟩
    intro before entry after split start
    have sorted := ordered.sorted id
    rw [split, List.pairwise_append] at sorted
    refine Ledger.checkTimestamp_eq_ok.mpr (replay_lastTimestamp_le start fun other earlier => ?_)
    exact sorted.2.2 other earlier entry List.mem_cons_self

/-- The abstract logs are sorted by their stamps, all given by moves made. -/
structure Punctual (made : List Transition) (w : World) : Prop where
  consistent : w.Consistent
  ordered : w.Ordered stampRank
  stamped : w.All (StampedBy made)

theorem Punctual.widen (punctual : Punctual made w) (transition : Transition)
    : Punctual (made ++ [transition]) w := by
  have more {entry : Stamped} (given : StampedBy made entry)
      : StampedBy (made ++ [transition]) entry := by
    obtain ⟨earlier, listed, rest⟩ := given
    exact ⟨earlier, List.mem_append_left _ listed, rest⟩
  exact ⟨punctual.consistent, punctual.ordered, fun logged => more (punctual.stamped.logged logged),
    fun waits => more (punctual.stamped.waiting waits)⟩

/-- What is chosen now, in turn, is stamped last. -/
theorem Punctual.step {s s' : World} {action : SlotLog.Action U64 Stamped}
    {after : Option SimCluster} (punctual : Punctual (made ++ [⟨c, move, after⟩]) s)
    (follows : move.Follows made) (inTurn : c.InTurn move) (step : s.Step action s')
    (allowed : c.Allows move s action)
    : Punctual (made ++ [⟨c, move, after⟩]) s' := by
  obtain ⟨consistent, ordered, stamped⟩ := punctual
  refine ⟨step.consistent consistent, step.ordered consistent ordered ?_, step.all stamped ?_⟩
  · cases action with
    | choose k i entry =>
        obtain ⟨packet, now, rfl, stamp, next⟩ := allowed
        refine ⟨next inTurn, fun other logged => ?_⟩
        obtain ⟨earlier, listed, tick, was, same⟩ := stamped.logged logged
        have ordered : tick ≤ now := by
          rcases List.mem_append.mp listed with old | new
          · exact follows earlier old tick now was rfl
          · cases List.mem_singleton.mp new
            exact le_of_eq (Option.some.inj was).symm
        unfold stampRank
        rw [same, stamp]
        exact Fin.le_def.mp (commitStamp_mono ordered)
    | _ => trivial
  · intro k i entry chosen
    subst chosen
    obtain ⟨packet, now, rfl, stamp, -⟩ := allowed
    exact ⟨_, List.mem_append_right _ List.mem_cons_self, now, rfl, stamp⟩

/-- A move in turn keeps the abstract logs sorted; the induction is along its abstract steps. -/
theorem Punctual.path (punctual : Punctual made w) (follows : move.Follows made)
    (inTurn : c.InTurn move) (path : Path SlotLog.State.Step (c.Allows move) w w')
    (after : Option SimCluster)
    : Punctual (made ++ [⟨c, move, after⟩]) w' := by
  induction path with
  | refl => exact punctual.widen _
  | tail earlier last allowed ih => exact ih.step follows inTurn last allowed

/-- What holds of a run in time so far. -/
structure OnTime (base : Ledger) (made : List Transition) (todo : List Packet) (c : SimCluster)
    : Prop where
  proposed : c.nextLogIndex.val ≤ proposals made
  coupled : ∃ w, c.Coupled base w todo ∧ Punctual made w

theorem onTime_preserved (base : Ledger)
    : Preserved True
        (fun made c move => proposals made + move.proposes < 2 ^ 64 - 1 ∧ move.Follows made
          ∧ c.InTurn move)
        (OnTime base) where
  drain now known := by
    obtain ⟨proposed, w, coupled, punctual⟩ := known
    exact ⟨proposed, w, coupled.drain now, punctual⟩
  move {made todo c} move known guard := by
    obtain ⟨proposed, w, coupled, punctual⟩ := known
    obtain ⟨few, follows, inTurn⟩ := guard
    refine (coupled.move (by omega)).weaken (fun _ => trivial) fun c' reached => ⟨?_, ?_⟩
    · rw [proposals_append, proposals_singleton]
      exact Nat.le_trans reached.proposed (Nat.add_le_add_right proposed _)
    · obtain ⟨w', path, there⟩ := reached.coupled
      exact ⟨w', there, punctual.path follows inTurn path _⟩

/-- If ticks do not decrease and every quorum is completed for its leader's next index, the
committed operations of every node are in time order throughout the run.
-/
theorem cluster_in_time_order (netConfig : NetworkConfig) (accountIds : List U128)
    (balance : U128) (draws : List U64) (calls : List Call) (ordered : TicksOrdered calls)
    (few : calls.countP Call.isProposal < 2 ^ 64 - 1)
    (inTurn : ∀ transition ∈ trace (new3Node netConfig accountIds balance) draws calls,
      transition.before.InTurn transition.move)
    : ∀ c ∈ states (new3Node netConfig accountIds balance) draws calls,
        c.InTimeOrder (startLedger accountIds balance) := by
  have start : OnTime (startLedger accountIds balance) [] []
      (new3Node netConfig accountIds balance) := by
    refine ⟨Nat.le_refl _, _, coupled_new3Node netConfig accountIds balance,
      (coupled_new3Node netConfig accountIds balance).consistent, ⟨fun _ => .nil, nofun⟩,
      nofun, nofun⟩
  intro c visited
  obtain ⟨made, todo, -, onTime⟩ :=
    ((onTime_preserved _).states start fun past transition rest split =>
    ⟨few_proposals few past transition rest split, moves_follow ordered past transition rest split,
      inTurn transition (split ▸ List.mem_append_right _ List.mem_cons_self)⟩).1 c visited
  obtain ⟨w, coupled, punctual⟩ := onTime.coupled
  exact coupled.inTimeOrder punctual.ordered

/-- Two transfers are proposed and acknowledged in turn. -/
def twoTransfers : List Call :=
  [.propose (.directTransfer 7 1 2 30) 0, .step 1, .step 2, .propose (.directTransfer 8 1 2 5) 2,
    .step 3, .step 4, .step 5]

theorem twoTransfers_in_time_order
    : (∃ c ∈ states (new3Node {} [1, 2] 100) [] twoTransfers, ∃ node ∈ c.nodes[(3 : U64)]?,
        (2 : U64) ∈ node.committedOps)
      ∧ ∀ c ∈ states (new3Node {} [1, 2] 100) [] twoTransfers,
        c.InTimeOrder (startLedger [1, 2] 100) :=
  ⟨by decide +kernel,
    cluster_in_time_order {} [1, 2] 100 [] twoTransfers (by decide) (by decide) (by decide +kernel)⟩

/-- The first of two proposals takes ten ticks to reach the other nodes, the second one. -/
def overtaken : List Call :=
  [.propose (.directTransfer 7 1 2 30) 0, .propose (.directTransfer 8 1 2 5) 0, .step 1, .step 2,
    .step 10, .step 11]

/-- The second transfer is stamped at tick 2, the first at tick 11; the leader has both committed,
and its ledger has refused the second.
-/
theorem overtaken_out_of_time_order
    : ∃ c ∈ states (new3Node {} [1, 2] 100) [0, 9, 0, 0, 9, 0] overtaken,
        ¬ c.InTimeOrder (startLedger [1, 2] 100)
        ∧ ∃ node ∈ c.nodes[(1 : U64)]?, (2 : U64) ∈ node.committedOps
          ∧ (⟨8⟩ : TransferId) ∉ node.ledger.transfers := by
  have found : ∃ c ∈ states (new3Node {} [1, 2] 100) [0, 9, 0, 0, 9, 0] overtaken,
      ∃ node ∈ c.nodes[(1 : U64)]?, ∃ first ∈ node.committedOps[(1 : U64)]?,
        ∃ second ∈ node.committedOps[(2 : U64)]?, second.2 < first.2
        ∧ (⟨8⟩ : TransferId) ∉ node.ledger.transfers := by
    decide +kernel
  obtain ⟨c, visited, node, stored, first, one, second, two, behind, refused⟩ := found
  refine ⟨c, visited, fun inOrder => ?_, node, stored, ?_, refused⟩
  · have ordered := inOrder.stamps 1 node stored 1 2 first second (by decide) one two
    exact absurd behind (not_lt_of_ge ordered)
  · exact Std.ExtTreeMap.mem_iff_isSome_getElem?.mpr (Option.isSome_of_mem two)

end SimCluster

end TrustLedger.Simulator
