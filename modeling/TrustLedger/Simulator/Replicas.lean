import TrustLedger.Simulator.Moves

/-! The logs the nodes have applied. Applied logs are never shortened, by crashes and recoveries
least of all, and the ledger of a node is always what its log leads to.
-/

namespace TrustLedger.Simulator

open Foundation LedgerCore

/-- The committed indexes of a node are those up to its commit index. -/
theorem SimNode.Durable.mem_committedOps {base : Ledger} {log : List Stamped} {node : SimNode}
    (durable : node.Durable base log) {index : U64}
    : index ∈ node.committedOps ↔ 1 ≤ index ∧ index ≤ node.commitIndex := by
  have count := durable.applied.commitIndex
  rw [Std.ExtTreeMap.mem_iff_isSome_getElem?, durable.applied.committed, Option.isSome_iff_exists,
    Fin.le_def, Fin.le_def, count]
  constructor
  · intro ⟨entry, held⟩
    refine ⟨?_, SlotLog.le_length_of_slot held⟩
    by_contra outside
    have zero : index.val = 0 := by simpa using outside
    rw [zero] at held
    cases held
  · intro ⟨positive, within⟩
    exact SlotLog.exists_slot positive within

namespace SimCluster

/-- Every node has its log applied, in memory and on disk. -/
def Replicas (base : Ledger) (logs : U64 → List Stamped) (c : SimCluster) : Prop :=
  ∀ (id : U64) (node : SimNode), c.nodes[id]? = some node → node.Durable base (logs id)

/-- The three nodes have their logs applied, and each log continues an earlier one. -/
structure Grown (base : Ledger) (logs : U64 → List Stamped) (c : SimCluster) : Prop where
  threeNodes : c.ThreeNodes
  replicas : ∃ logs', c.Replicas base logs' ∧ ∀ id, logs id <+: logs' id

variable {base : Ledger} {logs : U64 → List Stamped} {c : SimCluster} {id : U64}
  {node : SimNode} {move : Move} {network : SimNetwork ClusterMessage}

theorem Replicas.grown (replicas : c.Replicas base logs) (three : c.ThreeNodes)
    : c.Grown base logs :=
  ⟨three, logs, replicas, fun _ => List.prefix_rfl⟩

theorem Replicas.withNode (replicas : c.Replicas base logs) {more : List Stamped}
    (durable : node.Durable base (logs id ++ more))
    : (c.withNode id node network).Replicas base
        (Function.update logs id (logs id ++ more)) := by
  refine forall_withNode (by simpa using durable) fun other old differs found => ?_
  simpa [differs] using replicas other old found

theorem Grown.withNode (grown : c.Grown base logs) {before : SimNode}
    (found : c.nodes[id]? = some before) (same : node.id = before.id)
    (continued : ∀ log, before.Durable base log → ∃ more, node.Durable base (log ++ more))
    : (c.withNode id node network).Grown base logs := by
  obtain ⟨three, logs', replicas, longer⟩ := grown
  obtain ⟨more, durable⟩ := continued (logs' id) (replicas id before found)
  refine ⟨three.withNode found same network, _, replicas.withNode durable, fun other => ?_⟩
  by_cases here : other = id
  · subst here
    simpa using (longer other).trans (List.prefix_append _ more)
  · simpa [here] using longer other

theorem Grown.turn (grown : c.Grown base logs) {node' : SimNode} {out : Outbox}
    (found : c.nodes[id]? = some node) (turn : Turn move c id node node' out)
    : (c.withNode id node' network).Grown base logs :=
  grown.withNode found turn.id_eq fun _ durable => turn.durable durable

theorem Grown.rewired (grown : c.Grown base logs) (network : SimNetwork ClusterMessage)
    : Grown base logs { c with network } :=
  ⟨grown.threeNodes.congr rfl, grown.replicas⟩

theorem Grown.counting (grown : c.Grown base logs) (found : c.nodes[id]? = some node)
    (index : U64) (op : WorkloadOp) (acks : Finset U64)
    : ({ c with nextLogIndex := index }.withNode id (node.counting index op acks) network).Grown
        base logs := by
  have raised : Grown base logs { c with nextLogIndex := index } :=
    ⟨grown.threeNodes.congr rfl, grown.replicas⟩
  refine raised.withNode found rfl fun log durable => ⟨[], ?_⟩
  rw [List.append_nil]
  exact durable.congr rfl

theorem Grown.durable (grown : c.Grown base logs) (found : c.nodes[id]? = some node)
    : ∃ base log, node.Durable base log := by
  obtain ⟨-, logs', replicas, -⟩ := grown
  exact ⟨base, logs' id, replicas id node found⟩

variable (netConfig : NetworkConfig) (accountIds : List U128) (balance : U128)

/-- The ledger the nodes of a new cluster start from. -/
def startLedger : Ledger :=
  baseLedger .usdc (accountIds.map AccountId.mk) balance

theorem replicas_new3Node
    : (new3Node netConfig accountIds balance).Replicas (startLedger accountIds balance)
        fun _ => [] := by
  intro id node found
  rw [(of_getElem?_new3Node netConfig accountIds balance found).2]
  exact durable_new balance id _

end SimCluster

end TrustLedger.Simulator
