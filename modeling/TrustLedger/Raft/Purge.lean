import TrustLedger.Foundation.Guarded
import TrustLedger.Raft.LogStore

/-! Purged entries and snapshots. The state machine hands out the snapshot it last installed; one
built on the node is not kept. So entries purged from the log are recoverable exactly as long as
installed snapshots, and not built ones, cover the purges.
-/

namespace TrustLedger.Raft

open Foundation LedgerCore

variable {M : Type}

/-- A snapshot reaches a log ID. -/
def SnapshotMeta.Covers (info : SnapshotMeta M) (logId : LogId) : Prop :=
  ∃ lastLogId, info.lastLogId = some lastLogId ∧ logId ≤ lastLogId

/-- A snapshot that the state machine accepts, in any state. -/
def Installs (data : Bytes) : Prop :=
  ∃ payload ledger, SnapshotPayload.decode data = .ok payload
    ∧ Ledger.replay payload.scale payload.journal = .ok ledger

namespace Node

/-- The current snapshot reaches the last purge, so that a follower which lacks purged entries can
be brought up to date.
-/
def Recoverable (node : Node M) : Prop :=
  ∀ logId, node.log.getLogState.lastPurgedLogId = some logId →
    ∃ snapshot, node.machine.getCurrentSnapshot = some snapshot ∧ snapshot.info.Covers logId

/-- What the consensus engine keeps to: it purges no further than some snapshot built or installed
on the node reaches.
-/
def Permitted (node : Node M) : NodeCall M → Prop
  | .purge logId => ∃ snapshot ∈ node.built ++ node.installed, snapshot.info.Covers logId
  | _ => True

/-- What keeps purged entries recoverable: a purge goes no further than the snapshot installed last,
and a snapshot that is installed reaches the last purge.
-/
def CoveredByInstalls (node : Node M) : NodeCall M → Prop
  | .purge logId =>
      ∃ snapshot, node.installed.getLast? = some snapshot ∧ snapshot.info.Covers logId
  | .installSnapshot info data =>
      Installs data → ∀ logId, node.log.lastPurgedLogId = some logId → info.Covers logId
  | _ => True

/-- The snapshot handed out is the one installed last. -/
def KeepsLastInstalled (node : Node M) : Prop :=
  node.machine.currentSnapshot = node.installed.getLast?

end Node

namespace StateMachine

theorem currentSnapshot_apply (entries : List (Entry M)) (machine : StateMachine M)
    : (machine.apply entries).2.currentSnapshot = machine.currentSnapshot := by
  induction entries generalizing machine with
  | nil => rfl
  | cons entry rest ih =>
      obtain ⟨logId, payload⟩ := entry
      rw [apply, ih]
      cases payload <;> rfl

/-- An install either keeps its snapshot as the current one, or changes nothing. -/
theorem installSnapshot_cases (info : SnapshotMeta M) (data : Bytes) (machine : StateMachine M)
    : (Installs data ∧ ∃ machine', machine.installSnapshot info data = (.ok (), machine')
          ∧ machine'.currentSnapshot = some { info, data })
      ∨ (¬ Installs data ∧ ∃ err, machine.installSnapshot info data = (.error err, machine)) := by
  cases decoded : SnapshotPayload.decode data with
  | error detail =>
      exact .inr ⟨by simp [Installs, decoded], _, by simp only [installSnapshot, decoded]; rfl⟩
  | ok payload =>
      cases replayed : Ledger.replay payload.scale payload.journal with
      | error err =>
          exact .inr ⟨by simp [Installs, decoded, replayed], _,
            by simp only [installSnapshot, decoded, replayed]; rfl⟩
      | ok ledger =>
          exact .inl ⟨⟨payload, ledger, decoded, replayed⟩, _,
            by simp only [installSnapshot, decoded, replayed]; rfl, rfl⟩

end StateMachine

namespace Node

theorem keepsLastInstalled_call (node : Node M) (call : NodeCall M)
    (keeps : node.KeepsLastInstalled)
    : (node.call call).KeepsLastInstalled := by
  cases call with
  | append entries => exact keeps
  | truncate logId => exact keeps
  | apply entries => exact (node.machine.currentSnapshot_apply entries).trans keeps
  | getSnapshotBuilder millis => exact keeps
  | buildSnapshot place =>
      rw [Node.call]
      split <;> exact keeps
  | installSnapshot info data =>
      rw [Node.call]
      rcases node.machine.installSnapshot_cases info data with
        ⟨-, machine', ran, current⟩ | ⟨-, err, ran⟩
      · rw [ran]
        simpa [KeepsLastInstalled] using current
      · rw [ran]
        exact keeps
  | purge logId => exact keeps

/-- From a recoverable state, a call stays recoverable exactly when installed snapshots cover it. -/
theorem recoverable_call_iff (node : Node M) (call : NodeCall M)
    (keeps : node.KeepsLastInstalled) (recoverable : node.Recoverable)
    : (node.call call).Recoverable ↔ node.CoveredByInstalls call := by
  cases call with
  | append entries => exact iff_of_true recoverable trivial
  | truncate logId => exact iff_of_true recoverable trivial
  | apply entries =>
      refine iff_of_true (fun logId purged => ?_) trivial
      obtain ⟨snapshot, current, covers⟩ := recoverable logId purged
      exact ⟨snapshot, (node.machine.currentSnapshot_apply entries).trans current, covers⟩
  | getSnapshotBuilder millis => exact iff_of_true recoverable trivial
  | buildSnapshot place =>
      refine iff_of_true ?_ trivial
      rw [Node.call]
      split <;> exact recoverable
  | installSnapshot info data =>
      rw [Node.call]
      rcases node.machine.installSnapshot_cases info data with
        ⟨installs, machine', ran, current⟩ | ⟨refused, err, ran⟩
      · rw [ran]
        simp [Recoverable, CoveredByInstalls, MemLogStore.getLogState,
          StateMachine.getCurrentSnapshot, current, installs]
      · rw [ran]
        exact iff_of_true recoverable fun installs => absurd installs refused
  | purge logId =>
      rw [CoveredByInstalls, ← keeps]
      simp [Node.call, Recoverable, MemLogStore.purge, MemLogStore.getLogState,
        StateMachine.getCurrentSnapshot]

theorem keepsLastInstalled_new [Inhabited M] (scale : Scale)
    : (new scale : Node M).KeepsLastInstalled :=
  rfl

theorem recoverable_new [Inhabited M] (scale : Scale) : (new scale : Node M).Recoverable := by
  intro logId purged
  cases purged

end Node

/-- Along every sequence of calls, purged entries stay recoverable exactly as long as each purge is
covered by the snapshot installed last and no installed snapshot falls behind the last purge.
-/
theorem purged_recoverable_iff [Inhabited M] (scale : Scale) (calls : List (NodeCall M))
    : Throughout Node.call Node.Recoverable (Node.new scale) calls
      ↔ Guarded Node.call Node.CoveredByInstalls (Node.new scale) calls :=
  throughout_iff_guarded Node.keepsLastInstalled_call Node.recoverable_call_iff
    (Node.keepsLastInstalled_new scale) (Node.recoverable_new scale) calls

/-- The first entry of a log. -/
def firstEntry : Entry Unit :=
  { logId := ⟨1, 1, 1⟩, payload := .blank }

/-- An entry is appended and applied, a snapshot is built, and the log is purged up to it. -/
def builtThenPurged : List (NodeCall Unit) :=
  [.append [firstEntry], .apply [firstEntry], .getSnapshotBuilder 0, .buildSnapshot 0,
    .purge firstEntry.logId]

/-- A purge up to a snapshot built on the node is permitted, and leaves no snapshot to hand out. -/
theorem built_snapshot_not_kept
    : Guarded Node.call Node.Permitted (Node.new ⟨2⟩) builtThenPurged
      ∧ (builtThenPurged.foldl Node.call (Node.new ⟨2⟩)).log.getLogState.lastPurgedLogId
        = some firstEntry.logId
      ∧ (builtThenPurged.foldl Node.call (Node.new ⟨2⟩)).machine.getCurrentSnapshot = none
      ∧ ¬ Throughout Node.call Node.Recoverable (Node.new ⟨2⟩) builtThenPurged := by
  have purged : (builtThenPurged.foldl Node.call (Node.new ⟨2⟩)).log.getLogState.lastPurgedLogId
      = some firstEntry.logId := rfl
  have missing : (builtThenPurged.foldl Node.call (Node.new ⟨2⟩)).machine.getCurrentSnapshot
      = none := rfl
  refine ⟨?_, purged, missing, fun throughout => ?_⟩
  · rw [builtThenPurged, guarded_cons, guarded_cons, guarded_cons, guarded_cons, guarded_cons]
    refine ⟨trivial, trivial, trivial, trivial, ?_, fun done call rest split => ?_⟩
    · exact ⟨_, List.mem_cons_self, firstEntry.logId, rfl, by decide⟩
    · exact absurd split.symm (by simp)
  · obtain ⟨snapshot, current, -⟩ := throughout builtThenPurged List.prefix_rfl _ purged
    rw [missing] at current
    cases current

end TrustLedger.Raft
