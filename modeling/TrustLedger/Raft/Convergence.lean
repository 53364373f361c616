import TrustLedger.Foundation.Replication
import TrustLedger.Raft.StateMachine

/-! Replicas converge through logs and snapshots. A snapshot carries the journal only, and the
ledger it is replayed into is the ledger it was taken from, so that a replica which installs it is
where the other one was.
-/

namespace TrustLedger.Raft

open Foundation LedgerCore Ledger

section Requests

/-- A request applies all its operations or changes nothing. -/
theorem execute_eq (request : RaftRequest) (l : Ledger)
    : execute request l
      = match opLog.attempt request.ops l with
        | .ok l' => .ok (request.response (l'.journal.drop l.journal.length)) l'
        | .error err => .error err l := by
  have prepared := prepareBatch_eq request.ops l
  cases decided : opLog.attempt request.ops l with
  | ok l' =>
      rw [decided] at prepared
      refine (bind_run_of_ok prepared).trans ?_
      exact bind_run_of_ok (commitEvents_ok_iff.mpr (applyEvents_appended (attempt_ops.mp decided)))
  | error err =>
      rw [decided] at prepared
      exact bind_run_of_error prepared

theorem applySingleRequest_rejected {request : RaftRequest} {l l' : Ledger}
    {err : RaftClientError} (rejected : applySingleRequest request l = (.error err, l'))
    : l' = l := by
  rw [applySingleRequest, execute_eq] at rejected
  cases decided : opLog.attempt request.ops l with
  | ok next =>
      rw [decided] at rejected
      cases rejected
  | error ledgerErr =>
      rw [decided] at rejected
      exact (congrArg Prod.snd rejected).symm

/-- Requests keep to ledgers that public calls lead to. -/
theorem reachable_applySingleRequest {scale : Scale} {l : Ledger} (reached : Reachable scale l)
    (request : RaftRequest)
    : Reachable scale (applySingleRequest request l).2 := by
  rw [applySingleRequest, execute_eq]
  cases decided : opLog.attempt request.ops l with
  | ok l' =>
      have committed := commitEvents_ok_iff.mpr (applyEvents_appended (attempt_ops.mp decided))
      have called := reached.call (.commitEvents (l'.journal.drop l.journal.length))
      simpa only [Mutation.run, committed, stateAfter] using called
  | error err => exact reached

end Requests

namespace StateMachine

variable {M : Type}

/-- The part of the state that replicas share: all but the snapshot kept for followers. -/
structure Applied (M : Type) where
  ledger : Ledger
  lastAppliedLogId : Option LogId
  lastMembership : StoredMembership M

def applied (machine : StateMachine M) : Applied M where
  ledger := machine.ledger
  lastAppliedLogId := machine.lastAppliedLogId
  lastMembership := machine.lastMembership

theorem applyEntry_congr (entry : Entry M) {machine other : StateMachine M}
    (same : machine.applied = other.applied)
    : (applyEntry entry machine).1 = (applyEntry entry other).1
      ∧ (applyEntry entry machine).2.applied = (applyEntry entry other).2.applied := by
  obtain ⟨ledger, lastApplied, membership, snapshot⟩ := machine
  obtain ⟨ledger', lastApplied', membership', snapshot'⟩ := other
  simp only [applied, Applied.mk.injEq] at same
  obtain ⟨rfl, rfl, rfl⟩ := same
  obtain ⟨logId, payload⟩ := entry
  cases payload <;> exact ⟨rfl, rfl⟩

/-- The state machine as a replicated machine. -/
def replication (M : Type) : Replication (StateMachine M) (Entry M) Answer (Applied M) where
  step := applyEntry
  view := applied
  step_answer entry _ _ same := (applyEntry_congr entry same).1
  step_view entry _ _ same := (applyEntry_congr entry same).2

theorem apply_eq_run (entries : List (Entry M)) (machine : StateMachine M)
    : apply entries machine = (replication M).run entries machine := by
  induction entries generalizing machine with
  | nil => rfl
  | cons entry rest ih => simp only [apply, Replication.run, ih]; rfl

theorem reachable_applyEntry {scale : Scale} (entry : Entry M) (machine : StateMachine M)
    (reached : Reachable scale machine.applied.ledger)
    : Reachable scale (applyEntry entry machine).2.applied.ledger := by
  obtain ⟨logId, payload⟩ := entry
  cases payload with
  | blank => exact reached
  | membership membership => exact reached
  | normal request => exact reachable_applySingleRequest reached request

/-- Installing a replica's snapshot succeeds on every machine and restores what the replica had
applied.
-/
theorem installSnapshot_built {scale : Scale} {source : StateMachine M} {millis : Nat}
    {snapshot : Snapshot M} (reached : Reachable scale source.ledger)
    (built : (source.getSnapshotBuilder millis).buildSnapshot = .ok snapshot)
    (machine : StateMachine M)
    : machine.installSnapshot snapshot.info snapshot.data
      = (.ok (), { source with currentSnapshot := some snapshot }) := by
  unfold LedgerSnapshotBuilder.buildSnapshot at built
  split at built
  · cases built
  rename_i data encoded
  cases built
  have replayed := replay_ok_iff.mpr reached.applyEvents
  rw [← reached.scale_eq] at replayed
  simp only [installSnapshot, SnapshotPayload.decode_encode encoded, getSnapshotBuilder, replayed]

end StateMachine

section Replicas

variable {M : Type} [Inhabited M]

/-- The states of a replica that has reached position `n` of the committed entries, with the answers
it gave and the positions of the answered entries. It applies the entries that come next, any number
at a time, and installs snapshots taken from replicas at any position. A machine in any state may
join by installing a snapshot.
-/
inductive Replica (scale : Scale) (entries : List (Entry M))
    : Nat → StateMachine M → List (Answer × Nat) → Prop where
  | new : Replica scale entries 0 (.new scale) []
  | apply {n : Nat} {machine : StateMachine M} {answers : List (Answer × Nat)}
    (replica : Replica scale entries n machine answers) (portion : List (Entry M))
    (next : portion <+: entries.drop n)
    : Replica scale entries (n + portion.length) (machine.apply portion).2
        (answers ++ (machine.apply portion).1.zipIdx n)
  | install {n k : Nat} {machine source : StateMachine M} {answers others : List (Answer × Nat)}
    {millis : Nat} {snapshot : Snapshot M} (replica : Replica scale entries n machine answers)
    (other : Replica scale entries k source others)
    (built : (source.getSnapshotBuilder millis).buildSnapshot = .ok snapshot)
    : Replica scale entries k (machine.installSnapshot snapshot.info snapshot.data).2 answers
  | join {k : Nat} {source : StateMachine M} {others : List (Answer × Nat)} {millis : Nat}
    {snapshot : Snapshot M} (machine : StateMachine M)
    (other : Replica scale entries k source others)
    (built : (source.getSnapshotBuilder millis).buildSnapshot = .ok snapshot)
    : Replica scale entries k (machine.installSnapshot snapshot.info snapshot.data).2 []

/-- A machine installs a snapshot built from a source. -/
def Installed (source machine machine' : StateMachine M) : Prop :=
  ∃ millis snapshot, (source.getSnapshotBuilder millis).buildSnapshot = .ok snapshot
    ∧ (machine.installSnapshot snapshot.info snapshot.data).2 = machine'

variable {scale : Scale} {entries : List (Entry M)} {n : Nat} {machine : StateMachine M}
  {answers : List (Answer × Nat)}

theorem Replica.replication (replica : Replica scale entries n machine answers)
    : (StateMachine.replication M).Replica (.new scale) Installed entries n machine answers := by
  induction replica with
  | new => exact .start
  | apply replica portion next ih =>
      rw [StateMachine.apply_eq_run]
      exact ih.apply portion next
  | install replica other built ih otherIh => exact ih.restore otherIh ⟨_, _, built, rfl⟩
  | join machine other built otherIh => exact .join machine otherIh ⟨_, _, built, rfl⟩

/-- Every replica follows the run of all entries on a new machine. -/
theorem Replica.follows (replica : Replica scale entries n machine answers)
    : (StateMachine.replication M).Follows (.new scale) entries n machine answers := by
  refine Replication.Replica.follows (P := fun applied => Reachable scale applied.ledger)
    Reachable.new StateMachine.reachable_applyEntry ?_ replica.replication
  intro source machine machine' reached installed
  obtain ⟨millis, snapshot, built, rfl⟩ := installed
  rw [StateMachine.installSnapshot_built reached built machine]
  rfl

theorem Replica.reachable (replica : Replica scale entries n machine answers)
    : Reachable scale machine.ledger :=
  replica.follows.holds (P := fun applied => Reachable scale applied.ledger) Reachable.new
    StateMachine.reachable_applyEntry

end Replicas

/-- Replicas of one sequence of committed entries converge: at one position they have equal ledgers,
last applied log IDs and memberships, and an entry both have applied was answered alike. Their
snapshots install everywhere, and a rejected request leaves the ledger unchanged.
-/
theorem replicas_converge {M : Type} [Inhabited M] {scale : Scale} {entries : List (Entry M)}
    {n n' : Nat} {machine machine' : StateMachine M} {answers answers' : List (Answer × Nat)}
    (replica : Replica scale entries n machine answers)
    (replica' : Replica scale entries n' machine' answers')
    : (n = n' → machine.ledger = machine'.ledger
        ∧ machine.lastAppliedLogId = machine'.lastAppliedLogId
        ∧ machine.lastMembership = machine'.lastMembership)
      ∧ (∀ i a b, (a, i) ∈ answers → (b, i) ∈ answers' → a = b)
      ∧ (∀ millis snapshot, (machine.getSnapshotBuilder millis).buildSnapshot = .ok snapshot →
          ∀ any : StateMachine M,
            (any.installSnapshot snapshot.info snapshot.data).1 = .ok ())
      ∧ ∀ request ledger err ledger', applySingleRequest request ledger = (.error err, ledger') →
          ledger' = ledger := by
  refine ⟨fun samePosition => ?_, fun i a b mem mem' => ?_, fun millis snapshot built any => ?_,
    fun request ledger err ledger' rejected => applySingleRequest_rejected rejected⟩
  · subst samePosition
    have same := replica.follows.view_eq replica'.follows
    exact ⟨congrArg StateMachine.Applied.ledger same,
      congrArg StateMachine.Applied.lastAppliedLogId same,
      congrArg StateMachine.Applied.lastMembership same⟩
  · exact replica.follows.answer_eq replica'.follows mem mem'
  · rw [StateMachine.installSnapshot_built replica.reachable built any]

/-- An account is created, created again in vain, and the membership changes. -/
def refusedThenMembership : List (Entry Nat) :=
  [{ logId := ⟨1, 1, 1⟩, payload := .normal (.createAccount ⟨1⟩ .asset .unrestricted ⟨2⟩ 10) },
    { logId := ⟨1, 1, 2⟩, payload := .normal (.createAccount ⟨1⟩ .asset .unrestricted ⟨2⟩ 11) },
    { logId := ⟨1, 1, 3⟩, payload := .membership 7 }]

/-- The first replica after two entries. -/
def afterRefusal : StateMachine Nat :=
  ((StateMachine.new ⟨2⟩).apply (refusedThenMembership.take 2)).2

/-- Witness: one replica applies two entries and then the third, another installs the first one's
snapshot of two entries and applies the third.
-/
theorem replicas_converge_after_install
    : ∃ snapshot, (afterRefusal.getSnapshotBuilder 0).buildSnapshot = .ok snapshot
        ∧ (afterRefusal.apply (refusedThenMembership.drop 2)).2.ledger
          = (((StateMachine.new ⟨2⟩).installSnapshot snapshot.info snapshot.data).2.apply
              (refusedThenMembership.drop 2)).2.ledger := by
  obtain ⟨snapshot, built⟩ :=
    (afterRefusal.getSnapshotBuilder 0).buildSnapshot_ok (by decide +kernel)
  have start : Replica ⟨2⟩ refusedThenMembership 0 (.new ⟨2⟩) [] := .new
  have first := start.apply (refusedThenMembership.take 2) (List.take_prefix 2 _)
  have second := first.apply (refusedThenMembership.drop 2) List.prefix_rfl
  have other := (start.install first built).apply (refusedThenMembership.drop 2) List.prefix_rfl
  exact ⟨snapshot, built, ((replicas_converge second other).1 rfl).1⟩

end TrustLedger.Raft
