import TrustLedger.Raft.StateMachine

/-! The in-memory log store, and a node: its log store and state machine under the calls the
consensus engine makes on them.
-/

namespace TrustLedger.Raft

open Foundation LedgerCore

/-- In-memory log. -/
structure MemLogStore (M : Type) where
  lastPurgedLogId : Option LogId
  entries : Std.ExtTreeMap U64 (Entry M)

/-- The bounds of a log. -/
structure LogState where
  lastPurgedLogId : Option LogId
  lastLogId : Option LogId
  deriving DecidableEq

namespace MemLogStore

variable {M : Type}

def new : MemLogStore M :=
  { lastPurgedLogId := none, entries := ∅ }

def getLogState (store : MemLogStore M) : LogState where
  lastPurgedLogId := store.lastPurgedLogId
  lastLogId :=
    (store.entries.toList.getLast?.map fun stored => stored.2.logId).or store.lastPurgedLogId

/-- Store entries under their indices. -/
def append (entries : List (Entry M)) (store : MemLogStore M) : MemLogStore M :=
  { store with
    entries := entries.foldl (fun stored entry => stored.insert entry.logId.index entry)
      store.entries }

/-- Drop the entries from a log ID on. -/
def truncate (logId : LogId) (store : MemLogStore M) : MemLogStore M :=
  { store with entries := store.entries.filter fun index _ => index < logId.index }

/-- Drop the entries up to a log ID. -/
def purge (logId : LogId) (store : MemLogStore M) : MemLogStore M where
  lastPurgedLogId := some logId
  entries := store.entries.filter fun index _ => logId.index < index

end MemLogStore

/-- A node: its log, its state machine, the snapshot builders the engine holds and the snapshots the
engine has got from builds and installs on this node, oldest first.
-/
structure Node (M : Type) where
  log : MemLogStore M
  machine : StateMachine M
  builders : List (LedgerSnapshotBuilder M)
  built : List (Snapshot M)
  installed : List (Snapshot M)

/-- A call of the consensus engine on a node. -/
inductive NodeCall (M : Type) where
  | append (entries : List (Entry M))
  | truncate (logId : LogId)
  | apply (entries : List (Entry M))
  | getSnapshotBuilder (millis : Nat)
  /-- Build from the builder at a place in the list. -/
  | buildSnapshot (place : Nat)
  | installSnapshot (info : SnapshotMeta M) (data : Bytes)
  | purge (logId : LogId)

namespace Node

variable {M : Type}

def new [Inhabited M] (scale : Scale) : Node M :=
  { log := .new, machine := .new scale, builders := [], built := [], installed := [] }

/-- The node after a call. -/
def call (node : Node M) : NodeCall M → Node M
  | .append entries => { node with log := node.log.append entries }
  | .truncate logId => { node with log := node.log.truncate logId }
  | .apply entries => { node with machine := (node.machine.apply entries).2 }
  | .getSnapshotBuilder millis =>
      { node with builders := node.builders ++ [node.machine.getSnapshotBuilder millis] }
  | .buildSnapshot place =>
      match node.builders[place]?.map LedgerSnapshotBuilder.buildSnapshot with
      | some (.ok snapshot) => { node with built := node.built ++ [snapshot] }
      | some (.error _) | none => node
  | .installSnapshot info data =>
      match node.machine.installSnapshot info data with
      | (.ok _, machine) => { node with machine, installed := node.installed ++ [{ info, data }] }
      | (.error _, machine) => { node with machine }
  | .purge logId => { node with log := node.log.purge logId }

end Node

end TrustLedger.Raft
