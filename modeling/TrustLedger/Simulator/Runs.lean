import TrustLedger.Simulator.Cluster

/-! Runs of the simulated cluster. A run is a list of calls with the numbers the generator draws;
its trace lists the atomic moves the calls consist of, each with the clusters before and after it.
A step is one move for each packet it delivers and one for the timers.
-/

namespace TrustLedger.Simulator

open Foundation

/-- A public call that changes the cluster. -/
inductive Call where
  | propose (op : WorkloadOp) (now : U64)
  | step (now : U64)
  | partition (setA setB : Finset U64)
  | heal
  | triggerElection (candidateId now : U64)
  | crashNode (nodeId : U64) (tornWrite : Bool)
  | rebootNode (nodeId now : U64)

/-- An atomic part of a call. -/
inductive Move where
  | propose (op : WorkloadOp) (now : U64)
  | deliver (packet : Packet) (now : U64)
  | tickNodes (now : U64)
  | partition (setA setB : Finset U64)
  | heal
  | triggerElection (candidateId now : U64)
  | crashNode (nodeId : U64) (tornWrite : Bool)
  | rebootNode (nodeId now : U64)

/-- The tick a call is made at. -/
def Call.now : Call → Option U64
  | .propose _ now | .step now | .triggerElection _ now | .rebootNode _ now => some now
  | .partition _ _ | .heal | .crashNode _ _ => none

/-- The tick a move is made at. -/
def Move.now : Move → Option U64
  | .propose _ now | .deliver _ now | .tickNodes now => some now
  | .triggerElection _ now | .rebootNode _ now => some now
  | .partition _ _ | .heal | .crashNode _ _ => none

def Call.isProposal : Call → Bool
  | .propose _ _ => true
  | _ => false

def Move.isProposal : Move → Bool
  | .propose _ _ => true
  | _ => false

/-- The operation a call proposes. -/
def Call.op? : Call → Option WorkloadOp
  | .propose op _ => some op
  | _ => none

/-- The operation a move proposes. -/
def Move.op? : Move → Option WorkloadOp
  | .propose op _ => some op
  | _ => none

/-- The number of proposals a move makes. -/
def Move.proposes (move : Move) : Nat :=
  if move.isProposal then 1 else 0

/-- The packet a move delivers, which has left the network before. -/
def Move.brings : Move → List Packet
  | .deliver packet _ => [packet]
  | _ => []

namespace SimCluster

/-- The effect of a call. -/
def run (c : SimCluster) : Call → Chance SimCluster
  | .propose op now => do return (← c.propose op now).2
  | .step now => c.step now
  | .partition setA setB => return { c with network := c.network.partition setA setB }
  | .heal => return { c with network := c.network.heal }
  | .triggerElection candidateId now => c.triggerElection candidateId now
  | .crashNode nodeId tornWrite => c.crashNode nodeId tornWrite
  | .rebootNode nodeId now => c.rebootNode nodeId now

/-- The effect of a move. -/
def move (c : SimCluster) : Move → Chance SimCluster
  | .propose op now => c.run (.propose op now)
  | .deliver packet now => c.processPacket packet now
  | .tickNodes now => c.tickNodes now
  | .partition setA setB => c.run (.partition setA setB)
  | .heal => c.run .heal
  | .triggerElection candidateId now => c.run (.triggerElection candidateId now)
  | .crashNode nodeId tornWrite => c.run (.crashNode nodeId tornWrite)
  | .rebootNode nodeId now => c.run (.rebootNode nodeId now)

/-- The moves a call consists of, and the cluster they start from. -/
def moves (c : SimCluster) : Call → List Move × SimCluster
  | .propose op now => ([.propose op now], c)
  | .step now =>
      let (packets, c) := c.drain now
      (packets.map (.deliver · now) ++ [.tickNodes now], c)
  | .partition setA setB => ([.partition setA setB], c)
  | .heal => ([.heal], c)
  | .triggerElection candidateId now => ([.triggerElection candidateId now], c)
  | .crashNode nodeId tornWrite => ([.crashNode nodeId tornWrite], c)
  | .rebootNode nodeId now => ([.rebootNode nodeId now], c)

/-- A call is the sequence of its moves. -/
theorem run_eq_moves (c : SimCluster) (call : Call)
    : c.run call = (c.moves call).1.foldlM move (c.moves call).2 := by
  cases call with
  | step now =>
      simp only [run, step, moves, List.foldlM_append, List.foldlM_map, List.foldlM_cons,
        List.foldlM_nil, bind_pure]
      rfl
  | _ =>
      simp only [moves, List.foldlM_cons, List.foldlM_nil, bind_pure]
      rfl

end SimCluster

/-- A move with the clusters before and after it; after a panic there is none. -/
structure Transition where
  before : SimCluster
  move : Move
  after : Option SimCluster

/-- The moves made one after the other, the last of them the one that panics, if any does. -/
def visit : SimCluster → List U64 → List Move → List Transition
  | _, _, [] => []
  | c, draws, move :: rest =>
      match c.move move draws with
      | none => [⟨c, move, none⟩]
      | some (c', draws) => ⟨c, move, some c'⟩ :: visit c' draws rest

/-- All moves of a run. -/
def trace : SimCluster → List U64 → List Call → List Transition
  | _, _, [] => []
  | c, draws, call :: rest =>
      visit (c.moves call).2 draws (c.moves call).1
        ++ match c.run call draws with
          | none => []
          | some (c', draws) => trace c' draws rest

/-- The clusters the moves made from `start` go through. -/
def history (start : SimCluster) (made : List Transition) : List SimCluster :=
  start :: made.flatMap fun transition => transition.before :: transition.after.toList

/-- The clusters a run goes through. -/
def states (start : SimCluster) (draws : List U64) (calls : List Call) : List SimCluster :=
  history start (trace start draws calls)

variable {start : SimCluster}

theorem mem_history_append {c : SimCluster} {made : List Transition} {transition : Transition}
    : c ∈ history start (made ++ [transition])
      ↔ c ∈ history start made ∨ c = transition.before ∨ transition.after = some c := by
  simp [history, or_assoc]

section Along

/-- `P` holds of each transition of a trace, with the moves made before it. -/
def Along (P : List Transition → Transition → Prop) (made transitions : List Transition) : Prop :=
  ∀ past transition rest, transitions = past ++ transition :: rest → P (made ++ past) transition

variable {P : List Transition → Transition → Prop} {made left right : List Transition}

theorem along_nil : Along P made [] := by
  intro past transition rest split
  simp at split

theorem along_cons {transition : Transition}
    : Along P made (transition :: right)
      ↔ P made transition ∧ Along P (made ++ [transition]) right := by
  constructor
  · intro all
    refine ⟨by simpa using all [] transition right rfl, fun past next rest split => ?_⟩
    have shifted := all (transition :: past) next rest (congrArg (transition :: ·) split)
    simpa using shifted
  · intro ⟨now, later⟩ past next rest split
    cases past with
    | nil =>
        obtain ⟨rfl, -⟩ := List.cons.inj split
        simpa using now
    | cons first past =>
        obtain ⟨rfl, remaining⟩ := List.cons.inj split
        simpa using later past next rest remaining

theorem along_append
    : Along P made (left ++ right) ↔ Along P made left ∧ Along P (made ++ left) right := by
  induction left generalizing made with
  | nil => simp [along_nil]
  | cons first rest ih => simp [along_cons, ih, and_assoc]

def decidableAlong [∀ past transition, Decidable (P past transition)] (made : List Transition)
    : ∀ transitions, Decidable (Along P made transitions)
  | [] => .isTrue along_nil
  | transition :: rest =>
      have := decidableAlong (made ++ [transition]) rest
      decidable_of_iff _ along_cons.symm

instance instDecidableAlong [∀ past transition, Decidable (P past transition)]
    (made transitions : List Transition)
    : Decidable (Along P made transitions) :=
  decidableAlong made transitions

end Along

/-- `inv` relates the moves made, the packets taken out of the network and not delivered yet, and
the cluster; it survives taking packets out and every guarded move. A guarded move panics only if
it may.
-/
structure Preserved (may : Prop) (guard : List Transition → SimCluster → Move → Prop)
    (inv : List Transition → List Packet → SimCluster → Prop)
    : Prop where
  drain : ∀ {made c} now, inv made [] c → inv made (c.drain now).1 (c.drain now).2
  move
    : ∀ {made todo c} move, inv made (move.brings ++ todo) c → guard made c move
      → (c.move move).Ends may fun c' => inv (made ++ [⟨c, move, some c'⟩]) todo c'

/-- What an invariant says about a transition: it holds on both sides. -/
structure Known (may : Prop) (inv : List Transition → List Packet → SimCluster → Prop)
    (made : List Transition) (transition : Transition)
    : Prop where
  before : ∃ todo, inv made todo transition.before
  after : ∀ c', transition.after = some c' → ∃ todo, inv (made ++ [transition]) todo c'
  panic : transition.after = none → may

/-- Every move meets its guard, the one that panics included. -/
abbrev GuardedMoves (guard : List Transition → SimCluster → Move → Prop)
    (made transitions : List Transition)
    : Prop :=
  Along (fun past transition => guard past transition.before transition.move) made transitions

namespace Preserved

variable {may : Prop} {guard : List Transition → SimCluster → Move → Prop}
  {inv : List Transition → List Packet → SimCluster → Prop} {made : List Transition}
  {c : SimCluster} {draws : List U64} {calls : List Call}

/-- The moves of one call. The induction is on the moves left, whose packets are still to be
delivered.
-/
theorem visit (kept : Preserved may guard inv) {moves : List Move}
    (holds : inv made (moves.flatMap Move.brings) c)
    (guarded : GuardedMoves guard made (visit c draws moves))
    : Along (Known may inv) made (Simulator.visit c draws moves)
      ∧ ∀ c' rest, moves.foldlM SimCluster.move c draws = some (c', rest)
        → inv (made ++ Simulator.visit c draws moves) [] c' := by
  induction moves generalizing made c draws with
  | nil =>
      refine ⟨along_nil, fun c' rest ran => ?_⟩
      cases ran
      simpa [Simulator.visit] using holds
  | cons move rest ih =>
      rw [List.flatMap_cons] at holds
      simp only [Simulator.visit, List.foldlM_cons] at guarded ⊢
      cases moved : c.move move draws with
      | none =>
          simp only [moved] at guarded
          have ends := kept.move move holds (along_cons.mp guarded).1
          refine ⟨along_cons.mpr ⟨⟨⟨_, holds⟩, nofun, fun _ => ends.stopped moved⟩, along_nil⟩, ?_⟩
          intro c' left ran
          change Option.bind (c.move move draws) _ = _ at ran
          rw [moved] at ran
          cases ran
      | some result =>
          obtain ⟨mid, draws'⟩ := result
          simp only [moved] at guarded
          obtain ⟨now, later⟩ := along_cons.mp guarded
          have next := (kept.move move holds now).returned moved
          obtain ⟨known, final⟩ := ih next later
          refine ⟨along_cons.mpr ⟨⟨⟨_, holds⟩, ?_, nofun⟩, known⟩, fun c' left ran => ?_⟩
          · intro c' same
            cases same
            exact ⟨_, next⟩
          · change Option.bind (c.move move draws) _ = _ at ran
            rw [moved] at ran
            simpa using final c' left ran

/-- The packets of a call's moves are those it takes out of the network. -/
theorem moves (kept : Preserved may guard inv) (holds : inv made [] c) (call : Call)
    : inv made ((c.moves call).1.flatMap Move.brings) (c.moves call).2 := by
  cases call with
  | step now =>
      have brought : (c.moves (.step now)).1.flatMap Move.brings = (c.drain now).1 := by
        simp [SimCluster.moves, List.flatMap_map, Move.brings]
      rw [brought]
      exact kept.drain now holds
  | _ => exact holds

/-- An invariant that guarded moves keep is known at every transition of a guarded run. -/
theorem trace (kept : Preserved may guard inv) (holds : inv made [] c)
    (guarded : GuardedMoves guard made (trace c draws calls))
    : Along (Known may inv) made (Simulator.trace c draws calls) := by
  induction calls generalizing made c draws with
  | nil => exact along_nil
  | cons call rest ih =>
      obtain ⟨first, later⟩ := along_append.mp guarded
      obtain ⟨known, final⟩ := kept.visit (kept.moves holds call) first
      refine along_append.mpr ⟨known, ?_⟩
      rw [← SimCluster.run_eq_moves] at final
      cases ran : c.run call draws with
      | none => exact along_nil
      | some result =>
          simp only [ran] at later
          exact ih (final _ _ ran) later

/-- So it is known of every cluster the run goes through, and the run panics only if it may. -/
theorem states (kept : Preserved may guard inv) {start : SimCluster} (holds : inv [] [] start)
    (guarded : GuardedMoves guard [] (Simulator.trace start draws calls))
    : (∀ c ∈ Simulator.states start draws calls,
        ∃ made todo, made <+: Simulator.trace start draws calls ∧ inv made todo c)
      ∧ ∀ transition ∈ Simulator.trace start draws calls, transition.after = none → may := by
  have known := kept.trace holds guarded
  constructor
  · intro c visited
    rcases List.mem_cons.mp visited with rfl | later
    · exact ⟨[], [], List.nil_prefix, holds⟩
    · obtain ⟨transition, listed, within⟩ := List.mem_flatMap.mp later
      obtain ⟨past, rest, split⟩ := List.append_of_mem listed
      obtain ⟨before, after, -⟩ := known past transition rest split
      rcases List.mem_cons.mp within with rfl | reached
      · obtain ⟨todo, inside⟩ := before
        exact ⟨past, todo, ⟨_, split.symm⟩, inside⟩
      · obtain ⟨todo, inside⟩ := after c (Option.mem_toList.mp reached)
        exact ⟨past ++ [transition], todo, ⟨rest, by simp [split]⟩, inside⟩
  · intro transition listed panicked
    obtain ⟨past, rest, split⟩ := List.append_of_mem listed
    exact (known past transition rest split).panic panicked

end Preserved

/-- The number of proposals among the moves made. -/
def proposals (made : List Transition) : Nat :=
  made.countP fun transition => transition.move.isProposal

theorem proposals_visit_le (c : SimCluster) (draws : List U64) (moves : List Move)
    : proposals (visit c draws moves) ≤ moves.countP Move.isProposal := by
  induction moves generalizing c draws with
  | nil => exact Nat.zero_le _
  | cons move rest ih =>
      unfold visit
      split
      · simp only [proposals, List.countP_cons, List.countP_nil]
        omega
      · rename_i c' draws' moved
        have later := ih c' draws'
        simp only [proposals, List.countP_cons] at later ⊢
        omega

/-- A run makes no more proposals than it has calls that propose. -/
theorem proposals_trace_le (c : SimCluster) (draws : List U64) (calls : List Call)
    : proposals (trace c draws calls) ≤ calls.countP Call.isProposal := by
  induction calls generalizing c draws with
  | nil => exact Nat.zero_le _
  | cons call rest ih =>
      have first : (c.moves call).1.countP Move.isProposal
          = if call.isProposal then 1 else 0 := by
        cases call with
        | step now => simp [SimCluster.moves, Move.isProposal, Call.isProposal, Function.comp_def]
        | _ => rfl
      have moved := proposals_visit_le (c.moves call).2 draws (c.moves call).1
      have later : proposals
          (match c.run call draws with
            | none => []
            | some (c', draws) => trace c' draws rest)
          ≤ rest.countP Call.isProposal := by
        split
        · exact Nat.zero_le _
        · exact ih _ _
      rw [first] at moved
      simp only [trace, proposals, List.countP_append, List.countP_cons] at moved later ⊢
      omega

theorem proposals_append (made later : List Transition)
    : proposals (made ++ later) = proposals made + proposals later :=
  List.countP_append

theorem proposals_singleton (transition : Transition)
    : proposals [transition] = transition.move.proposes := by
  simp [proposals, Move.proposes, List.countP_cons]

/-- Each move of a run with few proposals finds few proposals made. -/
theorem few_proposals {bound : Nat} {draws : List U64} {calls : List Call}
    (few : calls.countP Call.isProposal < bound)
    : GuardedMoves (fun made _ move => proposals made + move.proposes < bound) []
        (trace start draws calls) := by
  intro past transition rest split
  have total := proposals_trace_le start draws calls
  rw [split, proposals_append, ← List.singleton_append, proposals_append,
    proposals_singleton] at total
  simp only [List.nil_append]
  omega

section Proposed

/-- The operations that moves propose, in order. -/
def proposedOps (made : List Transition) : List WorkloadOp :=
  made.filterMap fun transition => transition.move.op?

theorem proposedOps_append (made later : List Transition)
    : proposedOps (made ++ later) = proposedOps made ++ proposedOps later :=
  List.filterMap_append

theorem proposedOps_singleton (transition : Transition)
    : proposedOps [transition] = transition.move.op?.toList := by
  simp only [proposedOps, List.filterMap_cons, List.filterMap_nil]
  cases transition.move.op? <;> rfl

theorem proposedOps_visit (c : SimCluster) (draws : List U64) (moves : List Move)
    : (proposedOps (visit c draws moves)).Sublist (moves.filterMap Move.op?) := by
  induction moves generalizing c draws with
  | nil => exact .slnil
  | cons move rest ih =>
      have first (after : Option SimCluster) (later : List Transition)
          (kept : (proposedOps later).Sublist (rest.filterMap Move.op?))
          : (proposedOps (⟨c, move, after⟩ :: later)).Sublist
              ((move :: rest).filterMap Move.op?) := by
        unfold proposedOps at kept ⊢
        cases named : move.op? with
        | none => simpa [List.filterMap_cons, named] using kept
        | some op => simpa [List.filterMap_cons, named] using kept
      unfold visit
      split
      · exact first none [] (List.nil_sublist _)
      · exact first _ _ (ih _ _)

/-- A run proposes nothing that its calls do not. -/
theorem proposedOps_trace (c : SimCluster) (draws : List U64) (calls : List Call)
    : (proposedOps (trace c draws calls)).Sublist (calls.filterMap Call.op?) := by
  induction calls generalizing c draws with
  | nil => exact .slnil
  | cons call rest ih =>
      have named : (c.moves call).1.filterMap Move.op? = call.op?.toList := by
        cases call with
        | step now => simp [SimCluster.moves, Move.op?, Call.op?]
        | _ => rfl
      have moved := proposedOps_visit (c.moves call).2 draws (c.moves call).1
      rw [named] at moved
      have later : (proposedOps
          (match c.run call draws with
            | none => []
            | some (c', draws) => trace c' draws rest)).Sublist
          (rest.filterMap Call.op?) := by
        split
        · exact List.nil_sublist _
        · exact ih _ _
      have whole : (call :: rest).filterMap Call.op?
          = call.op?.toList ++ rest.filterMap Call.op? := by
        cases call <;> rfl
      rw [whole, trace, proposedOps, List.filterMap_append]
      exact moved.append later

end Proposed

section Ticks

/-- The ticks of the calls do not decrease. -/
def TicksOrdered (calls : List Call) : Prop :=
  (calls.filterMap Call.now).Pairwise (· ≤ ·)

instance decidableTicksOrdered (calls : List Call) : Decidable (TicksOrdered calls) :=
  inferInstanceAs (Decidable (List.Pairwise _ _))

variable {c : SimCluster} {draws : List U64}

theorem mem_moves_now {call : Call} {move : Move} (listed : move ∈ (c.moves call).1)
    : move.now = call.now := by
  cases call with
  | step now =>
      rcases List.mem_append.mp listed with delivers | ticks
      · obtain ⟨packet, -, rfl⟩ := List.mem_map.mp delivers
        rfl
      · cases List.mem_singleton.mp ticks
        rfl
  | _ =>
      cases List.mem_singleton.mp listed
      rfl

theorem mem_visit_move {moves : List Move} {transition : Transition}
    (listed : transition ∈ visit c draws moves)
    : transition.move ∈ moves := by
  induction moves generalizing c draws with
  | nil => cases listed
  | cons move rest ih =>
      unfold visit at listed
      split at listed
      · cases List.mem_singleton.mp listed
        exact List.mem_cons_self
      · rcases List.mem_cons.mp listed with rfl | later
        · exact List.mem_cons_self
        · exact List.mem_cons_of_mem _ (ih later)

/-- The moves made were made no later than this one, as far as they have a tick. -/
def Move.Follows (move : Move) (made : List Transition) : Prop :=
  ∀ earlier ∈ made, ∀ before now, earlier.move.now = some before → move.now = some now
    → before ≤ now

/-- If the ticks of the calls do not decrease, each move follows those already made. -/
theorem moves_follow {calls : List Call} (ordered : TicksOrdered calls) {start : SimCluster}
    : GuardedMoves (fun made _ move => move.Follows made) [] (trace start draws calls) := by
  suffices ∀ made,
      (∀ earlier ∈ made, ∀ before, earlier.move.now = some before
        → ∀ now ∈ calls.filterMap Call.now, before ≤ now)
      → GuardedMoves (fun made _ move => move.Follows made) made (trace start draws calls) from
    this [] nofun
  induction calls generalizing start draws with
  | nil => exact fun _ _ => along_nil
  | cons call rest ih =>
      intro made bounded
      have here {transition : Transition}
          (listed : transition ∈ visit (start.moves call).2 draws (start.moves call).1)
          : transition.move.now = call.now :=
        mem_moves_now (mem_visit_move listed)
      have sorted : (∀ before, call.now = some before
            → ∀ now ∈ rest.filterMap Call.now, before ≤ now)
          ∧ TicksOrdered rest := by
        unfold TicksOrdered at ordered
        cases tick : call.now with
        | none =>
            rw [List.filterMap_cons_none tick] at ordered
            exact ⟨nofun, ordered⟩
        | some now =>
            rw [List.filterMap_cons_some tick, List.pairwise_cons] at ordered
            exact ⟨fun before same => Option.some.inj same ▸ ordered.1, ordered.2⟩
      refine along_append.mpr ⟨fun past transition later split => ?_, ?_⟩
      · have listed : transition ∈ visit (start.moves call).2 draws (start.moves call).1 := by
          rw [split]
          exact List.mem_append_right _ List.mem_cons_self
        intro earlier made' before now was is
        rw [here listed] at is
        rcases List.mem_append.mp made' with old | new
        · refine bounded earlier old before was now ?_
          rw [List.filterMap_cons_some is]
          exact List.mem_cons_self
        · have same := here (split ▸ List.mem_append_left _ new)
          rw [was, is] at same
          exact le_of_eq (Option.some.inj same)
      · cases ran : start.run call draws with
        | none => exact along_nil
        | some result =>
            refine ih sorted.2 _ fun earlier made' before was now listed => ?_
            rcases List.mem_append.mp made' with old | new
            · refine bounded earlier old before was now ?_
              rw [List.mem_filterMap] at listed ⊢
              obtain ⟨call', member, tick⟩ := listed
              exact ⟨call', List.mem_cons_of_mem _ member, tick⟩
            · rw [here new] at was
              exact sorted.1 before was now listed

end Ticks

end TrustLedger.Simulator
