import TrustLedger.Foundation.Interleaving
import TrustLedger.Ingest.Service

/-! What becomes of the calls of a running service. In every schedule commands are processed in the
order the queue took them, and a call is answered by the reply to its own command, unless it was
turned away at the queue or the engine failed.
-/

namespace TrustLedger.Ingest

open Foundation LedgerCore WriteAheadLog

section Soundness

variable {engine : Engine} {s s' : Service} {i : Nat} {answer : Except Status Response}
  {command : IngestCommand} {rpc : Rpc} {clock : Nat → U64}

/-- Where the answer to a call comes from: the call was refused, at its conversion or at the queue,
the engine replied to its command, or the engine failed before it did.
-/
inductive AnswerOrigin (engine : Engine) (s : Service) (i : Nat) (call : RpcCall)
    : Except Status Response → Prop where
  | refused {err} (away : ∀ command ∈ s.accepted, command.respondTo.id ≠ i)
    (why : err = .queueSaturated ∨ err = .channelClosed
      ∨ ∃ clock, s.server.command clock ⟨i⟩ call.rpc = .error err)
    : AnswerOrigin engine s i call (.error err.status)
  | replied {before batch io after command reply result}
    (split : s.processed = before ++ (batch, io) :: after)
    (running : (engine.run before).result = .ok ()) (listed : command ∈ batch)
    (sender : command.respondTo.id = i)
    (sent : (command.respondTo, reply)
      ∈ ((engine.run before).engine.processBatch batch io).replies)
    (made : s.server.response call.rpc reply = some result)
    (expected : ∀ text, result ≠ .error (.internal text))
    : AnswerOrigin engine s i call (result.mapError ServerError.status)
  | closed {command err} (listed : command ∈ s.accepted) (sender : command.respondTo.id = i)
    (failed : s.returned = some (.error err))
    : AnswerOrigin engine s i call (.error ServerError.channelClosed.status)

/-- A later state of the service, as far as calls made before can tell. -/
structure Service.Extends (s s' : Service) : Prop where
  server : s'.server = s.server
  accepted : ∃ more, s'.accepted = s.accepted ++ more
    ∧ ∀ command ∈ more, s.calls.length ≤ command.respondTo.id
  processed : ∃ later, s'.processed = s.processed ++ later
  failed : ∀ err, s.returned = some (.error err) → s'.returned = some (.error err)

theorem AnswerOrigin.mono {call : RpcCall} (origin : AnswerOrigin engine s i call answer)
    (known : i < s.calls.length) (later : s.Extends s')
    : AnswerOrigin engine s' i call answer := by
  obtain ⟨more, accepted, fresh⟩ := later.accepted
  cases origin with
  | refused away why =>
      refine .refused (fun command listed => ?_) (later.server ▸ why)
      rw [accepted] at listed
      rcases List.mem_append.mp listed with old | new
      · exact away command old
      · exact fun same => absurd (fresh command new) (by omega)
  | replied split running listed sender sent made expected =>
      obtain ⟨rest, processed⟩ := later.processed
      have split' := processed
      rw [split, List.append_assoc, List.cons_append] at split'
      exact .replied split' running listed sender sent (later.server ▸ made) expected
  | closed listed sender failed =>
      exact .closed (accepted ▸ List.mem_append_left _ listed) sender (later.failed _ failed)

/-- What the engine's loop has returned, if it has not failed. -/
def resultOf : Option (Except IngestError Unit) → Except IngestError Unit
  | some (.error err) => .error err
  | _ => .ok ()

theorem eq_of_resultOf_error {returned : Option (Except IngestError Unit)} {err : IngestError}
    (failed : resultOf returned = .error err)
    : returned = some (.error err) := by
  unfold resultOf at failed
  split at failed <;> cases failed
  rfl

/-- Commands go through the queue in order, and every call waits or has its answer. -/
structure Service.Sound (engine : Engine) (s : Service) : Prop where
  order : (s.processed.map Prod.fst).flatten ++ s.batch ++ s.queue ++ s.dropped = s.accepted
  /-- Only a failure of the engine drops anything. -/
  dropped : (∀ err, s.returned ≠ some (.error err)) → s.dropped = []
  bounded : s.queue.length ≤ s.capacity
  /-- No two commands have the same reply channel. -/
  placed : s.accepted.Pairwise fun a b => a.respondTo.id < b.respondTo.id
  origin : ∀ command ∈ s.accepted, ∃ call clock, s.calls[command.respondTo.id]? = some call
    ∧ s.server.command clock command.respondTo call.rpc = .ok command
  /-- The engine has run exactly the micro-batches processed. -/
  ran : s.engine = (engine.run s.processed).engine
  result : (engine.run s.processed).result = resultOf s.returned
  /-- Only the last micro-batch processed can have failed. -/
  earlier : ∀ before last, s.processed = before ++ [last] → (engine.run before).result = .ok ()
  stopped : s.returned ≠ none → s.batch = [] ∧ s.queue = []
  /-- A call waits exactly as long as its command does. -/
  waiting
    : ∀ (i : Nat) (call : RpcCall), s.calls[i]? = some call
      → (call.answer = none ↔ ∃ command ∈ s.batch ++ s.queue, command.respondTo.id = i)
  answered
    : ∀ (i : Nat) (call : RpcCall) (answer : Except Status Response), s.calls[i]? = some call
      → call.answer = some answer → AnswerOrigin engine s i call answer

theorem Service.Sound.mem_accepted (sound : s.Sound engine) (member : command ∈ s.batch ++ s.queue)
    : command ∈ s.accepted := by
  rw [← sound.order]
  rcases List.mem_append.mp member with there | there <;> simp [there]

theorem Service.Sound.known (sound : s.Sound engine) (member : command ∈ s.accepted)
    : command.respondTo.id < s.calls.length := by
  obtain ⟨call, -, found, -⟩ := sound.origin command member
  exact (List.getElem?_eq_some_iff.mp found).1

theorem Service.Sound.running (sound : s.Sound engine) (running : s.returned = none)
    : (engine.run s.processed).result = .ok () := by
  rw [sound.result, running]
  rfl

theorem Service.Sound.earlier_snoc (sound : s.Sound engine) (running : s.returned = none)
    {next : List IngestCommand × AppendIo} (before : List MicroBatch)
    (last : List IngestCommand × AppendIo) (split : s.processed ++ [next] = before ++ [last])
    : (engine.run before).result = .ok () := by
  obtain ⟨rfl, -⟩ := List.append_inj' split rfl
  exact sound.running running

theorem Service.sound_start (server : LedgerServer) (maxBatchSize capacity : Nat) (engine : Engine)
    : (Service.start server maxBatchSize capacity engine).Sound engine where
  order := rfl
  bounded := Nat.zero_le _
  placed := .nil
  origin command listed := by cases listed
  ran := rfl
  result := rfl
  earlier before last split := by simp [Service.start] at split
  stopped returned := absurd rfl returned
  dropped _ := rfl
  waiting i call found := by simp [Service.start] at found
  answered i call answer found := by simp [Service.start] at found

theorem Service.enter_ok (admitted : s.enter rpc clock = .ok s')
    : ∃ command, s.server.command clock ⟨s.calls.length⟩ rpc = .ok command
        ∧ s.returned = none ∧ s.queue.length < s.capacity
        ∧ s' = { s with queue := s.queue ++ [command], accepted := s.accepted ++ [command] } := by
  obtain ⟨command, converted, submitted⟩ := bind_eq_ok.mp admitted
  unfold Service.submit at submitted
  split at submitted
  · cases submitted
  · rename_i running
    split at submitted
    · cases submitted
    · rename_i room
      cases submitted
      exact ⟨command, converted, by simpa using running, Nat.lt_of_not_le room, rfl⟩

theorem Service.enter_error {err : ServerError} (refused : s.enter rpc clock = .error err)
    : err = .queueSaturated ∨ err = .channelClosed
      ∨ ∃ clock, s.server.command clock ⟨s.calls.length⟩ rpc = .error err := by
  unfold Service.enter at refused
  cases converted : s.server.command clock ⟨s.calls.length⟩ rpc with
  | error why =>
      rw [converted] at refused
      cases refused
      exact .inr (.inr ⟨clock, converted⟩)
  | ok command =>
      rw [converted] at refused
      simp only [Bind.bind, Except.bind, Service.submit] at refused
      split at refused
      · cases refused
        exact .inr (.inl rfl)
      · split at refused
        · cases refused
          exact .inl rfl
        · cases refused

theorem RpcCall.answeredWith_rpc (server : LedgerServer) (call : RpcCall) (reply : Option Reply)
    : (call.answeredWith server reply).rpc = call.rpc := by
  cases reply with
  | none => rfl
  | some reply =>
      simp only [RpcCall.answeredWith, RpcCall.receive]
      split <;> rfl

theorem RpcCall.close_answer (call : RpcCall)
    : (∃ answer, call.answer = some answer ∧ call.close = call)
      ∨ call.answer = none
        ∧ call.close = ⟨call.rpc, some (.error ServerError.channelClosed.status)⟩ := by
  unfold RpcCall.close
  cases said : call.answer with
  | none => exact .inr ⟨rfl, rfl⟩
  | some answer => exact .inl ⟨answer, rfl, rfl⟩

theorem Service.Extends.afterBatch (s : Service) (io : AppendIo) : s.Extends (s.afterBatch io) :=
  ⟨rfl, ⟨[], by simp [Service.afterBatch], by simp⟩, ⟨_, rfl⟩, fun _ => id⟩

variable (sound : s.Sound engine)

include sound

theorem Service.Sound.origin_snoc (listed : command ∈ s.accepted) (new : RpcCall)
    : ∃ call clock, (s.calls ++ [new])[command.respondTo.id]? = some call
        ∧ s.server.command clock command.respondTo call.rpc = .ok command := by
  obtain ⟨call, clock, found, converted⟩ := sound.origin command listed
  exact ⟨call, clock, (List.getElem?_append_left (sound.known listed)).trans found, converted⟩

/-- A call that is refused has its answer at once. -/
theorem Service.Sound.refuse {err : ServerError} (refused : s.enter rpc clock = .error err)
    : Service.Sound engine { s with calls := s.calls ++ [⟨rpc, some (.error err.status)⟩] } := by
  refine
    {
      sound with
      origin := fun command listed => sound.origin_snoc listed _
      waiting := fun i call found => ?_
      answered := fun i call answer found said => ?_
    }
  · rcases Pool.getElem?_snoc_cases found with ⟨-, old⟩ | ⟨rfl, rfl⟩
    · exact sound.waiting i call old
    · refine ⟨fun none => (by cases none), ?_⟩
      rintro ⟨command, member, same⟩
      have known := sound.known (sound.mem_accepted member)
      exact absurd same known.ne
  · rcases Pool.getElem?_snoc_cases found with ⟨known, old⟩ | ⟨rfl, rfl⟩
    · exact (sound.answered i call answer old said).mono known
        ⟨rfl, ⟨[], by simp, by simp⟩, ⟨[], by simp⟩, fun _ => id⟩
    · cases said
      exact .refused (fun command listed => (sound.known listed).ne) (Service.enter_error refused)

/-- A call that is admitted waits for its command, the last one in the queue. -/
theorem Service.Sound.admit
    (converted : s.server.command clock ⟨s.calls.length⟩ rpc = .ok command)
    (running : s.returned = none) (room : s.queue.length < s.capacity)
    : Service.Sound engine
        {
          s with
          queue := s.queue ++ [command]
          accepted := s.accepted ++ [command]
          calls := s.calls ++ [⟨rpc, none⟩]
        } := by
  have sender := LedgerServer.command_sender converted
  have own : command.respondTo.id = s.calls.length := by rw [sender]
  have dropped : s.dropped = [] := sound.dropped fun err => by simp [running]
  refine
    {
      sound with
      order := ?_
      bounded := ?_
      placed := ?_
      origin := fun other listed => ?_
      stopped := fun returned => absurd running returned
      waiting := fun i call found => ?_
      answered := fun i call answer found said => ?_
    }
  · have order := sound.order
    rw [dropped, List.append_nil] at order ⊢
    rw [← order]
    simp only [List.append_assoc]
  · simpa using room
  · refine List.pairwise_append.mpr ⟨sound.placed, List.pairwise_singleton _ _, ?_⟩
    intro old listed new fresh
    rw [List.mem_singleton.mp fresh, own]
    exact sound.known listed
  · rcases List.mem_append.mp listed with old | new
    · exact sound.origin_snoc old _
    · rw [List.mem_singleton.mp new]
      exact ⟨⟨rpc, none⟩, clock, by simp [own], by rw [sender]; exact converted⟩
  · simp only [← List.append_assoc, List.mem_append (s := s.batch ++ s.queue), List.mem_singleton]
    rcases Pool.getElem?_snoc_cases found with ⟨known, old⟩ | ⟨rfl, rfl⟩
    · rw [sound.waiting i call old]
      constructor
      · rintro ⟨other, member, same⟩
        exact ⟨other, .inl member, same⟩
      · rintro ⟨other, member | rfl, same⟩
        · exact ⟨other, member, same⟩
        · omega
    · exact ⟨fun _ => ⟨command, .inr rfl, own⟩, fun _ => rfl⟩
  · rcases Pool.getElem?_snoc_cases found with ⟨known, old⟩ | ⟨rfl, rfl⟩
    · refine (sound.answered i call answer old said).mono known
        ⟨rfl, ⟨[command], rfl, fun other listed => ?_⟩, ⟨[], by simp⟩, fun _ => id⟩
      rw [List.mem_singleton.mp listed, own]
    · cases said

theorem Service.Sound.call (rpc : Rpc) (clock : Nat → U64) : (s.call rpc clock).Sound engine := by
  unfold Service.call
  cases admitted : s.enter rpc clock with
  | error err => exact sound.refuse admitted
  | ok s' =>
      obtain ⟨command, converted, running, room, rfl⟩ := Service.enter_ok admitted
      exact sound.admit converted running room

theorem Service.Sound.receive : s.receive.Sound engine := by
  unfold Service.receive
  split
  · exact sound
  · rename_i command rest queued
    split
    · rename_i may
      have same : s.batch ++ [command] ++ rest = s.batch ++ s.queue := by
        rw [queued, List.append_assoc, List.singleton_append]
      refine
        {
          sound with
          order := ?_
          bounded := ?_
          stopped := fun returned => absurd may.1 returned
          waiting := fun i call found => ?_
          answered := fun i call answer found said => ?_
        }
      · rw [← sound.order, List.append_assoc _ (s.batch ++ [command]) rest, same]
        simp only [List.append_assoc]
      · have bound := sound.bounded
        rw [queued] at bound
        exact (Nat.le_succ _).trans bound
      · simp only [same]
        exact sound.waiting i call found
      · exact (sound.answered i call answer found said).mono
          (List.getElem?_eq_some_iff.mp found).1
            ⟨rfl, ⟨[], by simp, by simp⟩, ⟨[], by simp⟩, fun _ => id⟩
    · exact sound

/-- Commands that have not been processed wait on channels of their own. -/
theorem Service.Sound.distinct : ((s.batch ++ s.queue).map IngestCommand.respondTo).Nodup := by
  have part : (s.batch ++ s.queue).Sublist s.accepted := by
    rw [← sound.order, List.append_assoc _ s.batch]
    exact (List.sublist_append_right _ _).trans (List.sublist_append_left _ _)
  have apart := sound.placed.sublist part
  refine List.pairwise_map.mpr (apart.imp fun early same => ?_)
  rw [same] at early
  exact absurd early (lt_irrefl _)

/-- A reply finds its call waiting. -/
theorem Service.Sound.reply {io : AppendIo} {call : RpcCall}
    {reply : Reply} (found : s.calls[i]? = some call)
    (sent : (s.engine.processBatch s.batch io).replies.lookup ⟨i⟩ = some reply)
    : ∃ command ∈ s.batch, command.respondTo = ⟨i⟩
        ∧ (command.respondTo, reply) ∈ (s.engine.processBatch s.batch io).replies
        ∧ ∃ result, s.server.response call.rpc reply = some result
          ∧ (∀ text, result ≠ .error (.internal text))
          ∧ call.answeredWith s.server (some reply)
            = ⟨call.rpc, some (result.mapError ServerError.status)⟩ := by
  have member := lookup_mem sent
  obtain ⟨command, listed, sender, answered⟩ := mem_replies member
  have waits : command ∈ s.batch ++ s.queue := List.mem_append_left _ listed
  obtain ⟨owner, clock, there, converted⟩ := sound.origin command (sound.mem_accepted waits)
  rw [sender] at there
  obtain rfl : call = owner := Option.some.inj (found.symm.trans there)
  obtain ⟨result, made, expected⟩ := response_isSome converted answered
  have waiting := (sound.waiting i call found).mpr ⟨command, waits, by rw [sender]⟩
  refine ⟨command, listed, sender, by rw [sender]; exact member, result, made, expected, ?_⟩
  simp [RpcCall.answeredWith, RpcCall.receive, waiting, made]

theorem Service.Sound.getElem?_answeredCalls (io : AppendIo) (i : Nat)
    : (s.answeredCalls io)[i]?
      = s.calls[i]?.map fun call => call.answeredWith s.server
          ((s.engine.processBatch s.batch io).replies.lookup ⟨i⟩) := by
  have distinct := sound.distinct
  rw [List.map_append] at distinct
  exact getElem?_deliver (replies_senders distinct.of_append_left) s.calls i

/-- The answers after the replies to a micro-batch: those there were, and the replies. -/
theorem Service.Sound.answeredCalls (io : AppendIo)
    (running : s.returned = none) (later : s.Extends s')
    (processed : s'.processed = s.processed ++ [(s.batch, io)]) {call : RpcCall}
    (found : (s.answeredCalls io)[i]? = some call) (said : call.answer = some answer)
    : AnswerOrigin engine s' i call answer := by
  rw [sound.getElem?_answeredCalls] at found
  obtain ⟨before, there, rfl⟩ := Option.map_eq_some_iff.mp found
  cases sent : (s.engine.processBatch s.batch io).replies.lookup ⟨i⟩ with
  | none =>
      rw [sent] at said
      exact (sound.answered i before answer there said).mono
        (List.getElem?_eq_some_iff.mp there).1 later
  | some reply =>
      obtain ⟨command, listed, sender, member, result, made, expected, now⟩ :=
        sound.reply there sent
      rw [sent, now] at said
      cases said
      rw [now]
      rw [sound.ran] at member
      exact .replied processed (sound.running running) listed (by rw [sender]) member
        (later.server ▸ made) expected

theorem Service.Sound.origin_after (io : AppendIo) (listed : command ∈ s.accepted)
    : ∃ call clock, (s.answeredCalls io)[command.respondTo.id]? = some call
        ∧ s.server.command clock command.respondTo call.rpc = .ok command := by
  obtain ⟨call, clock, found, converted⟩ := sound.origin command listed
  have now := sound.getElem?_answeredCalls io command.respondTo.id
  rw [found, Option.map_some] at now
  refine ⟨_, clock, now, ?_⟩
  rw [RpcCall.answeredWith_rpc]
  exact converted

/-- A micro-batch that is committed: its calls have their answers, and the others wait on. -/
theorem Service.Sound.committed {io : AppendIo} (running : s.returned = none)
    (ok : (s.engine.processBatch s.batch io).result = .ok ())
    : (s.afterBatch io).Sound engine := by
  have ran := Engine.run_append (sound.running running) s.batch io
  rw [← sound.ran] at ran
  refine
    {
      order := ?_
      bounded := sound.bounded
      placed := sound.placed
      origin := fun command listed => sound.origin_after io listed
      ran := (congrArg Processed.engine ran).symm
      result := (congrArg Processed.result ran).trans ?_
      earlier := sound.earlier_snoc running
      stopped := fun returned => absurd running returned
      dropped := sound.dropped
      waiting := fun i call found => ?_
      answered := fun i call answer found said =>
        sound.answeredCalls io running (.afterBatch s io) rfl found said
    }
  · rw [Service.afterBatch, ← sound.order]
    simp
  · rw [Service.afterBatch, running]
    exact ok
  · replace found := found.symm.trans (sound.getElem?_answeredCalls io i)
    obtain ⟨call, there, rfl⟩ := Option.map_eq_some_iff.mp found.symm
    simp only [Service.afterBatch, List.nil_append]
    cases sent : (s.engine.processBatch s.batch io).replies.lookup ⟨i⟩ with
    | some reply =>
        obtain ⟨command, listed, sender, -, result, -, -, now⟩ := sound.reply there sent
        rw [now]
        refine ⟨fun none => (by cases none), ?_⟩
        rintro ⟨other, queued, same⟩
        -- the answered command is in the batch, so none in the queue has its channel
        have apart := sound.distinct
        rw [List.map_append] at apart
        have clash : other.respondTo = command.respondTo := by
          rw [sender, ← same]
        have there : command.respondTo ∈ s.queue.map IngestCommand.respondTo :=
          List.mem_map.mpr ⟨other, queued, clash⟩
        exact (List.disjoint_of_nodup_append apart (List.mem_map_of_mem listed) there).elim
    | none =>
        rw [RpcCall.answeredWith, sound.waiting i call there]
        constructor
        · rintro ⟨command, member, same⟩
          rcases List.mem_append.mp member with listed | queued
          · have answered := (committed_senders ok).mem_iff.mpr (List.mem_map_of_mem listed)
            have here : command.respondTo = ⟨i⟩ := by rw [← same]
            rw [here] at answered
            exact absurd sent (lookup_isSome answered)
          · exact ⟨command, queued, same⟩
        · rintro ⟨command, queued, same⟩
          exact ⟨command, List.mem_append_right _ queued, same⟩

/-- A micro-batch that fails: every call has an answer, and the engine is gone. -/
theorem Service.Sound.failed {io : AppendIo} (running : s.returned = none)
    {err : IngestError} (result : (s.engine.processBatch s.batch io).result = .error err)
    : (s.afterFailure io err).Sound engine := by
  have ran := Engine.run_append (sound.running running) s.batch io
  rw [← sound.ran] at ran
  have order := sound.order
  rw [sound.dropped fun err => by simp [running], List.append_nil] at order
  have later : s.Extends (s.afterFailure io err) := by
    refine { Service.Extends.afterBatch s io with failed := fun err failed => ?_ }
    rw [running] at failed
    cases failed
  refine
    {
      order := ?_
      bounded := Nat.zero_le _
      placed := sound.placed
      origin := fun command listed => ?_
      ran := (congrArg Processed.engine ran).symm
      result := (congrArg Processed.result ran).trans result
      earlier := sound.earlier_snoc running
      stopped := fun _ => ⟨rfl, rfl⟩
      dropped := fun none => absurd rfl (none err)
      waiting := fun i call found => ?_
      answered := fun i call answer found said => ?_
    }
  · rw [Service.afterFailure, Service.afterBatch, ← order]
    simp
  · obtain ⟨call, clock, found, converted⟩ := sound.origin_after io listed
    refine ⟨call.close, clock, ?_, ?_⟩
    · rw [Service.afterFailure, List.getElem?_map, found, Option.map_some]
    · rcases call.close_answer with ⟨-, -, same⟩ | ⟨-, closed⟩
      · rw [same]
        exact converted
      · rw [closed]
        exact converted
  · rw [Service.afterFailure, List.getElem?_map] at found
    obtain ⟨call, -, rfl⟩ := Option.map_eq_some_iff.mp found
    refine ⟨fun none => ?_, ?_⟩
    · rcases call.close_answer with ⟨answer, said, same⟩ | ⟨-, closed⟩
      · rw [same, said] at none
        cases none
      · rw [closed] at none
        cases none
    · rintro ⟨command, member, -⟩
      cases member
  · rw [Service.afterFailure, List.getElem?_map] at found
    obtain ⟨call, there, rfl⟩ := Option.map_eq_some_iff.mp found
    rcases call.close_answer with ⟨_, -, same⟩ | ⟨silent, closed⟩
    · rw [same] at said ⊢
      exact sound.answeredCalls io running later rfl there said
    · rw [closed] at said
      cases said
      -- a call without a reply was waiting before
      rw [sound.getElem?_answeredCalls] at there
      obtain ⟨before, waited, rfl⟩ := Option.map_eq_some_iff.mp there
      cases sent : (s.engine.processBatch s.batch io).replies.lookup ⟨i⟩ with
      | some reply =>
          obtain ⟨_, _, _, _, _, _, _, now⟩ := sound.reply waited sent
          rw [sent, now] at silent
          cases silent
      | none =>
          rw [sent] at silent
          obtain ⟨command, waits, sender⟩ := (sound.waiting i before waited).mp silent
          exact .closed (sound.mem_accepted waits) sender rfl

theorem Service.Sound.process (io : AppendIo) : (s.process io).Sound engine := by
  unfold Service.process
  split
  · rename_i may
    cases result : (s.engine.processBatch s.batch io).result with
    | ok value => exact sound.committed may.1 result
    | error err => exact sound.failed may.1 result
  · exact sound

theorem Service.Sound.finish : s.finish.Sound engine := by
  unfold Service.finish
  split
  · rename_i may
    obtain ⟨-, running, queue, batch⟩ := may
    refine
      {
        sound with
        result := sound.result.trans (by rw [running]; rfl)
        stopped := fun _ => ⟨batch, queue⟩
        dropped := fun _ => sound.dropped fun err => by simp [running]
        answered := fun i call answer found said => ?_
      }
    refine (sound.answered i call answer found said).mono (List.getElem?_eq_some_iff.mp found).1
      ⟨rfl, ⟨[], by simp, by simp⟩, ⟨[], by simp⟩, fun err failed => ?_⟩
    rw [running] at failed
    cases failed
  · exact sound

theorem Service.Sound.hangUp : Service.Sound engine { s with connected := false } :=
  {
    sound with
    answered := fun i call answer found said =>
      (sound.answered i call answer found said).mono (List.getElem?_eq_some_iff.mp found).1
        ⟨rfl, ⟨[], by simp, by simp⟩, ⟨[], by simp⟩, fun _ => id⟩
  }

theorem Service.Sound.step (event : ServiceEvent) : (s.step event).Sound engine := by
  cases event with
  | call rpc clock =>
      simp only [Service.step]
      split
      · exact sound.call rpc clock
      · exact sound
  | receive => exact sound.receive
  | process io => exact sound.process io
  | hangUp => exact sound.hangUp
  | finish => exact sound.finish

theorem Service.Sound.run (events : List ServiceEvent) : (s.run events).Sound engine := by
  induction events generalizing s with
  | nil => exact sound
  | cons event rest ih => exact ih (sound.step event)

end Soundness

/-- In every order of calls, receipts, micro-batches and shutdown, with appends to the log that
succeed or fail: commands are processed in the order the queue took them, and each call is answered
by the reply to its own command, unless it was turned away at the queue or the engine failed. Once
the engine has returned, nobody waits any more.
-/
theorem calls_served_in_order (server : LedgerServer) (maxBatchSize capacity : Nat)
    (engine : Engine) (events : List ServiceEvent)
    : ((Service.start server maxBatchSize capacity engine).run events).Sound engine
      ∧ (((Service.start server maxBatchSize capacity engine).run events).returned ≠ none
        → ∀ call ∈ ((Service.start server maxBatchSize capacity engine).run events).calls,
            call.answer ≠ none) := by
  have sound := (Service.sound_start server maxBatchSize capacity engine).run events
  refine ⟨sound, fun returned call listed silent => ?_⟩
  obtain ⟨i, found⟩ := List.mem_iff_getElem?.mp listed
  obtain ⟨command, waits, -⟩ := (sound.waiting i call found).mp silent
  obtain ⟨batch, queue⟩ := sound.stopped returned
  rw [batch, queue] at waits
  cases waits

end TrustLedger.Ingest
