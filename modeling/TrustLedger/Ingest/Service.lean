import TrustLedger.Ingest.Replies
import TrustLedger.Ingest.Server

/-! The running service: remote calls submit commands to a bounded queue, and the engine's loop
takes them out, gathers micro-batches, and answers. Calls, receipts and batches may come in any
order; when a batch ends is left open, as it depends on the clock. An engine that has returned is
dropped, and with it the queue and every reply channel it still held.
-/

namespace TrustLedger.Ingest

open Foundation LedgerCore WriteAheadLog

/-- A remote call and what it was answered; nothing while it waits. -/
structure RpcCall where
  rpc : Rpc
  answer : Option (Except Status Response)
  deriving DecidableEq, Repr

/-- Take a reply, unless the channel was used before. -/
def RpcCall.receive (server : LedgerServer) (reply : Reply) (call : RpcCall) : RpcCall :=
  match call.answer, server.response call.rpc reply with
  | none, some result => { call with answer := some (result.mapError ServerError.status) }
  | _, _ => call

/-- The sender of the reply channel was dropped. -/
def RpcCall.close (call : RpcCall) : RpcCall :=
  match call.answer with
  | none => { call with answer := some (.error ServerError.channelClosed.status) }
  | some _ => call

/-- The server, the queue, and the engine with the micro-batch it is gathering. A call's place in
`calls` is the identity of its reply channel. The last three fields are history: the commands the
queue took, the micro-batches processed, and what was in the queue when the engine failed.
-/
structure Service where
  server : LedgerServer
  maxBatchSize : Nat
  capacity : Nat
  engine : Engine
  queue : List IngestCommand := []
  batch : List IngestCommand := []
  connected : Bool := true
  returned : Option (Except IngestError Unit) := none
  calls : List RpcCall := []
  accepted : List IngestCommand := []
  processed : List MicroBatch := []
  dropped : List IngestCommand := []

/-- What can happen next. -/
inductive ServiceEvent where
  /-- A call arrives. -/
  | call (rpc : Rpc) (clock : Nat → U64)
  /-- The engine takes a command out of the queue. -/
  | receive
  /-- The micro-batch is full, or its time is over. -/
  | process (io : AppendIo)
  /-- The last sender of the queue is dropped. -/
  | hangUp
  /-- The engine finds the queue empty and disconnected. -/
  | finish

namespace Service

/-- Submit a command; nothing waits for room in the queue. -/
def submit (command : IngestCommand) (s : Service) : Except ServerError Service :=
  if s.returned.isSome then .error .channelClosed
  else if s.capacity ≤ s.queue.length then .error .queueSaturated
  else .ok { s with queue := s.queue ++ [command], accepted := s.accepted ++ [command] }

/-- Convert a call and submit it. The handler then waits for the reply. -/
def enter (rpc : Rpc) (clock : Nat → U64) (s : Service) : Except ServerError Service := do
  s.submit (← s.server.command clock ⟨s.calls.length⟩ rpc)

def call (rpc : Rpc) (clock : Nat → U64) (s : Service) : Service :=
  match s.enter rpc clock with
  | .ok s' => { s' with calls := s.calls ++ [⟨rpc, none⟩] }
  | .error err => { s with calls := s.calls ++ [⟨rpc, some (.error err.status)⟩] }

/-- Take the next command. A first command is always taken, further ones up to the batch size. -/
def receive (s : Service) : Service :=
  match s.queue with
  | [] => s
  | command :: rest =>
      if s.returned = none ∧ (s.batch = [] ∨ s.batch.length < s.maxBatchSize) then
        { s with queue := rest, batch := s.batch ++ [command] }
      else s

/-- Hand a reply to the call that waits for it. -/
def deliver (server : LedgerServer) (calls : List RpcCall) (sent : Sender × Reply) : List RpcCall :=
  calls.modify sent.1.id (RpcCall.receive server sent.2)

/-- The calls after the replies to a micro-batch. -/
def answeredCalls (io : AppendIo) (s : Service) : List RpcCall :=
  (s.engine.processBatch s.batch io).replies.foldl (deliver s.server) s.calls

/-- The micro-batch is processed. -/
def afterBatch (io : AppendIo) (s : Service) : Service :=
  {
    s with
    engine := (s.engine.processBatch s.batch io).engine
    batch := []
    processed := s.processed ++ [(s.batch, io)]
    calls := s.answeredCalls io
  }

/-- The loop has returned with an error, and every channel that was left is dropped. -/
def afterFailure (io : AppendIo) (err : IngestError) (s : Service) : Service :=
  {
    s.afterBatch io with
    returned := some (.error err)
    queue := []
    dropped := s.queue
    calls := (s.answeredCalls io).map RpcCall.close
  }

/-- Process the micro-batch that was gathered. -/
def process (io : AppendIo) (s : Service) : Service :=
  if s.returned = none ∧ s.batch ≠ [] then
    match (s.engine.processBatch s.batch io).result with
    | .ok _ => s.afterBatch io
    | .error err => s.afterFailure io err
  else s

def finish (s : Service) : Service :=
  if s.connected = false ∧ s.returned = none ∧ s.queue = [] ∧ s.batch = [] then
    { s with returned := some (.ok ()) }
  else s

def step (s : Service) : ServiceEvent → Service
  | .call rpc clock => if s.connected then s.call rpc clock else s
  | .receive => s.receive
  | .process io => s.process io
  | .hangUp => { s with connected := false }
  | .finish => s.finish

/-- The service after a schedule. -/
def run (s : Service) (events : List ServiceEvent) : Service :=
  events.foldl step s

/-- A service that has just been started. -/
def start (server : LedgerServer) (maxBatchSize capacity : Nat) (engine : Engine) : Service :=
  { server, maxBatchSize, capacity, engine }

end Service

section Delivery

variable {server : LedgerServer} {replies : List (Sender × Reply)} {sender : Sender} {reply : Reply}
  {operation : Proto.Operation} {op : IngestOp} {l : Ledger} {clock : Nat → U64} {rpc : Rpc}
  {command : IngestCommand}

/-- A call after its reply, if there is one. -/
def RpcCall.answeredWith (server : LedgerServer) (call : RpcCall) : Option Reply → RpcCall
  | some reply => call.receive server reply
  | none => call

/-- Replies on channels of their own reach each call once. -/
theorem getElem?_deliver (distinct : (replies.map Prod.fst).Nodup) (calls : List RpcCall) (i : Nat)
    : (replies.foldl (Service.deliver server) calls)[i]?
      = calls[i]?.map fun call => call.answeredWith server (replies.lookup ⟨i⟩) := by
  induction replies generalizing calls with
  | nil => simp [RpcCall.answeredWith]
  | cons sent rest ih =>
      obtain ⟨sender, reply⟩ := sent
      obtain ⟨absent, distinctRest⟩ := List.nodup_cons.mp distinct
      rw [List.foldl_cons, ih distinctRest, Service.deliver, List.getElem?_modify]
      by_cases here : sender = ⟨i⟩
      · subst here
        have unsent : rest.lookup ⟨i⟩ = none := by
          refine List.lookup_eq_none_iff.mpr fun other member => bne_iff_ne.mpr fun same => ?_
          exact absent (List.mem_map.mpr ⟨other, member, same.symm⟩)
        simp [unsent, RpcCall.answeredWith, Function.comp_def]
      · have elsewhere : sender.id ≠ i := fun same => here (by cases sender; exact congrArg _ same)
        have other : ((⟨i⟩ : Sender) == sender) = false := by
          simpa using fun same : (⟨i⟩ : Sender) = sender => here same.symm
        simp [List.lookup_cons, other, elsewhere]

theorem lookup_mem (found : replies.lookup sender = some reply) : (sender, reply) ∈ replies := by
  obtain ⟨before, after, rfl, -⟩ := List.lookup_eq_some_iff.mp found
  simp

theorem lookup_isSome (sent : sender ∈ replies.map Prod.fst) : replies.lookup sender ≠ none := by
  intro unsent
  obtain ⟨answer, member, same⟩ := List.mem_map.mp sent
  exact bne_iff_ne.mp (List.lookup_eq_none_iff.mp unsent answer member) same.symm

theorem operationOp_target (converted : server.operationOp operation = .ok op)
    : (∃ req id, operation = .createAccount req ∧ op.target = .account id)
      ∨ (∀ req, operation ≠ .createAccount req) ∧ ∃ id, op.target = .transfer id := by
  cases operation with
  | createAccount req =>
      obtain ⟨accountType, -, later⟩ := bind_eq_ok.mp converted
      obtain ⟨scale, -, returned⟩ := bind_eq_ok.mp later
      cases returned
      exact .inl ⟨req, _, rfl, rfl⟩
  | createTransfer req | createPending req | postPending req =>
      obtain ⟨amount, -, returned⟩ := bind_eq_ok.mp converted
      cases returned
      exact .inr ⟨by simp, _, rfl⟩
  | voidPending req =>
      cases converted
      exact .inr ⟨by simp, _, rfl⟩

/-- The entity that an operation is about is the one its response shows. -/
theorem mutationResponse_ok {result : MutationResult}
    (converted : server.operationOp operation = .ok op) (finds : op.target.Finds l result)
    : ∃ response, server.mutationResponse operation result = .ok response := by
  rcases operationOp_target converted with ⟨req, id, rfl, target⟩ | ⟨other, id, target⟩
  · rw [target] at finds
    cases result with
    | account account => exact ⟨_, rfl⟩
    | transfer transfer => exact finds.elim
  · rw [target] at finds
    cases result with
    | account account => exact finds.elim
    | transfer transfer =>
        cases operation with
        | createAccount req => exact absurd rfl (other req)
        | _ => exact ⟨_, rfl⟩

/-- A reply that answers a call's command is one the call's channel can carry, and no response fails
to be what was expected.
-/
theorem response_isSome (converted : server.command clock sender rpc = .ok command)
    (answered : command.AnsweredBy l reply)
    : ∃ result, server.response rpc reply = some result
        ∧ ∀ text, result ≠ .error (.internal text) := by
  cases rpc with
  | mutate operation =>
      obtain ⟨op, converts, returned⟩ := bind_eq_ok.mp converted
      cases returned
      cases reply with
      | mutation result =>
          refine ⟨_, rfl, fun text => ?_⟩
          cases result with
          | error err => simp [Except.mapError, Bind.bind, Except.bind]
          | ok value =>
              obtain ⟨response, made⟩ := mutationResponse_ok converts answered.2
              simp [Except.mapError, Bind.bind, Except.bind, made]
      | batch | account | transfer => exact answered.elim
  | getAccount id idHigh =>
      cases converted
      cases reply with
      | account result =>
          exact ⟨_, rfl, fun text => by cases result <;> simp [Except.mapError, Except.map]⟩
      | batch | mutation | transfer => exact answered.elim
  | getTransfer id idHigh =>
      cases converted
      cases reply with
      | transfer result =>
          exact ⟨_, rfl, fun text => by cases result <;> simp [Except.mapError, Except.map]⟩
      | batch | mutation | account => exact answered.elim
  | applyBatch operations =>
      obtain ⟨ops, -, returned⟩ := bind_eq_ok.mp converted
      cases returned
      cases reply with
      | batch result =>
          exact ⟨_, rfl, fun text => by cases result <;> simp [Except.mapError, Except.map]⟩
      | account | mutation | transfer => exact answered.elim

theorem LedgerServer.command_sender (converted : server.command clock sender rpc = .ok command)
    : command.respondTo = sender := by
  cases rpc with
  | mutate operation =>
      obtain ⟨op, -, returned⟩ := bind_eq_ok.mp converted
      cases returned
      rfl
  | getAccount id idHigh =>
      cases converted
      rfl
  | getTransfer id idHigh =>
      cases converted
      rfl
  | applyBatch operations =>
      obtain ⟨ops, -, returned⟩ := bind_eq_ok.mp converted
      cases returned
      rfl

theorem Engine.run_append {e : Engine} {calls : List MicroBatch}
    (ok : (e.run calls).result = .ok ()) (batch : List IngestCommand) (io : AppendIo)
    : e.run (calls ++ [(batch, io)])
      = ⟨((e.run calls).engine.processBatch batch io).result,
          (e.run calls).replies ++ ((e.run calls).engine.processBatch batch io).replies,
          ((e.run calls).engine.processBatch batch io).engine⟩ := by
  induction calls generalizing e with
  | nil =>
      simp only [List.nil_append, Engine.run]
      cases (e.processBatch batch io).result with
      | ok value => simp
      | error err => rfl
  | cons call rest ih =>
      obtain ⟨first, firstIo⟩ := call
      simp only [List.cons_append, Engine.run] at ok ⊢
      cases result : (e.processBatch first firstIo).result with
      | error err =>
          rw [result] at ok
          cases ok
      | ok value =>
          rw [result] at ok
          simp only [ih ok, List.append_assoc]

end Delivery

end TrustLedger.Ingest
