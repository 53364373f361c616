import TrustLedger.Ingest.Calls

/-! Responses tell the truth. A response is made from the ledger that its micro-batch left: it shows
that the operation was carried out, and repeats what the request asked for.
-/

namespace TrustLedger.Ingest

open Foundation LedgerCore WriteAheadLog

section Words

variable {server : LedgerServer}

theorem accountTypeToProto_of_ok {val : Int} {accountType : AccountType}
    (parsed : protoToAccountType val = .ok accountType)
    : accountTypeToProto accountType = val := by
  unfold protoToAccountType at parsed
  split at parsed <;> cases parsed <;> rfl

theorem scaleU32_of_ok {text : String} {val : U32} {scale : Scale}
    (parsed : protoToScale text val = .ok scale)
    : scaleU32 scale = val := by
  unfold protoToScale at parsed
  split at parsed
  · split at parsed
    · cases parsed
    · cases parsed
      exact Fin.ext (Nat.mod_eq_of_lt val.isLt)
  · cases parsed

theorem parseAmount_ok {proto : Option Proto.Amount} {amount : Amount}
    (parsed : server.parseAmount proto = .ok amount)
    : ∃ p, proto = some p ∧ amount = ⟨joinU128 p.units p.unitsHigh⟩
        ∧ (p.scale = 0 ∨ p.scale = scaleU32 server.scale) := by
  obtain ⟨p, found, later⟩ := bind_eq_ok.mp parsed
  cases proto with
  | none => cases found
  | some given =>
      cases found
      refine ⟨p, rfl, ?_⟩
      split at later
      · obtain ⟨scale, scaled, rest⟩ := bind_eq_ok.mp later
        split at rest
        · cases rest
        · rename_i same
          cases rest
          exact ⟨rfl, .inr ((scaleU32_of_ok scaled).symm.trans (by rw [not_not.mp same]))⟩
      · rename_i unscaled
        cases later
        exact ⟨rfl, .inl (not_not.mp unscaled)⟩

end Words

/-- An amount in a response repeats the words of the request's, in the server's scale. -/
def Proto.Amount.Repeats (server : LedgerServer) (requested shown : Option Proto.Amount) : Prop :=
  ∃ p, requested = some p ∧ shown = some ⟨p.units, scaleU32 server.scale, p.unitsHigh⟩

/-- A response repeats its request: of an account's flags the two limits, not whether it is closed.
Holds may have been settled in the meantime.
-/
def Proto.Operation.EchoedBy (server : LedgerServer) : Proto.Operation → Response → Prop
  | .createAccount req, .account p =>
      (p.id = req.id ∧ p.idHigh = req.idHigh) ∧ p.accountType = req.accountType
      ∧ p.scale = req.scale
      ∧ ∃ flags, p.flags = some flags
        ∧ flags.debitsMustNotExceedCredits = (protoToFlags req.flags).debitsMustNotExceedCredits
        ∧ flags.creditsMustNotExceedDebits = (protoToFlags req.flags).creditsMustNotExceedDebits
  | .createTransfer req, .transfer p =>
      (p.id = req.id ∧ p.idHigh = req.idHigh)
      ∧ (p.debitAccountId = req.debitAccountId ∧ p.debitAccountIdHigh = req.debitAccountIdHigh)
      ∧ (p.creditAccountId = req.creditAccountId ∧ p.creditAccountIdHigh = req.creditAccountIdHigh)
      ∧ Proto.Amount.Repeats server req.amount p.amount
      ∧ p.state = transferStateToProto .posted ∧ p.pendingId = none ∧ p.pendingIdHigh = none
      ∧ (req.timestamp ≠ 0 → p.timestamp = req.timestamp)
  | .createPending req, .transfer p =>
      (p.id = req.id ∧ p.idHigh = req.idHigh)
      ∧ (p.debitAccountId = req.debitAccountId ∧ p.debitAccountIdHigh = req.debitAccountIdHigh)
      ∧ (p.creditAccountId = req.creditAccountId ∧ p.creditAccountIdHigh = req.creditAccountIdHigh)
      ∧ Proto.Amount.Repeats server req.amount p.amount
      ∧ p.pendingId = none ∧ p.pendingIdHigh = none
      ∧ (req.timestamp ≠ 0 → p.timestamp = req.timestamp)
  | .postPending req, .transfer p =>
      (p.id = req.postTransferId ∧ p.idHigh = req.postTransferIdHigh)
      ∧ Proto.Amount.Repeats server req.amount p.amount
      ∧ p.state = transferStateToProto .posted
      ∧ (p.pendingId = some req.pendingId ∧ p.pendingIdHigh = some req.pendingIdHigh)
      ∧ (req.timestamp ≠ 0 → p.timestamp = req.timestamp)
  | .voidPending req, .transfer p =>
      (p.id = req.pendingId ∧ p.idHigh = req.pendingIdHigh)
      ∧ p.state = transferStateToProto .voided
  | _, _ => False

/-- What a successful response shows. -/
def Rpc.AnsweredBy (server : LedgerServer) (l : Ledger) : Rpc → Response → Prop
  | .mutate operation, response => operation.EchoedBy server response
  | .getAccount id idHigh, .account p =>
      ∃ account, l.accounts[(⟨joinU128 id idHigh⟩ : AccountId)]? = some account
        ∧ p = accountToProto account
  | .getTransfer id idHigh, .transfer p =>
      (p.id = id ∧ p.idHigh = idHigh)
      ∧ ∃ t, l.transfers[(⟨joinU128 id idHigh⟩ : TransferId)]? = some t
        ∧ p = transferToProto t (scaleU32 server.scale)
  | .applyBatch operations, .applied count =>
      ∃ ops, server.batchOps operations = .ok ops ∧ count.val = ops.length % 2 ^ 32
  | _, _ => False

/-- The operations a call asks for. -/
def LedgerServer.operations (server : LedgerServer) : Rpc → Except ServerError (List IngestOp)
  | .mutate operation => do return [← server.operationOp operation]
  | .applyBatch operations => server.batchOps operations
  | .getAccount .. | .getTransfer .. => .ok []

/-- What a successful response tells of a ledger. -/
structure Rpc.ToldBy (server : LedgerServer) (l : Ledger) (rpc : Rpc) (response : Response)
    : Prop where
  answered : rpc.AnsweredBy server l response
  carriedOut : ∃ ops, server.operations rpc = .ok ops ∧ ∀ op ∈ ops, op.Shown l

section Echoes

variable {server : LedgerServer} {l : Ledger}

theorem echoes_amount {proto : Option Proto.Amount} {amount : Amount}
    (parsed : server.parseAmount proto = .ok amount)
    : Proto.Amount.Repeats server proto (some (amountToProto amount (scaleU32 server.scale))) := by
  obtain ⟨p, rfl, rfl, -⟩ := parseAmount_ok parsed
  exact ⟨p, rfl, by simp [amountToProto]⟩

/-- The response to an operation that the ledger shows repeats the request. -/
theorem echoed_of_shown (backed : l.Backed) {operation : Proto.Operation} {op : IngestOp}
    {result : MutationResult} {response : Response}
    (converted : server.operationOp operation = .ok op) (shown : op.Shown l)
    (finds : op.target.Finds l result)
    (made : server.mutationResponse operation result = .ok response)
    : operation.EchoedBy server response := by
  cases operation with
  | createAccount req =>
      obtain ⟨accountType, typed, later⟩ := bind_eq_ok.mp converted
      obtain ⟨scale, scaled, returned⟩ := bind_eq_ok.mp later
      cases returned
      cases result with
      | transfer transfer => exact finds.elim
      | account account =>
          cases made
          obtain ⟨stored, found, same⟩ := shown
          obtain rfl : account = stored := Option.some.inj (finds.symm.trans found)
          simp only [accountIdentity, Prod.mk.injEq] at same
          obtain ⟨id, sameType, sameScale, debits, credits⟩ := same
          refine ⟨?_, ?_, ?_, _, rfl, debits, credits⟩
          · simp [accountToProto, id]
          · rw [← accountTypeToProto_of_ok typed, ← sameType]
            rfl
          · rw [← scaleU32_of_ok scaled, ← sameScale]
            rfl
  | createTransfer req =>
      obtain ⟨amount, parsed, returned⟩ := bind_eq_ok.mp converted
      cases returned
      cases result with
      | account account => exact finds.elim
      | transfer transfer =>
          cases made
          obtain ⟨ts, chosen, found⟩ := shown
          obtain rfl := Option.some.inj (finds.symm.trans found)
          exact ⟨by simp [transferToProto], by simp [transferToProto], by simp [transferToProto],
            echoes_amount parsed, rfl, rfl, rfl, chosen⟩
  | createPending req =>
      obtain ⟨amount, parsed, returned⟩ := bind_eq_ok.mp converted
      cases returned
      cases result with
      | account account => exact finds.elim
      | transfer transfer =>
          cases made
          obtain ⟨state, ts, chosen, found⟩ := shown
          obtain rfl := Option.some.inj (finds.symm.trans found)
          exact ⟨by simp [transferToProto], by simp [transferToProto], by simp [transferToProto],
            echoes_amount parsed, rfl, rfl, chosen⟩
  | postPending req =>
      obtain ⟨amount, parsed, returned⟩ := bind_eq_ok.mp converted
      cases returned
      cases result with
      | account account => exact finds.elim
      | transfer transfer =>
          cases made
          obtain ⟨hold, ts, chosen, -, -, found⟩ := shown
          obtain rfl := Option.some.inj (finds.symm.trans found)
          exact ⟨by simp [transferToProto, Ledger.settlementOf], echoes_amount parsed, rfl,
            by simp [transferToProto, Ledger.settlementOf], chosen⟩
  | voidPending req =>
      cases converted
      cases result with
      | account account => exact finds.elim
      | transfer transfer =>
          cases made
          obtain ⟨hold, found, voided⟩ := shown
          obtain rfl := Option.some.inj (finds.symm.trans found)
          have own := (backed.stored _ _ found).ownId
          exact ⟨by simp [transferToProto, own], by simp [transferToProto, voided]⟩

/-- A reply that is true of a ledger makes a response that is. -/
theorem told_of_answeredBy (backed : l.Backed) {clock : Nat → U64} {sender : Sender} {rpc : Rpc}
    {command : IngestCommand} {reply : Reply} {response : Response}
    (converted : server.command clock sender rpc = .ok command)
    (answered : command.AnsweredBy l reply) (made : server.response rpc reply = some (.ok response))
    : rpc.ToldBy server l response := by
  cases rpc with
  | mutate operation =>
      obtain ⟨op, converts, returned⟩ := bind_eq_ok.mp converted
      cases returned
      cases reply with
      | mutation result =>
          cases result with
          | error err => cases made
          | ok value =>
              obtain ⟨shown, finds⟩ := answered
              refine ⟨echoed_of_shown backed converts shown finds (Option.some.inj made), [op],
                ?_, ?_⟩
              · rw [LedgerServer.operations, converts]
                rfl
              · simpa using shown
      | batch | account | transfer => exact answered.elim
  | getAccount id idHigh =>
      cases converted
      cases reply with
      | account result =>
          cases answered
          unfold Ledger.getAccount at made
          cases found : l.accounts[(⟨joinU128 id idHigh⟩ : AccountId)]? with
          | none =>
              rw [found] at made
              cases made
          | some account =>
              rw [found] at made
              cases made
              exact ⟨⟨account, found, rfl⟩, [], rfl, by simp⟩
      | batch | mutation | transfer => exact answered.elim
  | getTransfer id idHigh =>
      cases converted
      cases reply with
      | transfer result =>
          cases answered
          unfold Ledger.getTransfer at made
          cases found : l.transfers[(⟨joinU128 id idHigh⟩ : TransferId)]? with
          | none =>
              rw [found] at made
              cases made
          | some t =>
              rw [found] at made
              cases made
              have own := (backed.stored _ _ found).ownId
              exact ⟨⟨by simp [transferToProto, own], t, found, rfl⟩, [], rfl, by simp⟩
      | batch | mutation | account => exact answered.elim
  | applyBatch operations =>
      obtain ⟨ops, converts, returned⟩ := bind_eq_ok.mp converted
      cases returned
      cases reply with
      | batch result =>
          cases result with
          | error err => cases made
          | ok count =>
              cases made
              obtain ⟨rfl, shown⟩ := answered
              refine ⟨⟨ops, converts, by rw [Fin.val_ofNat, List.length_mapIdx]⟩, ops, converts,
                fun op listed => ?_⟩
              obtain ⟨i, bound, rfl⟩ := List.getElem_of_mem listed
              exact shown ⟨ops[i], clock i⟩ (List.mem_mapIdx.mpr ⟨i, bound, rfl⟩)
      | account | mutation | transfer => exact answered.elim

end Echoes

section Runs

/-- What every event keeps true of the ledger, a micro-batch does. -/
theorem Engine.processBatch_preserves {P : Ledger → Prop}
    (kept : ∀ {l l' event}, P l → l.Step event l' → P l') {e : Engine} (before : P e.ledger)
    (batch : List IngestCommand) (io : AppendIo)
    : P (e.processBatch batch io).engine.ledger := by
  have outcome := processBatch_outcome batch io e
  generalize e.processBatch batch io = p at outcome
  cases outcome with
  | committed =>
      exact Ledger.applyEvents_preserves kept before (applyEvents_acceptedLists batch e.ledger)
  | failed => exact before

theorem Engine.run_preserves {P : Ledger → Prop}
    (kept : ∀ {l l' event}, P l → l.Step event l' → P l') {e : Engine} (before : P e.ledger)
    (calls : List MicroBatch)
    : P (e.run calls).engine.ledger := by
  induction calls generalizing e with
  | nil => exact before
  | cons call rest ih =>
      obtain ⟨batch, io⟩ := call
      have after := Engine.processBatch_preserves kept before batch io
      simp only [Engine.run]
      cases (e.processBatch batch io).result with
      | ok value => exact ih after
      | error err => exact after

variable {engine : Engine} {s : Service}

theorem Service.step_server (s : Service) (event : ServiceEvent)
    : (s.step event).server = s.server := by
  cases event with
  | call rpc clock =>
      simp only [Service.step, Service.call]
      split
      · split
        · rename_i s' entered
          obtain ⟨_, -, -, -, rfl⟩ := Service.enter_ok entered
          rfl
        · rfl
      · rfl
  | receive =>
      simp only [Service.step, Service.receive]
      split
      · rfl
      · split <;> rfl
  | process io =>
      simp only [Service.step, Service.process]
      split
      · split <;> rfl
      · rfl
  | hangUp => rfl
  | finish =>
      simp only [Service.step, Service.finish]
      split <;> rfl

theorem Service.run_server (s : Service) (events : List ServiceEvent)
    : (s.run events).server = s.server := by
  induction events generalizing s with
  | nil => rfl
  | cons event rest ih => exact (ih (s.step event)).trans (s.step_server event)

/-- A successful response is true of the ledger that its micro-batch left. -/
theorem Service.Sound.told (sound : s.Sound engine) (backed : engine.ledger.Backed) {i : Nat}
    {call : RpcCall} {response : Response} (found : s.calls[i]? = some call)
    (answered : call.answer = some (.ok response))
    : ∃ before batch io after, s.processed = before ++ (batch, io) :: after
        ∧ (engine.run before).result = .ok ()
        ∧ call.rpc.ToldBy s.server (engine.run (before ++ [(batch, io)])).engine.ledger
            response := by
  have origin := sound.answered i call _ found answered
  generalize said : (Except.ok response : Except Status Response) = answer at origin
  cases origin with
  | refused => cases said
  | closed => cases said
  | @replied before batch io after command reply result split running listed sender sent made =>
      cases result with
      | error err => cases said
      | ok made' =>
          cases said
          refine ⟨before, batch, io, after, split, running, ?_⟩
          obtain ⟨command', there, same, truth⟩ := mem_replies sent
          have accepted : command' ∈ s.accepted := by
            rw [← sound.order, split]
            simp [there]
          obtain ⟨owner, clock, owned, converted⟩ := sound.origin command' accepted
          rw [same, sender] at owned
          obtain rfl : call = owner := Option.some.inj (found.symm.trans owned)
          have after_backed := Engine.run_preserves (fun b => b.step) backed
            (before ++ [(batch, io)])
          rw [Engine.run_append running batch io] at after_backed ⊢
          exact told_of_answeredBy after_backed converted truth made

end Runs

/-- Every successful response that a service gives, in any schedule from a ledger with a sound
history, is true of the ledger that its micro-batch left: the operation was carried out, and the
message repeats the request, or shows what was asked for.
-/
theorem responses_tell_truth (server : LedgerServer) (maxBatchSize capacity : Nat) {engine : Engine}
    (backed : engine.ledger.Backed) (events : List ServiceEvent) {i : Nat} {call : RpcCall}
    {response : Response}
    (found : ((Service.start server maxBatchSize capacity engine).run events).calls[i]? = some call)
    (answered : call.answer = some (.ok response))
    : ∃ before batch io after,
        ((Service.start server maxBatchSize capacity engine).run events).processed
          = before ++ (batch, io) :: after
        ∧ call.rpc.ToldBy server (engine.run (before ++ [(batch, io)])).engine.ledger response := by
  have sound := (Service.sound_start server maxBatchSize capacity engine).run events
  obtain ⟨before, batch, io, after, split, -, told⟩ := sound.told backed found answered
  rw [Service.run_server] at told
  exact ⟨before, batch, io, after, split, told⟩

def openAccountCall (id : U64) (accountType : Int) : Rpc :=
  .mutate (.createAccount ⟨id, accountType, none, 2, 0, 0⟩)

/-- A hold between two accounts; its identifier needs both words. -/
def placeHoldCall : Rpc :=
  .mutate (.createPending ⟨7, 1, 2, some ⟨40, 0, 0⟩, 0, 3, 0, 0⟩)

/-- Two accounts are opened in one micro-batch, and the third call is turned away at the queue. The
hold is placed when it is tried again.
-/
def holdSchedule : List ServiceEvent :=
  [.call (openAccountCall 1 1) fun _ => 5, .call (openAccountCall 2 2) fun _ => 6,
    .call placeHoldCall fun _ => 7, .receive, .receive, .process {},
    .call placeHoldCall fun _ => 8, .receive, .process {}]

/-- Witness: the response to the hold. -/
theorem responses_tell_truth_hold
    : ∃ response before batch io after,
        ((Service.start ⟨⟨2⟩⟩ 64 2 freshEngine).run holdSchedule).processed
          = before ++ (batch, io) :: after
        ∧ placeHoldCall.ToldBy ⟨⟨2⟩⟩ (freshEngine.run (before ++ [(batch, io)])).engine.ledger
            (.transfer response) := by
  have served : ((Service.start ⟨⟨2⟩⟩ 64 2 freshEngine).run holdSchedule).calls[3]?
      = some ⟨placeHoldCall, some (.ok (.transfer
          ⟨7, 1, 2, some ⟨40, 2, 0⟩, 1, none, 8, 3, 0, 0, none⟩))⟩ := by
    decide +kernel
  obtain ⟨before, batch, io, after, split, told⟩ := responses_tell_truth ⟨⟨2⟩⟩ 64 2
    (Ledger.backed_new ⟨2⟩ : freshEngine.ledger.Backed) holdSchedule served rfl
  exact ⟨_, before, batch, io, after, split, told⟩

end TrustLedger.Ingest
