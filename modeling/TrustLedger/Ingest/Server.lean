import TrustLedger.Ingest.Engine

/-! The gRPC front end of the engine: messages, their conversion into commands, and the conversion
of replies into responses or statuses. Wire encoding of the messages is left out.
-/

namespace TrustLedger.Ingest

open Foundation LedgerCore

section Words

/-- The low and the high word of a 128-bit number. -/
def splitU128 (val : U128) : U64 × U64 :=
  (Fin.ofNat _ (val.val &&& 0xFFFF_FFFF_FFFF_FFFF), Fin.ofNat _ (val.val >>> 64))

/-- The 128-bit number of a low and a high word. -/
def joinU128 (low high : U64) : U128 :=
  Fin.ofNat _ (high.val <<< 64 ||| low.val)

theorem splitU128_val (val : U128)
    : (splitU128 val).1.val = val.val % 2 ^ 64 ∧ (splitU128 val).2.val = val.val / 2 ^ 64 := by
  have bound := val.isLt
  constructor
  · have masked : val.val &&& 0xFFFF_FFFF_FFFF_FFFF = val.val % 2 ^ 64 :=
      Nat.and_two_pow_sub_one_eq_mod val.val 64
    simp [splitU128, masked]
  · rw [splitU128, Fin.val_ofNat, Nat.shiftRight_eq_div_pow]
    omega

theorem joinU128_val (low high : U64) : (joinU128 low high).val = high.val * 2 ^ 64 + low.val := by
  have lowBound := low.isLt
  have highBound := high.isLt
  rw [joinU128, Fin.val_ofNat, ← Nat.shiftLeft_add_eq_or_of_lt lowBound, Nat.shiftLeft_eq]
  omega

@[simp] theorem splitU128_joinU128 (low high : U64)
    : splitU128 (joinU128 low high) = (low, high) := by
  have lowBound := low.isLt
  obtain ⟨first, second⟩ := splitU128_val (joinU128 low high)
  rw [joinU128_val] at first second
  refine Prod.ext (Fin.ext ?_) (Fin.ext ?_)
  · dsimp only
    omega
  · dsimp only
    omega

end Words

namespace Proto

/-- Monetary amount with integer units and decimal scale. -/
structure Amount where
  units : U64
  scale : U32
  unitsHigh : U64
  deriving DecidableEq, Repr

/-- Rules that control what an account can do. -/
structure AccountFlags where
  debitsMustNotExceedCredits : Bool
  creditsMustNotExceedDebits : Bool
  isClosed : Bool
  deriving DecidableEq, Repr

/-- Current balances for an account. -/
structure Balance where
  debitsPosted : Option Amount
  creditsPosted : Option Amount
  debitsPending : Option Amount
  creditsPending : Option Amount
  deriving DecidableEq, Repr

/-- A ledger account. Enumerations travel as 32-bit signed integers. -/
structure Account where
  id : U64
  accountType : Int
  flags : Option AccountFlags
  scale : U32
  balance : Option Balance
  idHigh : U64
  deriving DecidableEq, Repr

/-- A transfer between two accounts. -/
structure Transfer where
  id : U64
  debitAccountId : U64
  creditAccountId : U64
  amount : Option Amount
  state : Int
  pendingId : Option U64
  timestamp : U64
  idHigh : U64
  debitAccountIdHigh : U64
  creditAccountIdHigh : U64
  pendingIdHigh : Option U64
  deriving DecidableEq, Repr

structure CreateAccountRequest where
  id : U64
  accountType : Int
  flags : Option AccountFlags
  scale : U32
  timestamp : U64
  idHigh : U64
  deriving DecidableEq, Repr

/-- A request for a transfer that settles immediately, or for one that holds funds. -/
structure CreateTransferRequest where
  id : U64
  debitAccountId : U64
  creditAccountId : U64
  amount : Option Amount
  timestamp : U64
  idHigh : U64
  debitAccountIdHigh : U64
  creditAccountIdHigh : U64
  deriving DecidableEq, Repr

structure PostPendingRequest where
  pendingId : U64
  postTransferId : U64
  amount : Option Amount
  timestamp : U64
  pendingIdHigh : U64
  postTransferIdHigh : U64
  deriving DecidableEq, Repr

structure VoidPendingRequest where
  pendingId : U64
  timestamp : U64
  pendingIdHigh : U64
  deriving DecidableEq, Repr

/-- An operation, called by itself or within a transactional batch. -/
inductive Operation where
  | createAccount (req : CreateAccountRequest)
  | createTransfer (req : CreateTransferRequest)
  | createPending (req : CreateTransferRequest)
  | postPending (req : PostPendingRequest)
  | voidPending (req : VoidPendingRequest)
  deriving DecidableEq, Repr

end Proto

/-- Errors of the whole ingress. The last is the ledger's error for a scale it cannot express. -/
inductive ServerError where
  | ingest (err : IngestError)
  | queueSaturated
  | channelClosed
  | invalidInput (text : String)
  | internal (text : String)
  | invalidScale (scale : Fin 256)
  deriving DecidableEq, Repr

/-- The status codes used. -/
inductive Code where
  | resourceExhausted
  | unavailable
  | invalidArgument
  | internal
  | failedPrecondition
  | notFound
  | alreadyExists
  | outOfRange
  deriving DecidableEq, Repr

structure Status where
  code : Code
  message : String
  deriving DecidableEq, Repr

/-- The status code of a ledger error. -/
def ledgerCode : LedgerError → Code
  | .insufficientFunds .. | .accountClosed _ | .invalidTransferState ..
  | .partialAmountExceedsPending .. => .failedPrecondition
  | .accountNotFound _ | .transferNotFound _ => .notFound
  | .accountAlreadyExists _ | .transferAlreadyExists _ => .alreadyExists
  | .debitCreditAccountSame _ | .zeroAmountTransfer _ | .scaleMismatch ..
  | .timestampBehindPrior .. | .invalidPendingLink .. | .pendingLinkMissing .. => .invalidArgument
  | .arithmeticOverflow => .outOfRange
  | .conservationViolation .. | .journalVoidedAmountMismatch ..
  | .pendingBalanceMismatch .. => .internal

def ServerError.status : ServerError → Status
  | .queueSaturated =>
      ⟨.resourceExhausted, "ingress queue saturated: backpressure shedding load"⟩
  | .channelClosed => ⟨.unavailable, "ingress engine queue closed"⟩
  | .invalidInput text => ⟨.invalidArgument, text⟩
  | .ingest (.wal text) | .ingest (.codec text) | .internal text => ⟨.internal, text⟩
  | .ingest (.ledger err) => ⟨ledgerCode err, err.text⟩
  | .invalidScale scale =>
      ⟨.invalidArgument, s!"scale factor {scale.val} exceeds maximum precision limit"⟩

section Outgoing

def amountToProto (amount : Amount) (scale : U32) : Proto.Amount :=
  let (units, unitsHigh) := splitU128 amount.units
  { units, scale, unitsHigh }

def accountTypeToProto : AccountType → Int
  | .asset => 1
  | .liability => 2
  | .equity => 3
  | .revenue => 4
  | .expense => 5

def flagsToProto (flags : AccountFlags) : Proto.AccountFlags :=
  {
    debitsMustNotExceedCredits := flags.debitsMustNotExceedCredits
    creditsMustNotExceedDebits := flags.creditsMustNotExceedDebits
    isClosed := flags.isClosed
  }

def balanceToProto (balance : Balance) (scale : U32) : Proto.Balance :=
  {
    debitsPosted := some (amountToProto balance.debitsPosted scale)
    creditsPosted := some (amountToProto balance.creditsPosted scale)
    debitsPending := some (amountToProto balance.debitsPending scale)
    creditsPending := some (amountToProto balance.creditsPending scale)
  }

/-- A scale in the width it has in messages. -/
def scaleU32 (scale : Scale) : U32 :=
  Fin.ofNat _ scale.raw.val

def accountToProto (account : Account) : Proto.Account :=
  let scale := scaleU32 account.scale
  let (id, idHigh) := splitU128 account.id.raw
  {
    id
    accountType := accountTypeToProto account.accountType
    flags := some (flagsToProto account.flags)
    scale
    balance := some (balanceToProto account.balance scale)
    idHigh
  }

def transferStateToProto : TransferState → Int
  | .pending => 1
  | .posted => 2
  | .voided => 3

def transferToProto (transfer : Transfer) (scale : U32) : Proto.Transfer :=
  let (id, idHigh) := splitU128 transfer.id.raw
  let (debitAccountId, debitAccountIdHigh) := splitU128 transfer.debitAccountId.raw
  let (creditAccountId, creditAccountIdHigh) := splitU128 transfer.creditAccountId.raw
  let pendingSplit := transfer.pendingId.map fun pendingId => splitU128 pendingId.raw
  {
    id
    debitAccountId
    creditAccountId
    amount := some (amountToProto transfer.amount scale)
    state := transferStateToProto transfer.state
    pendingId := pendingSplit.map Prod.fst
    timestamp := transfer.timestamp
    idHigh
    debitAccountIdHigh
    creditAccountIdHigh
    pendingIdHigh := pendingSplit.map Prod.snd
  }

end Outgoing

section Incoming

def protoToAccountType (val : Int) : Except ServerError AccountType :=
  match val with
  | 1 => .ok .asset
  | 2 => .ok .liability
  | 3 => .ok .equity
  | 4 => .ok .revenue
  | 5 => .ok .expense
  | _ => .error (.invalidInput "unknown or unspecified account type")

def protoToFlags : Option Proto.AccountFlags → AccountFlags
  | some f =>
      {
        debitsMustNotExceedCredits := f.debitsMustNotExceedCredits
        creditsMustNotExceedDebits := f.creditsMustNotExceedDebits
        isClosed := f.isClosed
      }
  | none => {}

/-- A scale of a message: one byte, and at most eighteen decimals. -/
def protoToScale (text : String) (val : U32) : Except ServerError Scale :=
  if fits : val.val < 256 then
    if 18 < val.val then .error (.invalidScale ⟨val.val, fits⟩) else .ok ⟨⟨val.val, fits⟩⟩
  else .error (.invalidInput text)

/-- The service, without the queue it submits to. -/
structure LedgerServer where
  scale : Scale
  deriving DecidableEq, Repr

namespace LedgerServer

variable (server : LedgerServer)

/-- The amount of a message. A scale of zero stands for the server's. -/
def parseAmount (proto : Option Proto.Amount) : Except ServerError Amount := do
  let p ← okOr proto (.invalidInput "amount is required")
  if p.scale ≠ 0 then
    let scale ← protoToScale "amount scale exceeds u8 limit" p.scale
    if scale ≠ server.scale then
      throw (.ingest (.ledger (.scaleMismatch server.scale scale)))
    else
      return ⟨joinU128 p.units p.unitsHigh⟩
  else
    return ⟨joinU128 p.units p.unitsHigh⟩

def createAccountOp (req : Proto.CreateAccountRequest) : Except ServerError IngestOp := do
  let accountType ← protoToAccountType req.accountType
  let scale ← protoToScale "scale exceeds u8 limit" req.scale
  return .createAccount ⟨joinU128 req.id req.idHigh⟩ accountType (protoToFlags req.flags) scale
    req.timestamp

def createTransferOp (req : Proto.CreateTransferRequest) : Except ServerError IngestOp := do
  let amount ← server.parseAmount req.amount
  return .createTransfer ⟨joinU128 req.id req.idHigh⟩
    ⟨joinU128 req.debitAccountId req.debitAccountIdHigh⟩
    ⟨joinU128 req.creditAccountId req.creditAccountIdHigh⟩ amount req.timestamp

def createPendingOp (req : Proto.CreateTransferRequest) : Except ServerError IngestOp := do
  let amount ← server.parseAmount req.amount
  return .createPending ⟨joinU128 req.id req.idHigh⟩
    ⟨joinU128 req.debitAccountId req.debitAccountIdHigh⟩
    ⟨joinU128 req.creditAccountId req.creditAccountIdHigh⟩ amount req.timestamp

def postPendingOp (req : Proto.PostPendingRequest) : Except ServerError IngestOp := do
  let amount ← server.parseAmount req.amount
  return .postPending ⟨joinU128 req.pendingId req.pendingIdHigh⟩
    ⟨joinU128 req.postTransferId req.postTransferIdHigh⟩ amount req.timestamp

def voidPendingOp (req : Proto.VoidPendingRequest) : IngestOp :=
  .voidPending ⟨joinU128 req.pendingId req.pendingIdHigh⟩ req.timestamp

/-- The ledger operation a message asks for. -/
def operationOp : Proto.Operation → Except ServerError IngestOp
  | .createAccount req => createAccountOp req
  | .createTransfer req => server.createTransferOp req
  | .createPending req => server.createPendingOp req
  | .postPending req => server.postPendingOp req
  | .voidPending req => .ok (voidPendingOp req)

/-- The operations of a batch, up to the first that is missing or malformed. -/
def batchOps (operations : List (Option Proto.Operation)) : Except ServerError (List IngestOp) :=
  operations.mapM fun operation => do
    server.operationOp (← okOr operation (.invalidInput "empty batch operation"))

end LedgerServer

/-- A remote call. The calls for a single operation take the operation's message. -/
inductive Rpc where
  | mutate (operation : Proto.Operation)
  | getAccount (id idHigh : U64)
  | getTransfer (id idHigh : U64)
  | applyBatch (operations : List (Option Proto.Operation))
  deriving DecidableEq, Repr

/-- The command a call submits. `clock` gives the readings that the engine makes if operations ask
for a timestamp.
-/
def LedgerServer.command (server : LedgerServer) (clock : Nat → U64) (respondTo : Sender)
    : Rpc → Except ServerError IngestCommand
  | .mutate operation => do return .mutate ⟨← server.operationOp operation, clock 0⟩ respondTo
  | .getAccount id idHigh => .ok (.getAccount ⟨joinU128 id idHigh⟩ respondTo)
  | .getTransfer id idHigh => .ok (.getTransfer ⟨joinU128 id idHigh⟩ respondTo)
  | .applyBatch operations => do
      let ops ← server.batchOps operations
      return .applyBatch (ops.mapIdx fun i op => ⟨op, clock i⟩) respondTo

end Incoming

section Responses

inductive Response where
  | account (account : Proto.Account)
  | transfer (transfer : Proto.Transfer)
  | applied (count : U32)
  deriving DecidableEq, Repr

namespace LedgerServer

variable (server : LedgerServer)

/-- The response to a single operation. Only a new account is answered with an account. -/
def mutationResponse : Proto.Operation → MutationResult → Except ServerError Response
  | .createAccount _, .account account => .ok (.account (accountToProto account))
  | .createAccount _, .transfer _ => .error (.internal "unexpected mutation result")
  | _, .transfer transfer => .ok (.transfer (transferToProto transfer (scaleU32 server.scale)))
  | _, .account _ => .error (.internal "unexpected mutation result")

/-- The response made from a reply; `none` for replies that the type of the call's channel rules
out.
-/
def response : Rpc → Reply → Option (Except ServerError Response)
  | .mutate operation, .mutation result =>
      some (do server.mutationResponse operation (← result.mapError .ingest))
  | .getAccount .., .account result =>
      some ((result.mapError .ingest).map fun account => .account (accountToProto account))
  | .getTransfer .., .transfer result =>
      some ((result.mapError .ingest).map fun transfer =>
        .transfer (transferToProto transfer (scaleU32 server.scale)))
  | .applyBatch _, .batch result => some ((result.mapError .ingest).map .applied)
  | _, _ => none

end LedgerServer

end Responses

end TrustLedger.Ingest
