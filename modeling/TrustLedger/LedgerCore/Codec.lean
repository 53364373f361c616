import TrustLedger.Foundation.Wire
import TrustLedger.LedgerCore.Transfer

/-! Codec for journal event batches persisted through the write-ahead log: the postcard bytes
of the derived serializers, field by field in declaration order.
-/

namespace TrustLedger.LedgerCore

open Foundation

/-- Errors encoding or decoding a journal event batch. -/
inductive CodecError where
  | encode (text : String)
  | decode (text : String)
  deriving DecidableEq, Repr

/-- The text an error is displayed as. -/
def CodecError.text : CodecError → String
  | .encode text => "journal event batch failed to encode: " ++ text
  | .decode text => "journal event bytes failed to decode: " ++ text

def AccountId.codec : Codec AccountId :=
  Codec.u128.map .mk AccountId.raw fun _ => rfl

def TransferId.codec : Codec TransferId :=
  Codec.u128.map .mk TransferId.raw fun _ => rfl

def Amount.codec : Codec Amount :=
  Codec.u128.map .mk Amount.units fun _ => rfl

def Scale.codec : Codec Scale :=
  Codec.byte.map .mk Scale.raw fun _ => rfl

/-- The number of an account type in its declaration. -/
def AccountType.number : AccountType → Fin 5
  | .asset => 0
  | .liability => 1
  | .equity => 2
  | .revenue => 3
  | .expense => 4

def AccountType.ofNumber : Fin 5 → AccountType
  | 0 => .asset
  | 1 => .liability
  | 2 => .equity
  | 3 => .revenue
  | 4 => .expense

def AccountType.codec : Codec AccountType :=
  (Codec.index 5 (by decide)).map ofNumber number fun value => by cases value <;> rfl

/-- The number of a transfer state in its declaration. -/
def TransferState.number : TransferState → Fin 3
  | .pending => 0
  | .posted => 1
  | .voided => 2

def TransferState.ofNumber : Fin 3 → TransferState
  | 0 => .pending
  | 1 => .posted
  | 2 => .voided

def TransferState.codec : Codec TransferState :=
  (Codec.index 3 (by decide)).map ofNumber number fun value => by cases value <;> rfl

def AccountFlags.codec : Codec AccountFlags :=
  (Codec.bool.pair (Codec.bool.pair Codec.bool)).map
    (fun (debits, credits, closed) => ⟨debits, credits, closed⟩)
    (fun flags =>
      (flags.debitsMustNotExceedCredits, flags.creditsMustNotExceedDebits, flags.isClosed))
    fun _ => rfl

def Transfer.codec : Codec Transfer :=
  (TransferId.codec.pair <| AccountId.codec.pair <| AccountId.codec.pair <|
      Amount.codec.pair <| TransferState.codec.pair <| TransferId.codec.option.pair
      Codec.u64).map
    (fun (id, debit, credit, amount, state, pendingId, timestamp) =>
      ⟨id, debit, credit, amount, state, pendingId, timestamp⟩)
    (fun t =>
      (t.id, t.debitAccountId, t.creditAccountId, t.amount, t.state, t.pendingId, t.timestamp))
    fun _ => rfl

/-- The fields of each event variant, in the order the variants are declared. -/
def LedgerEvent.Fields : Fin 6 → Type
  | 0 => AccountId × AccountType × AccountFlags × Scale × U64
  | 1 => AccountId × U64
  | 2 => Transfer
  | 3 => Transfer
  | 4 => TransferId × TransferId × Amount × U64
  | 5 => TransferId × Amount × U64

def LedgerEvent.fieldsCodec : ∀ number, Codec (Fields number)
  | 0 =>
      AccountId.codec.pair <| AccountType.codec.pair <| AccountFlags.codec.pair <|
        Scale.codec.pair Codec.u64
  | 1 => AccountId.codec.pair Codec.u64
  | 2 => Transfer.codec
  | 3 => Transfer.codec
  | 4 => TransferId.codec.pair <| TransferId.codec.pair <| Amount.codec.pair Codec.u64
  | 5 => TransferId.codec.pair <| Amount.codec.pair Codec.u64

def LedgerEvent.toFields : LedgerEvent → Σ number, Fields number
  | .accountCreated id accountType flags scale timestamp =>
      ⟨0, id, accountType, flags, scale, timestamp⟩
  | .accountClosed id timestamp => ⟨1, id, timestamp⟩
  | .transferPosted transfer => ⟨2, transfer⟩
  | .transferPendingCreated transfer => ⟨3, transfer⟩
  | .transferPendingPosted pendingId postTransferId amount timestamp =>
      ⟨4, pendingId, postTransferId, amount, timestamp⟩
  | .transferPendingVoided pendingId amount timestamp => ⟨5, pendingId, amount, timestamp⟩

def LedgerEvent.ofFields : (Σ number, Fields number) → LedgerEvent
  | ⟨0, id, accountType, flags, scale, timestamp⟩ =>
      .accountCreated id accountType flags scale timestamp
  | ⟨1, id, timestamp⟩ => .accountClosed id timestamp
  | ⟨2, transfer⟩ => .transferPosted transfer
  | ⟨3, transfer⟩ => .transferPendingCreated transfer
  | ⟨4, pendingId, postTransferId, amount, timestamp⟩ =>
      .transferPendingPosted pendingId postTransferId amount timestamp
  | ⟨5, pendingId, amount, timestamp⟩ => .transferPendingVoided pendingId amount timestamp

def LedgerEvent.codec : Codec LedgerEvent :=
  (Codec.variant (by decide) fieldsCodec).map ofFields toFields fun event => by
    cases event <;> rfl

/-- Serialize a journal event batch. The length of a slice is a `u64`; a longer list is not a
value of the source's type and has no encoding.
-/
def encodeEvents (events : List LedgerEvent) : Except CodecError Bytes :=
  if small : events.length < 2 ^ 64 then .ok (LedgerEvent.codec.list.encode ⟨events, small⟩)
  else .error (.encode "sequence too long")

/-- Deserialize a batch written by `encodeEvents`; bytes after a single batch are refused. -/
def decodeEvents (bytes : Bytes) : Except CodecError (List LedgerEvent) :=
  match LedgerEvent.codec.list.decode bytes with
  | none => .error (.decode "malformed batch")
  | some (events, remainder) =>
      if remainder = [] then .ok events.1
      else
        .error (.decode ("unexpected trailing leftover bytes (" ++ toString remainder.length
          ++ " bytes)"))

theorem decodeEvents_encodeEvents {events : List LedgerEvent} {bytes : Bytes}
    (encoded : encodeEvents events = .ok bytes)
    : decodeEvents bytes = .ok events := by
  unfold encodeEvents at encoded
  split at encoded
  · rename_i small
    cases encoded
    have read := LedgerEvent.codec.list.decode_encode ⟨events, small⟩ []
    rw [List.append_nil] at read
    simp only [decodeEvents, read, if_true]
  · cases encoded

/-- The bytes stand for these events and nothing else: they are decoded to them, and neither a part
of the bytes nor a continuation is decoded to anything.
-/
structure Unambiguous (events : List LedgerEvent) (bytes : Bytes) : Prop where
  decoded : decodeEvents bytes = .ok events
  torn : ∀ cut < bytes.length, ∃ err, decodeEvents (bytes.take cut) = .error err
  extended : ∀ more, more ≠ [] → ∃ err, decodeEvents (bytes ++ more) = .error err

/-- Every batch of events is encoded, and its encoding is unambiguous. The length of a slice is a
64-bit number.
-/
theorem events_encoded_unambiguously {events : List LedgerEvent} (slice : events.length < 2 ^ 64)
    : ∃ bytes, encodeEvents events = .ok bytes ∧ Unambiguous events bytes := by
  have encoded : encodeEvents events = .ok (LedgerEvent.codec.list.encode ⟨events, slice⟩) :=
    dif_pos slice
  refine ⟨_, encoded, decodeEvents_encodeEvents encoded, ?_, ?_⟩
  · intro cut torn
    refine ⟨.decode "malformed batch", ?_⟩
    rw [decodeEvents, LedgerEvent.codec.list.decode_torn torn]
  · intro more some
    rw [decodeEvents, LedgerEvent.codec.list.decode_encode]
    exact ⟨_, if_neg some⟩

/-- Witness: a batch of two events of different kinds. -/
theorem events_encoded_unambiguously_two
    : ∃ bytes,
        encodeEvents [.accountClosed ⟨300⟩ 7, .transferPendingVoided ⟨1⟩ ⟨128⟩ 2] = .ok bytes
        ∧ Unambiguous [.accountClosed ⟨300⟩ 7, .transferPendingVoided ⟨1⟩ ⟨128⟩ 2] bytes :=
  events_encoded_unambiguously (by decide)

/-- A new account's event is encoded in a few bytes. -/
theorem encodeEvents_accountCreated (id : AccountId) (accountType : AccountType)
    (flags : AccountFlags) (scale : Scale) (timestamp : U64)
    : ∃ payload, encodeEvents [.accountCreated id accountType flags scale timestamp] = .ok payload
        ∧ payload.length ≤ 64 := by
  have event : LedgerEvent.codec.encode (.accountCreated id accountType flags scale timestamp)
      = Codec.writeVarint 5 0
        ++ (Codec.writeVarint 19 id.raw.val
          ++ (Codec.writeVarint 5 accountType.number.val
            ++ (AccountFlags.codec.encode flags
              ++ (Codec.byte.encode scale.raw ++ Codec.writeVarint 10 timestamp.val)))) :=
    rfl
  refine ⟨_, dif_pos (Nat.lt_of_le_of_lt (Nat.le_refl 1) (by decide)), ?_⟩
  have count := Codec.length_writeVarint_le 10 1
  have variant := Codec.length_writeVarint_le 5 0
  have idLength := Codec.length_writeVarint_le 19 id.raw.val
  have typeLength := Codec.length_writeVarint_le 5 accountType.number.val
  have stampLength := Codec.length_writeVarint_le 10 timestamp.val
  change (Codec.writeVarint 10 1 ++ (LedgerEvent.codec.encode _ ++ [])).length ≤ 64
  rw [event]
  simp only [List.length_append, List.length_nil,
    show (AccountFlags.codec.encode flags).length = 3 from rfl,
    show (Codec.byte.encode scale.raw).length = 1 from rfl]
  omega

example
    : encodeEvents [.accountClosed ⟨300⟩ 7, .transferPendingVoided ⟨1⟩ ⟨128⟩ 2]
      = .ok [2, 1, 172, 2, 7, 5, 1, 128, 1, 2] := by
  decide +kernel

end TrustLedger.LedgerCore
