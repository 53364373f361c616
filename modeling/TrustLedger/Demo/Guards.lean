import TrustLedger.Foundation.Bytes
import TrustLedger.Foundation.Fallible

/-! Guards in front of the handlers: idempotency keys, and the signature, age and identity of a
webhook.
-/

namespace TrustLedger.Demo

open Foundation

/-- Status of an operation under an idempotency key. -/
inductive IdempotencyStatus where
  | inProgress
  /-- Succeeded with this response. -/
  | completed (responseJson : String)
  deriving DecidableEq, Repr

/-- The status of each key. -/
abbrev IdempotencyStore := String → Option IdempotencyStatus

inductive IdempotencyError where
  | concurrentRequest (key : String)
  deriving DecidableEq, Repr

def IdempotencyError.text : IdempotencyError → String
  | .concurrentRequest key => s!"concurrent operation with idempotency key '{key}' in-flight"

namespace IdempotencyStore

/-- Claim a new key, or return the response stored under it. -/
def tryAcquire (store : IdempotencyStore) (key : String)
    : Except IdempotencyError (Option String) × IdempotencyStore :=
  match store key with
  | some .inProgress => (.error (.concurrentRequest key), store)
  | some (.completed responseJson) => (.ok (some responseJson), store)
  | none => (.ok none, Function.update store key (some .inProgress))

def complete (store : IdempotencyStore) (key responseJson : String) : IdempotencyStore :=
  Function.update store key (some (.completed responseJson))

/-- Forget a key that is in flight. -/
def releaseOnFailure (store : IdempotencyStore) (key : String) : IdempotencyStore :=
  match store key with
  | some .inProgress => Function.update store key none
  | _ => store

end IdempotencyStore

/-- A webhook of the card processor. -/
structure WebhookPayload where
  eventId : String
  eventType : String
  paymentId : U128
  merchantId : U128
  customerId : U128
  amount : U128
  feeAmount : U128
  timestamp : U64
  deriving DecidableEq, Repr

inductive WebhookError where
  | invalidSignature
  | expiredTimestamp (ageSeconds maxAllowed : U64)
  | duplicateEventId (eventId : String)
  deriving DecidableEq, Repr

def WebhookError.text : WebhookError → String
  | .invalidSignature => "invalid webhook signature: payload verification failed"
  | .expiredTimestamp ageSeconds maxAllowed =>
      s!"expired webhook timestamp: event is {ageSeconds.val}s old (max allowed {maxAllowed.val}s)"
  | .duplicateEventId eventId => s!"duplicate webhook event_id: {eventId}"

def decodeNibble (b : UInt8) : Option UInt8 :=
  if 0x30 ≤ b ∧ b ≤ 0x39 then some (b - 0x30)
  else if 0x61 ≤ b ∧ b ≤ 0x66 then some (b - 0x61 + 10)
  else if 0x41 ≤ b ∧ b ≤ 0x46 then some (b - 0x41 + 10)
  else none

/-- Read pairs of hexadecimal digits; an odd digit at the end fails. -/
def decodeHex : Bytes → Option Bytes
  | [] => some []
  | [_] => none
  | high :: low :: rest => do
      let hi ← decodeNibble high
      let lo ← decodeNibble low
      let bytes ← decodeHex rest
      return ((hi <<< 4) ||| lo) :: bytes

namespace WebhookVerifier

/-- Compare a hexadecimal signature with the payload's own. -/
def verifySignature (hmacSha256 : Bytes → Bytes → Bytes) (secret payload signatureHex : Bytes)
    : Except WebhookError Unit := do
  let signatureBytes ← okOr (decodeHex signatureHex) .invalidSignature
  ensure (signatureBytes = hmacSha256 secret payload) .invalidSignature

/-- How far apart two times are. -/
def absDiff (a b : U64) : U64 :=
  if a ≤ b then b - a else a - b

def verifyFreshness (eventTime currentTime maxAllowedSeconds : U64) : Except WebhookError Unit :=
  ensure (absDiff currentTime eventTime ≤ maxAllowedSeconds)
    (.expiredTimestamp (absDiff currentTime eventTime) maxAllowedSeconds)

end WebhookVerifier

/-- The event ids seen so far. -/
abbrev WebhookDeduplicator := Finset String

/-- Record an event id that is new. -/
def WebhookDeduplicator.checkAndRecord (seenEvents : WebhookDeduplicator) (eventId : String)
    : Except WebhookError Unit × WebhookDeduplicator :=
  if eventId ∈ seenEvents then (.error (.duplicateEventId eventId), seenEvents)
  else (.ok (), insert eventId seenEvents)

end TrustLedger.Demo
