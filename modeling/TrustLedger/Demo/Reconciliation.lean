import TrustLedger.Demo.Payment
import TrustLedger.SolanaSettle.State

/-! Reconciliation between payment records, ledger balances and the registry on chain. -/

namespace TrustLedger.Demo

open Foundation LedgerCore SolanaSettle

inductive ReconciliationStatus where
  | clean
  | driftDetected
  deriving DecidableEq, Repr

/-- Incident raised when the sources disagree. -/
structure ReconciliationIncident where
  incidentId : String
  driftAmount : Int
  details : String
  recommendedAction : String
  deriving DecidableEq, Repr

structure ReconciliationReport where
  timestamp : U64
  status : ReconciliationStatus
  appSettledTotal : U128
  ledgerSettledTotal : U128
  chainSettledTotal : U128
  /-- What the ledger has and the payment records do not. -/
  drift : Int
  reconciledTransfers : Nat
  incident : Option ReconciliationIncident
  deriving DecidableEq, Repr

inductive ReconciliationError where
  | amountOverflow
  | amountExceedsSignedRange
  | accountNotFound (id : U128)
  deriving DecidableEq, Repr

def ReconciliationError.text : ReconciliationError → String
  | .amountOverflow => "reconciliation total exceeds the supported monetary range"
  | .amountExceedsSignedRange => "reconciliation total exceeds the signed drift range"
  | .accountNotFound id => s!"account {id.val} not found in ledger"

/-- How an audit fails. -/
inductive AuditFailure where
  | returned (error : ReconciliationError)
  | panicked
  deriving DecidableEq, Repr

namespace ReconciliationEngine

/-- Add a payment to the captured total and count. -/
def addCaptured (sofar : U128 × Nat) (p : Payment) : Except AuditFailure (U128 × Nat) :=
  if p.state = .captured then do
    let total ← okOr (checkedAdd sofar.1 p.amount) (.returned .amountOverflow)
    return (total, sofar.2 + 1)
  else .ok sofar

/-- Add a merchant's posted credits. -/
def addCredits (ledger : Ledger) (sofar : U128) (merchantId : U128) : Except AuditFailure U128 := do
  let accountId ← okOr (AccountDirectory.merchant merchantId) .panicked
  let account ←
    okOr ledger.accounts[accountId]? (.returned (.accountNotFound accountId.raw))
  okOr (checkedAdd sofar account.balance.creditsPosted.units) (.returned .amountOverflow)

/-- A total as a signed number. -/
def signed (total : U128) : Except AuditFailure Int := do
  ensure (total.val < 2 ^ 127) (.returned .amountExceedsSignedRange)
  return total.val

/-- The report on three totals. -/
def reportOn (appTotal ledgerTotal : U128) (capturedCount : Nat) (drift : Int)
    (chainRoot : Option SettlementRoot) (timestamp : U64)
    : ReconciliationReport :=
  let chainTotal := (chainRoot.map SettlementRoot.totalSettledAmount).getD 0
  let report : ReconciliationReport :=
    {
      timestamp
      status := .clean
      appSettledTotal := appTotal
      ledgerSettledTotal := ledgerTotal
      chainSettledTotal := chainTotal
      drift
      reconciledTransfers := capturedCount
      incident := none
    }
  if drift = 0 ∧ (chainRoot.isNone ∨ chainTotal = ledgerTotal) then report
  else
    let incident : ReconciliationIncident :=
      {
        incidentId := s!"INC-RECON-{timestamp.val}"
        driftAmount := drift
        details :=
          s!"Discrepancy: App={appTotal.val}, Ledger={ledgerTotal.val}, "
            ++ s!"Chain={chainTotal.val}, Drift={drift}"
        recommendedAction :=
          "Halt automated batch settlement and inspect unposted transaction buffer."
      }
    { report with status := .driftDetected, incident := some incident }

theorem drift_reportOn (appTotal ledgerTotal : U128) (capturedCount : Nat) (drift : Int)
    (chainRoot : Option SettlementRoot) (timestamp : U64)
    : (reportOn appTotal ledgerTotal capturedCount drift chainRoot timestamp).drift = drift := by
  dsimp only [reportOn]
  split <;> rfl

/-- Compare captured payments, merchant credits and the amount settled on chain. -/
def audit (payments : List Payment) (ledger : Ledger) (merchants : List U128)
    (chainRoot : Option SettlementRoot) (timestamp : U64)
    : Except AuditFailure ReconciliationReport := do
  let captured ← payments.foldlM addCaptured (0, 0)
  let ledgerTotal ← merchants.foldlM (addCredits ledger) 0
  let ledgerTotalSigned ← signed ledgerTotal
  let appTotalSigned ← signed captured.1
  return reportOn captured.1 ledgerTotal captured.2 (ledgerTotalSigned - appTotalSigned) chainRoot
    timestamp

end ReconciliationEngine

end TrustLedger.Demo
