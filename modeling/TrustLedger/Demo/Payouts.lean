import TrustLedger.Demo.Drift
import TrustLedger.Demo.Service

/-! Nobody pays out of a merchant's account, as long as no request names a customer whose account is
a merchant's. Accounts are numbered by adding an offset to an id of the request, so some customers
have merchants' accounts.
-/

namespace TrustLedger.Demo

open Foundation LedgerCore FiniteMap

/-- Nothing has been taken from an account or reserved there. -/
def Untouched (l : Ledger) (id : AccountId) : Prop :=
  ∃ account, l.accounts[id]? = some account
    ∧ account.balance.debitsPosted = .zero ∧ account.balance.debitsPending = .zero

/-- An untouched account that no stored transfer is to debit. -/
structure Undebited (l : Ledger) (id : AccountId) : Prop where
  untouched : Untouched l id
  transfers : ∀ (other : TransferId) (t : Transfer), l.transfers[other]? = some t →
    t.debitAccountId ≠ id

section Steps

variable {l l' : Ledger} {event : LedgerEvent} {id : AccountId}

theorem eq_zero_of_toNat {amount : Amount} (none : amount.toNat = 0) : amount = .zero := by
  obtain ⟨units⟩ := amount
  exact congrArg Amount.mk (Fin.ext none)

theorem Undebited.step (undebited : Undebited l id) (backed : l.Backed) (step : l.Step event l')
    (spared : ∀ t, l.recorded event = some t → t.debitAccountId ≠ id)
    : Undebited l' id where
  untouched := by
    obtain ⟨before, found, posted, pending⟩ := undebited.untouched
    obtain ⟨after, now, shifted⟩ := step.account_kept backed found
    have postsNone : l.posts Transfer.debitAccountId id event = 0 := by
      cases event with
      | transferPosted t => exact if_neg (spared t rfl)
      | transferPendingPosted pendingId postId amount timestamp =>
          cases stored : l.transfers[pendingId]? with
          | none => simp [Ledger.posts, stored]
          | some hold => simp [Ledger.posts, stored, undebited.transfers pendingId hold stored]
      | _ => rfl
    have reservesNone : Ledger.reserves Transfer.debitAccountId id event = 0 := by
      cases event with
      | transferPendingCreated t => exact if_neg (spared t rfl)
      | _ => rfl
    have sum := shifted.debitsPosted
    have held := shifted.debitsPending
    rw [posted, postsNone] at sum
    rw [pending, reservesNone] at held
    refine ⟨after, now, eq_zero_of_toNat sum, eq_zero_of_toNat ?_⟩
    exact (Nat.add_eq_zero_iff.mp held).1
  transfers other t found := by
    rcases step.transfer_origin found with ⟨records, -⟩ | ⟨before, there, rfl⟩
    · exact spared t records
    · have kept : (event.restate other before).debitAccountId = before.debitAccountId := by
        unfold LedgerEvent.restate
        split
        · split <;> rfl
        · rfl
      rw [kept]
      exact undebited.transfers other before there

end Steps

/-- A request that holds no funds of a merchant's account. -/
def Request.SparesMerchants (sv : Services) (request : Request) : Prop :=
  ∀ customerId ∈ request.payers sv, ∀ account ∈ merchantAccounts,
    AccountDirectory.customer customerId ≠ some account

-- payers and merchants are listed; customers are too many to try one by one
instance Request.decidableSparesMerchants (sv : Services) (request : Request)
    : Decidable (request.SparesMerchants sv) :=
  @List.decidableBAll _ _ (fun _ => List.decidableBAll _ _) _

theorem Request.SparesMerchants.recorded {sv : Services} {request : Request} {l : Ledger}
    {op : BatchOp} {id : AccountId} (spares : request.SparesMerchants sv)
    (asks : request.Asks sv op) (undebited : Undebited l id) (merchant : id ∈ merchantAccounts)
    : ∀ t, l.recorded (op.event l) = some t → t.debitAccountId ≠ id := by
  intro t records
  cases op with
  | createAccount | closeAccount => cases asks
  | transfer deposit =>
      cases records
      rintro rfl
      have vault : AccountDirectory.vaultAsset ∉ merchantAccounts := by decide
      rw [show t.debitAccountId = AccountDirectory.vaultAsset from asks] at merchant
      exact vault merchant
  | pending hold =>
      cases records
      rintro rfl
      obtain ⟨customerId, listed, payer⟩ := asks
      exact spares customerId listed _ merchant payer
  | postPending pendingId postId amount timestamp =>
      obtain ⟨hold, stored, rfl⟩ := Option.map_eq_some_iff.mp records
      exact undebited.transfers pendingId hold stored
  | voidPending pendingId timestamp => cases records

/-- Nothing is taken from the merchants, and the requests at work spare them. -/
structure Spared (sv : Services) (p : ServicePool) (rows : List (Request × Stage)) : Prop where
  backed : p.state.ledger.Backed
  undebited : ∀ id ∈ merchantAccounts, Undebited p.state.ledger id
  sparing : ∀ row ∈ rows, row.1.SparesMerchants sv

theorem sparing_set {sv : Services} {rows : List (Request × Stage)} {i : Nat} {request : Request}
    {stage stage' : Stage} (sparing : ∀ row ∈ rows, row.1.SparesMerchants sv)
    (there : rows[i]? = some (request, stage))
    : ∀ row ∈ rows.set i (request, stage'), row.1.SparesMerchants sv := by
  intro row listed
  rcases List.mem_or_eq_of_mem_set listed with old | rfl
  · exact sparing row old
  · have spares := sparing (request, stage) (List.mem_of_getElem? there)
    exact spares

/-- Only sparing requests arrive. -/
def ArriveSparing (sv : Services) (_ : ServicePool) : Event Request → Prop
  | .arrive request => request.SparesMerchants sv
  | .advance _ => True

theorem spared_preserved (sv : Services)
    : Pool.Preserved (Locking.exclusive Lock) (serviceProtocol sv) (Request.handle sv)
        (fun _ => ⟨none, .idle⟩) (ArriveSparing sv) (Spared sv) where
  arrive request _ spared sparing := by
    refine ⟨spared.backed, spared.undebited, fun row listed => ?_⟩
    rcases List.mem_append.mp listed with old | new
    · exact spared.sparing row old
    · rw [List.mem_singleton.mp new]
      exact sparing
  access {p rows i t locks update next stage stage'} spared _ _ _ there step _ _ := by
    have spares : t.request.SparesMerchants sv := spared.sparing _ (List.mem_of_getElem? there)
    have sparing : ∀ row ∈ rows.set i (t.request, stage'), row.1.SparesMerchants sv :=
      sparing_set spared.sparing there
    have calls : LedgerCall sv t.request stage.stamp p.state (update p.state) :=
      ServiceStep.ledgerCall step
    cases calls with
    | none ledger | refused _ _ _ _ ledger =>
        refine ⟨?_, ?_, sparing⟩
        · exact ledger ▸ spared.backed
        · exact ledger ▸ spared.undebited
    | applied op timed asks step =>
        refine ⟨spared.backed.step step, fun id merchant => ?_, sparing⟩
        have undebited := spared.undebited id merchant
        exact undebited.step spared.backed step (spares.recorded asks undebited merchant)
  lock spared _ _ there _ :=
    ⟨spared.backed, spared.undebited, sparing_set spared.sparing there⟩

theorem undebited_setup : ∀ id ∈ merchantAccounts, Undebited (stateAfter setupLedger) id := by
  have balances : ∀ id ∈ merchantAccounts,
      (stateAfter setupLedger).accounts[id]?.map
        (fun account => (account.balance.debitsPosted, account.balance.debitsPending))
      = some (.zero, .zero) := by
    decide +kernel
  have deposits : ∀ t ∈ values (stateAfter setupLedger).transfers,
      t.debitAccountId ∉ merchantAccounts := by
    decide +kernel
  intro id merchant
  constructor
  · obtain ⟨account, found, zero⟩ := Option.map_eq_some_iff.mp (balances id merchant)
    obtain ⟨posted, pending⟩ := Prod.mk.inj zero
    exact ⟨account, found, posted, pending⟩
  · rintro other t stored rfl
    exact deposits t (FiniteMap.mem_values_of_getElem? stored) merchant

/-- However requests arrive and interleave, if none of them names a customer whose account is a
merchant's, the merchants' accounts stay untouched.
-/
theorem merchants_untouched {sv : Services} {webhookSecret : Bytes}
    {programId authority : SolanaSettle.Pubkey} {s : AppState}
    (started : AppState.new sv.chain webhookSecret programId authority = .ok s)
    {events : List (Event Request)}
    (sparing : ∀ request, .arrive request ∈ events → request.SparesMerchants sv)
    : ∀ id ∈ merchantAccounts, Untouched (s.serve sv events).state.ledger id := by
  have ledger : s.ledger = stateAfter setupLedger := congrArg Books.ledger (books_of_new started)
  have initial : Spared sv (Pool.start s) [] := by
    refine ⟨?_, ?_, fun row listed => by cases listed⟩
    · exact ledger ▸ charted_setup.backed
    · exact ledger ▸ undebited_setup
  have guarded : Guarded (Pool.step (Locking.exclusive Lock) (Request.handle sv)) (ArriveSparing sv)
      (Pool.start s) events := by
    intro done event rest split
    cases event with
    | arrive request => exact sparing request (by simp [split])
    | advance thread => trivial
  obtain ⟨rows, -, spared⟩ := (spared_preserved sv).throughout (Request.enters sv)
    (Pool.tracked_start s) initial guarded events (List.prefix_refl events)
  exact fun id merchant => (spared.undebited id merchant).untouched

/-- Requests served one after the other, each to its end. -/
def oneByOne (requests : List Request) : List (Event Request) :=
  (requests.zipIdx).flatMap fun (request, thread) =>
    .arrive request :: List.replicate 16 (.advance thread)

def paidOrder : List Request :=
  [exampleAuthorization 101 "order", .capture 5000]

/-- Witness: customer 101 pays merchant 2, and the payment is captured. -/
theorem merchants_untouched_capture
    : ∃ s, exampleStart = .ok s
        ∧ (s.serve exampleServices (oneByOne paidOrder)).state.payments[(5000 : U128)]?.map
            Payment.state = some .captured
        ∧ ∀ id ∈ merchantAccounts,
            Untouched (s.serve exampleServices (oneByOne paidOrder)).state.ledger id := by
  have captured : okAnd exampleStart fun s =>
      decide ((s.serve exampleServices (oneByOne paidOrder)).state.payments[(5000 : U128)]?.map
        Payment.state = some .captured) := by
    decide +kernel
  obtain ⟨s, started, paid⟩ := exists_ok_of_okAnd captured
  refine ⟨s, started, of_decide_eq_true paid, merchants_untouched started ?_⟩
  intro request listed
  have spares : (exampleAuthorization 101 "order").SparesMerchants exampleServices := by decide
  have spares' : (Request.capture 5000).SparesMerchants exampleServices := by decide
  simp only [oneByOne, paidOrder, List.zipIdx_cons, List.zipIdx_nil, List.flatMap_cons,
    List.flatMap_nil, List.append_nil, List.mem_append, List.mem_cons, Event.arrive.injEq,
    List.mem_replicate, reduceCtorEq, and_false, or_false] at listed
  rcases listed with rfl | rfl
  · exact spares
  · exact spares'

/-- What is debited from an account and reserved there. -/
def debitsAt (l : Ledger) (id : AccountId) : Option (Amount × Amount) :=
  l.accounts[id]?.map fun account => (account.balance.debitsPosted, account.balance.debitsPending)

def merchantCharge : List Request :=
  [.deposit 1_000_001 none, exampleAuthorization 1_000_001 "order"]

/-- Customer 1,000,001 has merchant 1's account: a payment of theirs reserves the merchant's money,
and its capture spends it.
-/
theorem customer_spends_merchant
    : ∃ s, exampleStart = .ok s
        ∧ let charged := s.serve exampleServices (oneByOne merchantCharge)
          let captured := s.serve exampleServices (oneByOne (merchantCharge ++ [.capture 5000]))
          debitsAt charged.state.ledger ⟨2_000_001⟩ = some (.zero, ⟨10_000_000⟩)
          ∧ debitsAt captured.state.ledger ⟨2_000_001⟩ = some (⟨10_000_000⟩, .zero)
          ∧ ¬ ∀ id ∈ merchantAccounts, Untouched charged.state.ledger id := by
  have spent : okAnd exampleStart fun s =>
      let charged := s.serve exampleServices (oneByOne merchantCharge)
      let captured := s.serve exampleServices (oneByOne (merchantCharge ++ [.capture 5000]))
      decide (debitsAt charged.state.ledger ⟨2_000_001⟩ = some (.zero, ⟨10_000_000⟩)
        ∧ debitsAt captured.state.ledger ⟨2_000_001⟩ = some (⟨10_000_000⟩, .zero)) := by
    decide +kernel
  obtain ⟨s, started, both⟩ := exists_ok_of_okAnd spent
  obtain ⟨reserved, debited⟩ := of_decide_eq_true both
  refine ⟨s, started, reserved, debited, fun untouched => ?_⟩
  obtain ⟨account, found, -, pending⟩ := untouched ⟨2_000_001⟩ (by decide)
  simp only [debitsAt, found, Option.map_some, pending, Option.some.injEq, Prod.mk.injEq]
    at reserved
  exact absurd reserved.2 (by decide)

end TrustLedger.Demo
