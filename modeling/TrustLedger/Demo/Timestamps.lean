import TrustLedger.Demo.Drift
import TrustLedger.Demo.Service
import TrustLedger.LedgerCore.Timeliness

/-! Timestamps of requests served side by side. A timestamp is drawn before the ledger is locked, so
a request that draws later can reach the ledger first, and the other one is rejected as late. Nobody
is if timestamps are drawn in turn.
-/

namespace TrustLedger.Demo

open Foundation LedgerCore Pool

abbrev ServiceAccess := Access Lock AppState Request

/-- The access draws a timestamp. -/
def draws (access : ServiceAccess) : Bool :=
  access.after.nextTimestamp ≠ access.before.nextTimestamp

/-- The timestamp that a request goes on with: that of its last draw. -/
def lastDrawn (sv : Services) (log : List ServiceAccess) (thread : Nat) : Option U64 :=
  (log.findRev? fun access => access.thread = thread && draws access).map fun access =>
    access.request.stamp sv access.before.nextTimestamp

/-- The request's next access draws a timestamp. -/
def drawsNext (s : AppState) (t : ServiceThread) : Bool :=
  match t.rest with
  | .access _ update _ => (update s).nextTimestamp ≠ s.nextTimestamp
  | _ => false

/-- A webhook's own timestamp is neither behind the ledger nor ahead of the clock. -/
def Request.InTime (sv : Services) (s : AppState) : Request → Prop
  | .webhook _ body =>
      match sv.parsePayload body with
      | .ok payload =>
          s.ledger.lastTimestamp ≤ payload.timestamp ∧ payload.timestamp ≤ s.nextTimestamp
      | .error _ => True
  | _ => True

instance Request.decidableInTime (sv : Services) (s : AppState) (request : Request)
    : Decidable (request.InTime sv s) := by
  unfold Request.InTime
  split
  · split <;> infer_instance
  · infer_instance

/-- Every other request that has drawn a timestamp is over. -/
def OthersOver (p : ServicePool) (thread : Nat) : Prop :=
  ∀ entry ∈ p.threads.zipIdx, entry.2 ≠ thread →
    (p.log.any fun access => access.thread = entry.2 && draws access) → entry.1.rest.isOver

/-- A timestamp is drawn while nobody else is using one, the clock does not run over, and a webhook
is in time.
-/
def DrawsInTurn (sv : Services) (p : ServicePool) : Event Request → Prop
  | .arrive _ => True
  | .advance thread =>
      ∀ t ∈ p.threads[thread]?, drawsNext p.state t →
        OthersOver p thread ∧ p.state.nextTimestamp.val + 1 < 2 ^ 64 ∧ t.request.InTime sv p.state

instance decidableDrawsInTurn (sv : Services) (p : ServicePool) (event : Event Request)
    : Decidable (DrawsInTurn sv p event) := by
  unfold DrawsInTurn OthersOver
  cases event <;> infer_instance

/-- A request's timestamp is the last one it drew. -/
def StampsDrawn (sv : Services) (log : List ServiceAccess) (rows : List (Request × Stage)) : Prop :=
  ∀ i : Nat, (rows[i]?.bind fun row => row.2.stamp) = lastDrawn sv log i

/-- Only this request, if any, is using a timestamp, and it is current. -/
def UsedBy (sv : Services) (p : ServicePool) (user : Nat) : Prop :=
  ∀ {i : Nat} {t : ServiceThread} {timestamp : U64}, p.threads[i]? = some t → t.rest.isOver = false
    → lastDrawn sv p.log i = some timestamp
    → i = user ∧ p.state.ledger.lastTimestamp ≤ timestamp ∧ timestamp ≤ p.state.nextTimestamp

/-- At most one request is using a timestamp, and no call was late. -/
structure InTurn (sv : Services) (p : ServicePool) (rows : List (Request × Stage)) : Prop where
  clock : p.state.ledger.lastTimestamp ≤ p.state.nextTimestamp
  drawn : StampsDrawn sv p.log rows
  used : ∃ user, UsedBy sv p user
  punctual : ∀ error ∈ p.state.refusals, ¬ error.IsLate

section Steps

variable {sv : Services} {request : Request} {locks : List Lock} {update : AppState → AppState}
  {s : AppState} {stage stage' : Stage}

/-- What an access does to the clock and to the request's timestamp. -/
inductive ClockStep (sv : Services) (request : Request) (s s' : AppState) (stage stage' : Stage)
    : Prop where
  | kept (clock : s'.nextTimestamp = s.nextTimestamp) (stamp : stage'.stamp = stage.stamp)
  | drawn (clock : s'.nextTimestamp = s.nextTimestamp + 1)
    (stamp : stage'.stamp = some (request.stamp sv s.nextTimestamp))
    (ledger : s'.ledger = s.ledger) (refusals : s'.refusals = s.refusals)

theorem ServiceStep.clockStep (step : ServiceStep sv request locks update s stage stage')
    : ClockStep sv request s (update s) stage stage' := by
  have unchanged {core : Core} (now : (update s).core = core)
      (clock : core.nextTimestamp = s.nextTimestamp)
      : (update s).nextTimestamp = s.nextTimestamp :=
    (congrArg Core.nextTimestamp now).trans clock
  cases step with
  | draw now =>
      exact .drawn (congrArg Core.nextTimestamp now) rfl (congrArg Core.ledger now)
        (congrArg Core.refusals now)
  | quiet now | call _ _ _ now | post _ _ _ _ _ now | store _ _ _ now | capture _ _ _ now
    | select _ now | ach now | solana _ _ _ _ now | mark _ now =>
      exact .kept (unchanged now rfl) rfl

/-- A request in time goes on with a current timestamp. -/
theorem Request.InTime.stamp (inTime : request.InTime sv s)
    (clock : s.ledger.lastTimestamp ≤ s.nextTimestamp)
    : s.ledger.lastTimestamp ≤ request.stamp sv s.nextTimestamp
      ∧ request.stamp sv s.nextTimestamp ≤ s.nextTimestamp := by
  cases request with
  | webhook signature body =>
      cases parsed : sv.parsePayload body with
      | error text =>
          simp only [Request.stamp, parsed]
          exact ⟨clock, le_rfl⟩
      | ok payload =>
          simp only [Request.stamp, Request.InTime, parsed] at inTime ⊢
          exact inTime
  | _ => exact ⟨clock, le_rfl⟩

theorem lastDrawn_snoc (log : List ServiceAccess) (access : ServiceAccess) (thread : Nat)
    : lastDrawn sv (log ++ [access]) thread
      = if access.thread = thread ∧ draws access then
          some (access.request.stamp sv access.before.nextTimestamp)
        else lastDrawn sv log thread := by
  rw [lastDrawn, List.findRev?_eq_find?_reverse, List.reverse_append, List.reverse_singleton,
    List.singleton_append, List.find?_cons]
  split <;> simp_all [lastDrawn, List.findRev?_eq_find?_reverse]

theorem any_of_lastDrawn {log : List ServiceAccess} {thread : Nat} {timestamp : U64}
    (drawn : lastDrawn sv log thread = some timestamp)
    : log.any fun access => access.thread = thread && draws access := by
  obtain ⟨access, found, -⟩ := Option.map_eq_some_iff.mp drawn
  rw [List.findRev?_eq_find?_reverse] at found
  have drew := List.find?_some found
  exact List.any_eq_true.mpr
    ⟨access, List.mem_reverse.mp (List.mem_of_find?_eq_some found), drew⟩

section StampsDrawn

variable {log : List ServiceAccess} {rows : List (Request × Stage)} {i : Nat}

variable (drawn : StampsDrawn sv log rows)

include drawn

theorem StampsDrawn.eq {row : Request × Stage} (there : rows[i]? = some row)
    : row.2.stamp = lastDrawn sv log i := by
  rw [← drawn i, there]
  rfl

theorem StampsDrawn.arrive (new : stage.stamp = none)
    : StampsDrawn sv log (rows ++ [(request, stage)]) := by
  intro j
  rw [← drawn j]
  rcases Nat.lt_trichotomy j rows.length with early | rfl | late
  · rw [List.getElem?_append_left early]
  · simp [new]
  · rw [List.getElem?_eq_none late.le, List.getElem?_eq_none (by simp; omega)]

theorem StampsDrawn.lock (there : rows[i]? = some (request, stage))
    (same : stage'.stamp = stage.stamp)
    : StampsDrawn sv log (rows.set i (request, stage')) := by
  intro j
  rw [← drawn j]
  by_cases here : i = j
  · subst here
    rw [List.getElem?_set_self (List.getElem?_eq_some_iff.mp there).1, there]
    exact same
  · rw [List.getElem?_set_ne here]

theorem StampsDrawn.access (there : rows[i]? = some (request, stage)) (now : stage'.stamp
      = if draws ⟨i, request, locks, update, s⟩ then some (request.stamp sv s.nextTimestamp)
        else stage.stamp)
    : StampsDrawn sv (log ++ [⟨i, request, locks, update, s⟩]) (rows.set i (request, stage')) := by
  intro j
  rw [lastDrawn_snoc]
  by_cases here : i = j
  · subst here
    rw [List.getElem?_set_self (List.getElem?_eq_some_iff.mp there).1, ← drawn i, there]
    simpa using now
  · rw [List.getElem?_set_ne here, if_neg (fun both => here both.1)]
    exact drawn j

end StampsDrawn

theorem le_succ_of_val_lt {clock : U64} (room : clock.val + 1 < 2 ^ 64) : clock ≤ clock + 1 := by
  rw [Fin.le_def, Fin.val_add_one_of_lt' room]
  exact Nat.le_succ _

end Steps

section Pools

variable {sv : Services} {p : ServicePool} {rows : List (Request × Stage)} {i j : Nat}
  {t t' u : ServiceThread} {stage stage' : Stage}

theorem succ_ne_self (clock : U64) : clock + 1 ≠ clock := by
  intro same
  have value := congrArg Fin.val same
  have bound := clock.isLt
  simp only [Fin.val_add] at value
  norm_num at value bound
  omega

/-- Who is unfinished after an unfinished request has moved on was so before. -/
theorem unfinished_before (found : p.threads[i]? = some t) (unfinished : t.rest.isOver = false)
    (found' : (p.threads.set i t')[j]? = some u) (unfinished' : u.rest.isOver = false)
    : ∃ v, p.threads[j]? = some v ∧ v.rest.isOver = false := by
  rcases getElem?_set_cases found' with ⟨rfl, -⟩ | ⟨-, old⟩
  · exact ⟨t, found, unfinished⟩
  · exact ⟨u, old, unfinished'⟩

section Accesses

variable {locks : List Lock} {update : AppState → AppState} (found : p.threads[i]? = some t)
  (unfinished : t.rest.isOver = false)

include found unfinished

/-- After an access that draws no timestamp, who is using one was using it before. -/
theorem UsedBy.kept {user : Nat} (used : UsedBy sv p user)
    (idle : ¬ draws ⟨i, t.request, locks, update, p.state⟩)
    (found' : (p.threads.set i t')[j]? = some u) (unfinished' : u.rest.isOver = false)
    {timestamp : U64}
    (drew : lastDrawn sv (p.log ++ [⟨i, t.request, locks, update, p.state⟩]) j = some timestamp)
    : lastDrawn sv p.log j = some timestamp ∧ j = user
      ∧ p.state.ledger.lastTimestamp ≤ timestamp ∧ timestamp ≤ p.state.nextTimestamp := by
  rw [lastDrawn_snoc, if_neg fun both => idle both.2] at drew
  obtain ⟨v, old, was⟩ := unfinished_before found unfinished found' unfinished'
  exact ⟨drew, used old was drew⟩

/-- After a draw in turn, only who drew is using a timestamp. -/
theorem usedBy_of_draws (ended : OthersOver p i)
    (drawn : draws ⟨i, t.request, locks, update, p.state⟩)
    (current : (update p.state).ledger.lastTimestamp ≤ t.request.stamp sv p.state.nextTimestamp
      ∧ t.request.stamp sv p.state.nextTimestamp ≤ (update p.state).nextTimestamp)
    : UsedBy sv
        {
          state := update p.state
          threads := p.threads.set i t'
          log := p.log ++ [⟨i, t.request, locks, update, p.state⟩]
        }
        i := by
  intro j u timestamp found' unfinished' drew
  rw [lastDrawn_snoc] at drew
  by_cases here : i = j
  · rw [if_pos ⟨here, drawn⟩] at drew
    rw [← Option.some.inj drew]
    exact ⟨here.symm, current⟩
  · -- another request that has a timestamp has drawn it, so it is over
    rw [if_neg fun both => here both.1] at drew
    obtain ⟨v, old, was⟩ := unfinished_before found unfinished found' unfinished'
    have isOver := ended (v, j) (List.mk_mem_zipIdx_iff_getElem?.mpr old) (Ne.symm here)
      (any_of_lastDrawn drew)
    simp [was] at isOver

end Accesses

theorem InTurn.access (inTurn : InTurn sv p rows) (ok : DrawsInTurn sv p (.advance i))
    (found : p.threads[i]? = some t) {locks : List Lock} {update : AppState → AppState}
    {next : AppState → Handler Reply} (rest : t.rest = .access locks update next)
    (there : rows[i]? = some (t.request, stage))
    (step : ServiceStep sv t.request locks update p.state stage stage')
    : InTurn sv
        {
          state := update p.state
          threads := p.threads.set i { t with rest := next p.state }
          log := p.log ++ [⟨i, t.request, locks, update, p.state⟩]
        }
        (rows.set i (t.request, stage')) := by
  have unfinished : t.rest.isOver = false := by
    rw [rest]
    rfl
  obtain ⟨clocked, drawn, ⟨user, used⟩, punctual⟩ := inTurn
  have own {timestamp : U64} (timed : stage.stamp = some timestamp) :=
    used found unfinished ((drawn.eq there).symm.trans timed)
  cases step.clockStep with
  | kept clock stamp =>
      have idle : ¬ draws ⟨i, t.request, locks, update, p.state⟩ := by
        simp [draws, Access.after, clock]
      have drawn' := drawn.access there (stamp.trans (if_neg idle).symm)
      cases step.ledgerCall with
      | none ledger refusals =>
          refine ⟨?_, drawn', ⟨user, fun found' open' drew => ?_⟩, refusals ▸ punctual⟩
          · rwa [ledger, clock]
          · rw [ledger, clock]
            exact (used.kept found unfinished idle found' open' drew).2
      | refused op error timed ran ledger refusals =>
          refine ⟨?_, drawn', ⟨user, fun found' open' drew => ?_⟩, fun other listed => ?_⟩
          · rwa [ledger, clock]
          · rw [ledger, clock]
            exact (used.kept found unfinished idle found' open' drew).2
          · rw [refusals] at listed
            rcases List.mem_append.mp listed with old | new
            · exact punctual other old
            · rw [List.mem_singleton.mp new, (Ledger.applyBatchOp_late ran).1]
              exact not_lt.mpr (own timed).2.1
      | applied op timed asks step refusals =>
          -- the ledger moves to the caller's own timestamp, and nobody else is using one
          have last : (update p.state).ledger.lastTimestamp = stampOf op :=
            (step_lastTimestamp step).trans (eventStamp_event op p.state.ledger)
          obtain ⟨mine, -, ahead⟩ := own timed
          refine ⟨?_, drawn', ⟨user, fun found' open' drew => ?_⟩, refusals ▸ punctual⟩
          · rwa [last, clock]
          · obtain ⟨drew', rfl, -, current⟩ :=
              used.kept found unfinished idle found' open' drew
            have same := (drawn.eq there).symm.trans timed
            rw [mine, drew'] at same
            rw [last, clock, Option.some.inj same]
            exact ⟨rfl, le_rfl, ahead⟩
  | drawn clock stamp ledger refusals =>
      have drawing : drawsNext p.state t := by
        simp only [drawsNext, rest, clock]
        exact decide_eq_true (succ_ne_self _)
      obtain ⟨ended, room, inTime⟩ := ok t found drawing
      have later : p.state.nextTimestamp ≤ (update p.state).nextTimestamp := by
        rw [clock]
        exact le_succ_of_val_lt room
      have logged : draws ⟨i, t.request, locks, update, p.state⟩ := by
        simp only [draws, Access.after, clock]
        exact decide_eq_true (succ_ne_self _)
      obtain ⟨behind, ahead⟩ := inTime.stamp clocked
      refine ⟨?_, drawn.access there (by rw [if_pos logged, stamp]),
        ⟨i, usedBy_of_draws found unfinished ended logged ?_⟩, refusals ▸ punctual⟩
      · rw [ledger]
        exact clocked.trans later
      · rw [ledger]
        exact ⟨behind, ahead.trans later⟩

theorem inTurn_preserved (sv : Services)
    : Pool.Preserved (Locking.exclusive Lock) (serviceProtocol sv) (Request.handle sv)
        (fun _ => ⟨none, .idle⟩) (DrawsInTurn sv) (InTurn sv) where
  arrive {p rows} request length inTurn _ := by
    obtain ⟨user, used⟩ := inTurn.used
    refine { inTurn with
      drawn := inTurn.drawn.arrive rfl
      used := ⟨user, fun {i t timestamp} found unfinished drew => ?_⟩ }
    rcases getElem?_snoc_cases found with ⟨-, old⟩ | ⟨rfl, -⟩
    · exact used old unfinished drew
    · rw [← inTurn.drawn, List.getElem?_eq_none length.le] at drew
      cases drew
  access inTurn ok found rest there step _ _ := inTurn.access ok found rest there step
  lock {p rows i t rest held stage stage'} inTurn found unfinished there abandons := by
    have stamp : stage'.stamp = stage.stamp := by
      rcases abandons with rfl | rfl | ⟨-, rfl⟩
      · rfl
      · rfl
      · rfl
    obtain ⟨user, used⟩ := inTurn.used
    refine { inTurn with
      drawn := inTurn.drawn.lock there stamp
      used := ⟨user, fun found' unfinished' drew => ?_⟩ }
    obtain ⟨v, old, was⟩ := unfinished_before found unfinished found' unfinished'
    exact used old was drew

end Pools

/-- No ledger call was rejected as late, and none will be with a timestamp already drawn: a request
that is not over has none that is behind the ledger.
-/
structure Punctual (sv : Services) (p : ServicePool) : Prop where
  accepted : ∀ error ∈ p.state.refusals, ¬ error.IsLate
  current
    : ∀ {i : Nat} {t : ServiceThread} {timestamp : U64},
      p.threads[i]? = some t → t.rest.isOver = false → lastDrawn sv p.log i = some timestamp
      → p.state.ledger.lastTimestamp ≤ timestamp

/-- If timestamps are drawn in turn, no ledger call of a request is rejected as late, however the
requests arrive and interleave otherwise.
-/
theorem no_late_calls {sv : Services} {webhookSecret : Bytes}
    {programId authority : SolanaSettle.Pubkey} {s : AppState}
    (started : AppState.new sv.chain webhookSecret programId authority = .ok s)
    {events : List (Event Request)}
    (inTurn : Guarded (Pool.step (Locking.exclusive Lock) (Request.handle sv)) (DrawsInTurn sv)
      (Pool.start s) events)
    : Punctual sv (s.serve sv events) := by
  have fresh := fresh_of_new started
  have ledger : s.ledger = stateAfter setupLedger := congrArg Books.ledger fresh.books
  have last : (stateAfter setupLedger).lastTimestamp = 1_700_000_000 := by decide +kernel
  have initial : InTurn sv (Pool.start s) [] := by
    refine ⟨?_, ?_, ⟨0, fun found => (by cases found)⟩, ?_⟩
    · rw [Pool.start, ledger, last, fresh.nextTimestamp]
      decide
    · exact fun i => rfl
    · intro error listed
      rw [Pool.start, fresh.refusals] at listed
      cases listed
  obtain ⟨rows, -, final⟩ := (inTurn_preserved sv).throughout (Request.enters sv)
    (tracked_start s) initial inTurn events (List.prefix_refl events)
  refine ⟨final.punctual, fun found unfinished drawn => ?_⟩
  obtain ⟨user, used⟩ := final.used
  exact (used found unfinished drawn).2.1

/-- Two authorizations and a capture. The second authorization arrives before the first is over, and
draws its timestamp afterwards.
-/
def exampleTurns : List (Event Request) :=
  List.flatten [
    [.arrive (exampleAuthorization 101 "order-1"), .arrive (exampleAuthorization 101 "order-2")],
    List.replicate 3 (.advance 1), List.replicate 9 (.advance 0), List.replicate 6 (.advance 1),
    [.arrive (.capture 5000)], List.replicate 7 (.advance 2)]

/-- Witness: the three requests are answered, and none of their calls is refused. -/
theorem no_late_calls_in_turn
    : ∃ s, exampleStart = .ok s
        ∧ (s.serve exampleServices exampleTurns).threads.all (fun t => t.rest.isOver)
        ∧ Punctual exampleServices (s.serve exampleServices exampleTurns) := by
  have facts : okAnd exampleStart fun s =>
      decide ((s.serve exampleServices exampleTurns).threads.all (fun t => t.rest.isOver)
        ∧ Guarded (Pool.step (Locking.exclusive Lock) (Request.handle exampleServices))
            (DrawsInTurn exampleServices) (Pool.start s) exampleTurns) := by
    decide +kernel
  obtain ⟨s, started, holds⟩ := exists_ok_of_okAnd facts
  obtain ⟨answered, inTurn⟩ := of_decide_eq_true holds
  exact ⟨s, started, answered, no_late_calls started inTurn⟩

/-- The first authorization draws its timestamp, then the second is served to its end. -/
def exampleOvertaking : List (Event Request) :=
  List.flatten [
    [.arrive (exampleAuthorization 101 "order-1"), .arrive (exampleAuthorization 101 "order-2")],
    List.replicate 4 (.advance 0), List.replicate 9 (.advance 1), List.replicate 5 (.advance 0)]

/-- The first authorization reaches the ledger with the earlier timestamp, and is rejected. -/
theorem overtaken_call_late
    : ∃ s, exampleStart = .ok s
        ∧ (s.serve exampleServices exampleOvertaking).state.refusals
          = [.timestampBehindPrior 1_700_000_001 1_700_000_002]
        ∧ ¬ Punctual exampleServices (s.serve exampleServices exampleOvertaking) := by
  have facts : okAnd exampleStart fun s =>
      decide ((s.serve exampleServices exampleOvertaking).state.refusals
        = [.timestampBehindPrior 1_700_000_001 1_700_000_002]) := by
    decide +kernel
  obtain ⟨s, started, holds⟩ := exists_ok_of_okAnd facts
  have refused := of_decide_eq_true holds
  refine ⟨s, started, refused, fun punctual => ?_⟩
  have late := punctual.accepted (.timestampBehindPrior 1_700_000_001 1_700_000_002)
  rw [refused] at late
  exact late (List.mem_singleton_self _) ⟨_, _, rfl⟩

end TrustLedger.Demo
