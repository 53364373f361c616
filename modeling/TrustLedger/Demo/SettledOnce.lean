import TrustLedger.Demo.Payouts
import TrustLedger.Demo.Settlement

/-! Settlement batches of requests served side by side. A batch is selected, submitted and marked
under the settlement lock, while payments are captured and replaced under other locks. Still no
transfer is accepted by a rail twice: an id is in flight until its payment is stored, a stored
payment keeps it until a batch with it is accepted, and the lock is held until that is marked.
-/

namespace TrustLedger.Demo

open Foundation LedgerCore FiniteMap SolanaSettle Pool

/-- The ids of a batch. -/
def idsOf (transfers : List Transfer) : List U128 :=
  transfers.map fun t => t.id.raw

/-- The ids in the batches that rails have accepted. -/
def acceptedIds (accepted : List AcceptedBatch) : List U128 :=
  accepted.flatMap fun batch => idsOf batch.transfers

/-- The ledger has a transfer of this id. -/
def Recorded (l : Ledger) (id : U128) : Prop :=
  l.transfers[(⟨id⟩ : TransferId)]?.isSome

/-- A payment captured with a transfer. -/
structure CapturedAs (payments : Payments) (key : U128) (p : Payment) (id : U128)
    : Prop where
  stored : payments[key]? = some p
  captured : p.state = .captured
  posted : p.postedTransferId = some id

/-- A captured transfer that no rail has accepted yet. -/
def Core.Awaits (core : Core) (id : U128) : Prop :=
  Recorded core.ledger id ∧ id ∉ acceptedIds core.accepted

/-- Where the id of a captured transfer may be. An id in flight is nowhere else. A selected batch
has not been accepted; payments in an accepted one are marked, or about to be.
-/
structure Once (core : Core) (works : List Work) : Prop where
  captured
    : ∀ {key : U128} {p : Payment} {id : U128}, CapturedAs core.payments key p id
      → Recorded core.ledger id
  settled : ∀ {id : U128}, id ∈ acceptedIds core.accepted → Recorded core.ledger id
  posted
    : ∀ {id : U128}, .posted id ∈ works
      → core.Awaits id ∧ ∀ (key : U128) (p : Payment), ¬ CapturedAs core.payments key p id
  postedOnce
    : ∀ {i j : Nat} {id : U128}, works[i]? = some (.posted id) → works[j]? = some (.posted id)
      → i = j
  selected
    : ∀ {transfers : List Transfer}, .selected transfers ∈ works
      → (idsOf transfers).Nodup ∧ ∀ id ∈ idsOf transfers, core.Awaits id ∧ .posted id ∉ works
  marked
    : ∀ {key : U128} {p : Payment} {id : U128}, CapturedAs core.payments key p id
      → id ∈ acceptedIds core.accepted
      → p.settlementBatchSeq.isSome
        ∨ ∃ transfers, .submitted transfers ∈ works ∧ id ∈ idsOf transfers
  apart : (acceptedIds core.accepted).Nodup

section Moves

variable {core : Core} {payments : Payments} {works : List Work} {i : Nat}
  {work work' : Work} {key id : U128} {q : Payment} {s : AppState}

theorem mem_set_of_ne {other : Work} (there : works[i]? = some work) (listed : other ∈ works)
    (differs : other ≠ work)
    : other ∈ works.set i work' := by
  obtain ⟨j, found⟩ := List.mem_iff_getElem?.mp listed
  have elsewhere : i ≠ j := by
    rintro rfl
    exact differs (Option.some.inj (found.symm.trans there))
  refine List.mem_iff_getElem?.mpr ⟨j, ?_⟩
  rwa [List.getElem?_set_ne elsewhere]

section Moved

variable (once : Once core works) (there : works[i]? = some work)
  (sent : ∀ transfers, work = .submitted transfers → ∀ (key : U128) (p : Payment) (id : U128),
    CapturedAs core.payments key p id → id ∈ idsOf transfers → p.settlementBatchSeq.isSome)

include once there sent

theorem Once.set
    (flies : ∀ id, work' = .posted id → core.Awaits id
      ∧ (∀ (key : U128) (p : Payment), ¬ CapturedAs core.payments key p id) ∧ .posted id ∉ works
      ∧ ∀ transfers, .selected transfers ∈ works → id ∉ idsOf transfers)
    (selects : ∀ transfers, work' = .selected transfers → (idsOf transfers).Nodup
      ∧ ∀ id ∈ idsOf transfers, core.Awaits id ∧ .posted id ∉ works)
    : Once core (works.set i work') where
  captured := once.captured
  settled := once.settled
  posted listed := by
    rcases List.mem_or_eq_of_mem_set listed with old | new
    · exact once.posted old
    · obtain ⟨awaits, unowned, -⟩ := flies _ new.symm
      exact ⟨awaits, unowned⟩
  postedOnce found found' := by
    rcases getElem?_set_cases found with ⟨rfl, new⟩ | ⟨-, old⟩
    · rcases getElem?_set_cases found' with ⟨rfl, -⟩ | ⟨-, old'⟩
      · rfl
      · exact absurd (List.mem_of_getElem? old') (flies _ new.symm).2.2.1
    · rcases getElem?_set_cases found' with ⟨rfl, new'⟩ | ⟨-, old'⟩
      · exact absurd (List.mem_of_getElem? old) (flies _ new'.symm).2.2.1
      · exact once.postedOnce old old'
  selected {transfers} listed := by
    have facts : (idsOf transfers).Nodup ∧ ∀ id ∈ idsOf transfers,
        core.Awaits id ∧ .posted id ∉ works := by
      rcases List.mem_or_eq_of_mem_set listed with old | new
      · exact once.selected old
      · exact selects _ new.symm
    refine ⟨facts.1, fun id named => ?_⟩
    obtain ⟨awaits, landed⟩ := facts.2 id named
    refine ⟨awaits, fun flying => ?_⟩
    rcases List.mem_or_eq_of_mem_set flying with old | new
    · exact landed old
    · rcases List.mem_or_eq_of_mem_set listed with before | now
      · exact (flies id new.symm).2.2.2 transfers before named
      · cases new.trans now.symm
  marked {key p id} owned listed := by
    rcases once.marked owned listed with done | ⟨transfers, sending, named⟩
    · exact .inl done
    · by_cases same : work = .submitted transfers
      · exact .inl (sent transfers same key p id owned named)
      · exact .inr ⟨transfers, mem_set_of_ne there sending (Ne.symm same), named⟩
  apart := once.apart

/-- A request gives its work up, unless a rail has accepted its batch. -/
theorem Once.drop : Once core (works.set i .idle) :=
  once.set there sent (fun _ same => by cases same) (fun _ same => by cases same)

end Moved

theorem Once.grow (once : Once core works) {l : Ledger}
    (kept : ∀ {id}, Recorded core.ledger id → Recorded l id)
    : Once { core with ledger := l } works :=
  {
    once with
    captured := fun owned => kept (once.captured owned)
    settled := fun listed => kept (once.settled listed)
    posted := fun listed => by
      obtain ⟨⟨recorded, fresh⟩, unowned⟩ := once.posted listed
      exact ⟨⟨kept recorded, fresh⟩, unowned⟩
    selected := fun listed => by
      obtain ⟨distinct, each⟩ := once.selected listed
      refine ⟨distinct, fun id named => ?_⟩
      obtain ⟨⟨recorded, fresh⟩, landed⟩ := each id named
      exact ⟨⟨kept recorded, fresh⟩, landed⟩
  }

theorem CapturedAs.of_insert {key' : U128} {p : Payment}
    (owned : CapturedAs (payments.insert key p) key' q id)
    : (p.state = .captured ∧ p.postedTransferId = some id) ∨ CapturedAs payments key' q id := by
  have stored := owned.stored
  rw [Std.ExtTreeMap.getElem?_insert] at stored
  split at stored
  · cases stored
    exact .inl ⟨owned.captured, owned.posted⟩
  · exact .inr ⟨stored, owned.captured, owned.posted⟩

/-- A payment is stored whose transfer, if it is captured, is in no batch and no longer in flight.
-/
theorem Once.insert (once : Once core works) (key : U128) (p : Payment)
    (settles : ∀ id, p.state = .captured ∧ p.postedTransferId = some id
      → core.Awaits id ∧ .posted id ∉ works)
    : Once { core with payments := core.payments.insert key p } works :=
  {
    once with
    captured := fun owned => owned.of_insert.elim (fun new => (settles _ new).1.1) once.captured
    posted := fun flying => by
      obtain ⟨awaits, unowned⟩ := once.posted flying
      refine ⟨awaits, fun key' q owned => ?_⟩
      exact owned.of_insert.elim (fun new => (settles _ new).2 flying) (unowned key' q)
    marked := fun owned listed => owned.of_insert.elim
      (fun new => absurd listed (settles _ new).1.2) fun old => once.marked old listed
  }

@[simp] theorem acceptedIds_concat (accepted : List AcceptedBatch) (batch : AcceptedBatch)
    : acceptedIds (accepted ++ [batch]) = acceptedIds accepted ++ idsOf batch.transfers := by
  simp [acceptedIds]

/-- A rail accepts the batch of a request that goes on to mark it; no one else has selected one. -/
theorem Once.accept (once : Once core works) (rail : String) {transfers : List Transfer}
    (there : works[i]? = some (.selected transfers))
    (alone : ∀ (j : Nat) (other : Work), j ≠ i → works[j]? = some other → ¬ other.needs .settlement)
    : Once { core with accepted := core.accepted ++ [⟨rail, transfers⟩] }
        (works.set i (.submitted transfers)) := by
  obtain ⟨distinct, each⟩ := once.selected (List.mem_of_getElem? there)
  have sending : .submitted transfers ∈ works.set i (.submitted transfers) :=
    List.mem_set (List.getElem?_eq_some_iff.mp there).1 _
  have moved : Once core (works.set i (.submitted transfers)) :=
    once.set there (fun _ same => by cases same) (fun _ same => by cases same)
      (fun _ same => by cases same)
  refine
    {
      moved with
      settled := fun {id} listed => ?_
      posted := fun {id} flying => ?_
      selected := fun {others} selected => ?_
      marked := fun {key p id} owned listed => ?_
      apart := ?_
    }
  · rw [acceptedIds_concat, List.mem_append] at listed
    exact listed.elim once.settled fun new => (each id new).1.1
  · obtain ⟨⟨recorded, fresh⟩, unowned⟩ := moved.posted flying
    refine ⟨⟨recorded, ?_⟩, unowned⟩
    rw [acceptedIds_concat, List.mem_append, not_or]
    refine ⟨fresh, fun named => (each id named).2 ?_⟩
    rcases List.mem_or_eq_of_mem_set flying with old | new
    · exact old
    · cases new
  · obtain ⟨j, found⟩ := List.mem_iff_getElem?.mp selected
    rcases getElem?_set_cases found with ⟨-, new⟩ | ⟨differs, old⟩
    · cases new
    · exact absurd rfl (alone j _ differs old)
  · rw [acceptedIds_concat, List.mem_append] at listed
    exact listed.elim (moved.marked owned) fun new => .inr ⟨transfers, sending, new⟩
  · rw [acceptedIds_concat]
    exact List.Nodup.append once.apart distinct fun id old new => (each id new).1.2 old

theorem Payment.markSettled_settlementBatchSeq (p : Payment) (settledIds : List U128)
    (batchSeq : U64)
    : (p.markSettled settledIds batchSeq).settlementBatchSeq.isSome
      ↔ p.settlementBatchSeq.isSome
        ∨ p.isUnsettled ∧ ∃ id ∈ settledIds, p.postedTransferId = some id := by
  unfold Payment.markSettled
  cases posted : p.postedTransferId with
  | none => simp
  | some id =>
      by_cases listed : id ∈ settledIds <;> by_cases unsettled : p.isUnsettled <;>
        simp [listed, unsettled]

/-- Marking changes nothing but the marks. -/
theorem CapturedAs.of_mark {settledIds : List U128} {batchSeq : U64}
    (owned : CapturedAs (payments.map fun _ p => p.markSettled settledIds batchSeq) key q id)
    : ∃ p, q = p.markSettled settledIds batchSeq ∧ CapturedAs payments key p id := by
  obtain ⟨stored, captured, posted⟩ := owned
  rw [Std.ExtTreeMap.getElem?_map, Option.map_eq_some_iff] at stored
  obtain ⟨p, there, rfl⟩ := stored
  refine ⟨p, rfl, there, ?_, ?_⟩
  · unfold Payment.markSettled at captured
    split at captured <;> exact captured
  · unfold Payment.markSettled at posted
    split at posted <;> exact posted

/-- The payments of an accepted batch are marked, and the request is done with it. -/
theorem Once.mark (once : Once core works) {transfers : List Transfer} (batchSeq : U64)
    (there : works[i]? = some (.submitted transfers))
    : Once
        {
          core with
          payments := core.payments.map fun _ p => p.markSettled (idsOf transfers) batchSeq
        }
        (works.set i .idle) := by
  have marked : Once
      {
        core with
        payments := core.payments.map fun _ p => p.markSettled (idsOf transfers) batchSeq
      }
      works := by
    refine
      {
        once with
        captured := fun {key q id} owned => ?_
        posted := fun {id} flying => ?_
        marked := fun {key q id} owned listed => ?_
      }
    · obtain ⟨p, -, before⟩ := owned.of_mark
      exact once.captured before
    · obtain ⟨awaits, unowned⟩ := once.posted flying
      refine ⟨awaits, fun key q owned => ?_⟩
      obtain ⟨p, -, before⟩ := owned.of_mark
      exact unowned key p before
    · obtain ⟨p, rfl, before⟩ := owned.of_mark
      rw [Payment.markSettled_settlementBatchSeq]
      exact (once.marked before listed).imp_left .inl
  refine marked.drop there fun transfers' same key q id owned named => ?_
  cases same
  obtain ⟨p, rfl, before⟩ := owned.of_mark
  rw [Payment.markSettled_settlementBatchSeq]
  cases seq : p.settlementBatchSeq with
  | some number => exact .inl rfl
  | none =>
      exact .inr ⟨Payment.isUnsettled_iff.mpr ⟨before.captured, seq⟩, id, named, before.posted⟩

/-- Transfers are stored under their own ids, so a selection names each once. -/
theorem nodup_idsOf_unsettled (backed : s.ledger.Backed) : (idsOf s.unsettledTransfers).Nodup := by
  have stored : ((values s.ledger.transfers).map fun t => t.id.raw).Nodup := by
    rw [values, List.map_map, List.Nodup, List.pairwise_map]
    refine List.Pairwise.imp_of_mem (fun {entry entry'} there there' distinct same => ?_)
      s.ledger.transfers.distinct_keys_toList
    rw [Std.ExtTreeMap.mem_toList_iff_getElem?_eq_some] at there there'
    have own := (backed.stored _ _ there).ownId
    have own' := (backed.stored _ _ there').ownId
    have keys : entry.1 = entry'.1 := by
      rw [← own, ← own']
      exact congrArg TransferId.mk same
    exact distinct (by rw [keys]; exact Std.ReflCmp.compare_self)
  exact stored.sublist (List.filter_sublist.map _)

theorem mem_unsettledIds_of_mem_idsOf (named : id ∈ idsOf s.unsettledTransfers)
    : id ∈ s.unsettledIds := by
  obtain ⟨t, listed, rfl⟩ := List.mem_map.mp named
  simpa [AppState.unsettledTransfers, AppState.unsettledIds] using (List.mem_filter.mp listed).2

/-- A batch is selected while no other request is at work on one. -/
theorem Once.select (once : Once s.core works) (backed : s.ledger.Backed)
    (there : works[i]? = some .idle)
    (alone : ∀ (j : Nat) (other : Work), j ≠ i → works[j]? = some other → ¬ other.needs .settlement)
    : Once s.core (works.set i (.selected s.unsettledTransfers)) := by
  refine once.set there (fun _ same => by cases same) (fun _ same => by cases same)
    fun transfers same => ?_
  cases same
  refine ⟨nodup_idsOf_unsettled backed, fun id named => ?_⟩
  obtain ⟨key, p, stored, unsettled, posted⟩ :=
    mem_unsettledIds.mp (mem_unsettledIds_of_mem_idsOf named)
  obtain ⟨captured, unmarked⟩ := Payment.isUnsettled_iff.mp unsettled
  have owned : CapturedAs s.core.payments key p id := ⟨stored, captured, posted⟩
  refine ⟨⟨once.captured owned, fun listed => ?_⟩, fun flying => (once.posted flying).2 key p owned⟩
  -- an accepted batch whose payments are unmarked is still held by its request
  rcases once.marked owned listed with done | ⟨transfers, sending, -⟩
  · simp [unmarked] at done
  · obtain ⟨j, found⟩ := List.mem_iff_getElem?.mp sending
    by_cases here : j = i
    · subst here
      cases found.symm.trans there
    · exact alone j _ here found rfl

end Moves

section Steps

variable {sv : Services} {s : AppState} {request : Request} {locks : List Lock}
  {update : AppState → AppState} {stage stage' : Stage} {works : List Work} {i : Nat}

theorem ServiceStep.recorded (step : ServiceStep sv request locks update s stage stage') {id : U128}
    (there : Recorded s.core.ledger id)
    : Recorded (update s).core.ledger id := by
  cases step.ledgerCall with
  | none ledger | refused _ _ _ _ ledger => exact (congrArg (Recorded · id) ledger).mpr there
  | applied op timed asks step => exact step.transfer_isSome there

/-- The settlement that a posted hold is recorded with is new. -/
theorem recorded_post {l l' : Ledger} {pendingId postId : TransferId} {amount : Amount}
    {timestamp : U64}
    (ran : Ledger.applyBatchOp (.postPending pendingId postId amount timestamp) l = .ok () l')
    : ¬ Recorded l postId.raw ∧ Recorded l' postId.raw := by
  have step := Ledger.applyBatchOp_ok_iff.mp ran
  obtain ⟨hold, stored, -, -⟩ := step.settles_pending rfl
  have records : l.recorded (.transferPendingPosted pendingId postId amount timestamp)
      = some (Ledger.settlementOf hold pendingId postId amount timestamp) := by
    rw [Ledger.recorded, stored, Option.map_some]
  have unused : l.transfers[postId]? = none := step.recorded_unused records
  have new : l'.transfers[postId]? = _ := step.recorded_stored records
  exact ⟨by simp [Recorded, unused], by simp [Recorded, new]⟩

theorem Once.step (once : Once s.core works) (backed : s.ledger.Backed)
    (step : ServiceStep sv request locks update s stage stage')
    (there : works[i]? = some stage.work)
    (alone : stage'.work.needs .settlement → ∀ (j : Nat) (other : Work), j ≠ i
      → works[j]? = some other → ¬ other.needs .settlement)
    : Once (update s).core (works.set i stage'.work) := by
  have grown {id : U128} (recorded : Recorded s.core.ledger id) := step.recorded recorded
  cases step with
  | quiet now =>
      rw [now, set_of_getElem? there]
      exact once
  | select _ now =>
      rw [now]
      exact once.select backed there (alone rfl)
  | draw now =>
      rw [now, set_of_getElem? there]
      exact { once with }
  | call op _ _ now =>
      rw [now] at grown ⊢
      rw [set_of_getElem? there]
      exact { once.grow grown with }
  | post pendingId postId amount timed ran now =>
      obtain ⟨unused, stored⟩ := recorded_post ran
      rw [now] at grown ⊢
      refine (once.grow grown).set there (fun _ same => by cases same) (fun id' same => ?_)
        fun _ same => by cases same
      cases same
      exact ⟨⟨stored, fun listed => unused (once.settled listed)⟩,
        fun key p owned => unused (once.captured owned),
        fun flying => unused (once.posted flying).1.1,
        fun transfers selected named => unused ((once.selected selected).2 _ named).1.1⟩
  | store key p uncaptured now =>
      rw [now, set_of_getElem? there]
      exact once.insert key p fun _ settled => absurd settled.1 uncaptured
  | @capture stamp id key p posted now =>
      rw [now]
      obtain ⟨awaits, -⟩ := once.posted (List.mem_of_getElem? there)
      refine (once.drop there fun _ same => by cases same).insert key p fun id' settled => ?_
      obtain rfl : id = id' := Option.some.inj (posted.symm.trans settled.2)
      refine ⟨awaits, fun flying => ?_⟩
      obtain ⟨j, found⟩ := List.mem_iff_getElem?.mp flying
      rcases getElem?_set_cases found with ⟨-, new⟩ | ⟨differs, old⟩
      · cases new
      · exact differs (once.postedOnce old there)
  | ach now =>
      rw [now]
      exact once.accept _ there (alone rfl)
  | solana _ _ _ _ now =>
      rw [now]
      exact { once.accept _ there (alone rfl) with }
  | mark batchSeq now =>
      rw [now]
      exact once.mark batchSeq there

end Steps

/-- The batch was selected by a settlement request, from the payments as they were then. -/
def SelectedBy (log : List (Access Lock AppState Request)) (transfers : List Transfer) : Prop :=
  ∃ access ∈ log, (∃ rail, access.request = .settlementBatch rail)
    ∧ access.before.ledger.Backed ∧ transfers = access.before.unsettledTransfers

/-- What the batches accepted on chain add up to. -/
def chainSum (accepted : List AcceptedBatch) : Nat :=
  ((accepted.filter fun batch => batch.rail = SolanaUsdcRail.name).map fun batch =>
    amountSum batch.transfers).sum

/-- The registry has added up the batches accepted on chain. -/
def Registered (rail : SolanaUsdcRail) (accepted : List AcceptedBatch) : Prop :=
  ∃ root, rail.Holds root ∧ (root.batchSeq = 0 → root.totalSettledAmount = 0)
    ∧ root.totalSettledAmount.val = chainSum accepted

/-- What holds of the batches at every moment. -/
structure Batched (p : ServicePool) (rows : List (Request × Stage)) : Prop where
  backed : p.state.ledger.Backed
  once : Once p.state.core (rows.map fun row => row.2.work)
  working
    : ∀ row ∈ rows, ∀ transfers, row.2.work = .selected transfers → SelectedBy p.log transfers
  accepted : ∀ batch ∈ p.state.accepted, SelectedBy p.log batch.transfers
  registered : Registered p.state.solanaRail p.state.accepted

section Pools

variable {sv : Services} {s : AppState} {request : Request} {locks : List Lock}
  {update : AppState → AppState} {stage stage' : Stage} {log : List (Access Lock AppState Request)}
  {transfers : List Transfer}

theorem SelectedBy.mono (selected : SelectedBy log transfers)
    (access : Access Lock AppState Request)
    : SelectedBy (log ++ [access]) transfers := by
  obtain ⟨a, listed, facts⟩ := selected
  exact ⟨a, List.mem_append_left _ listed, facts⟩

theorem Registered.step (registered : Registered s.solanaRail s.accepted)
    (step : ServiceStep sv request locks update s stage stage')
    : Registered (update s).solanaRail (update s).accepted := by
  have unchanged {core : Core} (now : (update s).core = core)
      (rail : core.solanaRail = s.solanaRail)
      (sum : chainSum core.accepted = chainSum s.accepted)
      : Registered (update s).solanaRail (update s).accepted := by
    have same : (update s).solanaRail = s.solanaRail := (congrArg Core.solanaRail now).trans rail
    have accepted : (update s).accepted = core.accepted := congrArg Core.accepted now
    obtain ⟨root, holds, empty, total⟩ := registered
    exact ⟨root, same ▸ holds, empty, by rw [accepted, sum, total]⟩
  cases step with
  | quiet now | draw now | call _ _ _ now | post _ _ _ _ _ now | store _ _ _ now
    | capture _ _ _ now | select _ now | mark _ now => exact unchanged now rfl rfl
  | ach now =>
      refine unchanged now rfl ?_
      have other : MockAchRail.name ≠ SolanaUsdcRail.name := by decide
      simp [chainSum, other]
  | solana railBatchSeq submission rail' ran now =>
      rename_i stamp transfers
      have rail : (update s).solanaRail = rail' := congrArg Core.solanaRail now
      have accepted : (update s).accepted = s.accepted ++ [⟨SolanaUsdcRail.name, transfers⟩] :=
        congrArg Core.accepted now
      obtain ⟨root, holds, -, total⟩ := registered
      obtain ⟨next, commits, -, -⟩ := SolanaUsdcRail.submitBatch_ok holds ran
      rw [rail, accepted]
      refine ⟨next, commits.holds, fun zero => ?_, ?_⟩
      · have numbered := commits.sequence
        rw [← commits.numbered, zero] at numbered
        cases numbered
      · rw [commits.total, total]
        simp [chainSum]

/-- The selected batch of a request that moves on was selected before, or just now. -/
theorem ServiceStep.selectedBy {i : Nat} (step : ServiceStep sv request locks update s stage stage')
    (backed : s.ledger.Backed) (selected : stage'.work = .selected transfers)
    : stage.work = .selected transfers
      ∨ SelectedBy (log ++ [⟨i, request, locks, update, s⟩]) transfers := by
  cases step with
  | quiet _ | draw _ | call _ _ _ _ => exact .inl selected
  | select batch now =>
      cases selected
      exact .inr ⟨_, List.mem_append_right _ (List.mem_singleton_self _), batch, backed, rfl⟩
  | post | store | capture | ach | solana | mark => cases selected

/-- An accepted batch was accepted before, or is the one its request had selected. -/
theorem ServiceStep.accepted_origin (step : ServiceStep sv request locks update s stage stage')
    {batch : AcceptedBatch} (listed : batch ∈ (update s).core.accepted)
    : batch ∈ s.accepted ∨ stage.work = .selected batch.transfers := by
  cases step with
  | quiet now | draw now | call _ _ _ now | post _ _ _ _ _ now | store _ _ _ now
    | capture _ _ _ now | select _ now | mark _ now =>
      rw [now] at listed
      exact .inl listed
  | ach now | solana _ _ _ _ now =>
      rw [now, List.mem_append] at listed
      rcases listed with old | new
      · exact .inl old
      · rw [List.mem_singleton.mp new]
        exact .inr rfl

theorem Once.arrive {core : Core} {works : List Work} (once : Once core works)
    : Once core (works ++ [.idle]) := by
  have old {work : Work} (listed : work ∈ works ++ [.idle]) (busy : work ≠ .idle) : work ∈ works :=
    (List.mem_append.mp listed).resolve_right fun new => busy (List.mem_singleton.mp new)
  refine
    {
      once with
      posted := fun listed => once.posted (old listed (by simp))
      postedOnce := fun {i j id} found found' => ?_
      selected := fun {transfers} listed => ?_
      marked := fun owned listed => ?_
    }
  · rcases getElem?_snoc_cases found with ⟨-, before⟩ | ⟨-, new⟩
    · rcases getElem?_snoc_cases found' with ⟨-, before'⟩ | ⟨-, new'⟩
      · exact once.postedOnce before before'
      · cases new'
    · cases new
  · obtain ⟨distinct, each⟩ := once.selected (old listed (by simp))
    exact ⟨distinct, fun id named =>
      ⟨(each id named).1, fun flying => (each id named).2 (old flying (by simp))⟩⟩
  · rcases once.marked owned listed with done | ⟨transfers, sending, named⟩
    · exact .inl done
    · exact .inr ⟨transfers, List.mem_append_left _ sending, named⟩

theorem batched_preserved (sv : Services)
    : Pool.Preserved (Locking.exclusive Lock) (serviceProtocol sv) (Request.handle sv)
        (fun _ => ⟨none, .idle⟩) (fun _ _ => True) Batched where
  arrive request length batched _ := by
    refine { batched with once := ?_, working := fun row listed transfers selected => ?_ }
    · rw [List.map_append]
      exact batched.once.arrive
    · rcases List.mem_append.mp listed with before | new
      · exact batched.working row before transfers selected
      · rw [List.mem_singleton.mp new] at selected
        cases selected
  access {p rows i t locks update next stage stage'} batched _ _ _ there step apart _ := by
    have step : ServiceStep sv t.request locks update p.state stage stage' := step
    have backed : (update p.state).ledger.Backed := by
      cases step.ledgerCall with
      | none ledger | refused _ _ _ _ ledger => exact ledger ▸ batched.backed
      | applied op timed asks step => exact batched.backed.step step
    have here : (rows.map fun row => row.2.work)[i]? = some stage.work := by
      rw [List.getElem?_map, there, Option.map_some]
    have alone (needs : stage'.work.needs .settlement) (j : Nat) (other : Work) (differs : j ≠ i)
        (found : (rows.map fun row => row.2.work)[j]? = some other)
        : ¬ other.needs .settlement := by
      intro needs'
      rw [List.getElem?_map, Option.map_eq_some_iff] at found
      obtain ⟨row, at_row, rfl⟩ := found
      have free := (apart j row differs at_row .settlement needs').2 .settlement needs
      simp [Locking.exclusive] at free
    have selecting := batched.working _ (List.mem_of_getElem? there)
    refine ⟨backed, ?_, fun row listed transfers selected => ?_, fun batch listed => ?_,
      batched.registered.step step⟩
    · rw [List.map_set]
      exact batched.once.step batched.backed step here alone
    · rcases List.mem_or_eq_of_mem_set listed with old | rfl
      · exact (batched.working row old transfers selected).mono _
      · rcases step.selectedBy batched.backed selected with before | now
        · exact (selecting transfers before).mono _
        · exact now
    · rcases step.accepted_origin listed with old | selected
      · exact (batched.accepted batch old).mono _
      · exact (selecting batch.transfers selected).mono _
  lock {p rows i t rest held stage stage'} batched _ _ there abandons := by
    have here : (rows.map fun row => row.2.work)[i]? = some stage.work := by
      rw [List.getElem?_map, there, Option.map_some]
    have moved : stage'.work = stage.work ∨ stage.work.Abandoned ∧ stage'.work = .idle := by
      rcases abandons with rfl | rfl | ⟨abandoned, rfl⟩
      · exact .inl rfl
      · exact .inl rfl
      · exact .inr ⟨abandoned, rfl⟩
    refine { batched with once := ?_, working := fun row listed transfers selected => ?_ }
    · rw [List.map_set]
      rcases moved with same | ⟨abandoned, idle⟩
      · rw [show (t.request, stage').2.work = stage.work from same, set_of_getElem? here]
        exact batched.once
      · rw [show (t.request, stage').2.work = .idle from idle]
        refine batched.once.drop here fun transfers sent => ?_
        rw [sent] at abandoned
        exact abandoned.elim
    · rcases List.mem_or_eq_of_mem_set listed with old | rfl
      · exact batched.working row old transfers selected
      · rcases moved with same | ⟨-, idle⟩
        · exact batched.working _ (List.mem_of_getElem? there) transfers (same.symm.trans selected)
        · cases idle.symm.trans selected

end Pools

/-- What settlement batches come to. -/
structure SettledOnce (p : ServicePool) : Prop where
  /-- No transfer is accepted twice, by whichever rail. -/
  once : (acceptedIds p.state.accepted).Nodup
  /-- Every transfer of a batch had captured a payment when the batch was selected. -/
  captured
    : ∀ batch ∈ p.state.accepted, ∃ access ∈ p.log, (∃ rail, access.request = .settlementBatch rail)
      ∧ batch.transfers = access.before.unsettledTransfers
      ∧ ∀ t ∈ batch.transfers,
          access.before.ledger.transfers[t.id]? = some t
          ∧ ∃ key payment, CapturedAs access.before.payments key payment t.id.raw
            ∧ payment.settlementBatchSeq = none
  /-- The registry shows the sum of the batches accepted on chain. -/
  total : p.state.chainTotal.val = chainSum p.state.accepted

/-- However requests arrive and interleave, every captured transfer is settled at most once, and the
registry's total is exactly what the chain has accepted.
-/
theorem captures_settled_once {sv : Services} {webhookSecret : Bytes} {programId authority : Pubkey}
    {s : AppState} (started : AppState.new sv.chain webhookSecret programId authority = .ok s)
    (events : List (Event Request))
    : SettledOnce (s.serve sv events) := by
  have fresh := fresh_of_new started
  have ledger : s.ledger = stateAfter setupLedger := congrArg Books.ledger fresh.books
  have payments : s.payments = ∅ := congrArg Books.payments fresh.books
  have initial : Batched (Pool.start s) [] := by
    obtain ⟨bump, holds⟩ := SolanaUsdcRail.new_holds fresh.rail
    refine ⟨?_, ?_, fun row listed => (by cases listed), ?_, ?_⟩
    · exact (ledger ▸ charted_setup.backed : s.ledger.Backed)
    · have unowned {key id : U128} {p : Payment} : ¬ CapturedAs s.payments key p id := by
        intro owned
        have stored := owned.stored
        simp [payments] at stored
      have none : acceptedIds (Pool.start s : ServicePool).state.core.accepted = [] :=
        congrArg acceptedIds fresh.accepted
      refine ⟨fun owned => absurd owned unowned, fun listed => ?_, fun listed => ?_,
        fun found => (by cases found), fun listed => ?_, fun owned => absurd owned unowned, ?_⟩
      · rw [none] at listed
        cases listed
      · cases listed
      · cases listed
      · rw [none]
        exact List.nodup_nil
    · intro batch listed
      rw [Pool.start, fresh.accepted] at listed
      cases listed
    · refine ⟨_, holds, fun _ => rfl, ?_⟩
      rw [Pool.start, fresh.accepted]
      rfl
  have unguarded : Guarded (Pool.step (Locking.exclusive Lock) (Request.handle sv))
      (fun _ _ => True) (Pool.start s) events :=
    fun _ _ _ _ => trivial
  obtain ⟨rows, -, batched⟩ := (batched_preserved sv).throughout (Request.enters sv)
    (tracked_start s) initial unguarded events (List.prefix_refl events)
  refine ⟨batched.once.apart, fun batch listed => ?_, ?_⟩
  · obtain ⟨access, logged, batchRequest, backed, same⟩ := batched.accepted batch listed
    refine ⟨access, logged, batchRequest, same, fun t there => ?_⟩
    rw [same] at there
    obtain ⟨stored, named⟩ := (mem_unsettledTransfers backed).mp there
    obtain ⟨key, p, found, unsettled, posted⟩ := mem_unsettledIds.mp named
    obtain ⟨captured, unmarked⟩ := Payment.isUnsettled_iff.mp unsettled
    exact ⟨stored, key, p, ⟨found, captured, posted⟩, unmarked⟩
  · obtain ⟨root, holds, empty, total⟩ := batched.registered
    exact (congrArg Fin.val (chainTotal_of_holds holds empty)).trans total

/-- Two payments are authorized. The first is captured, and a batch for the chain selects it; before
that goes on, the second is captured and a batch for the clearing house arrives.
-/
def exampleBatches : List (Event Request) :=
  List.flatten [
    oneByOne
      [exampleAuthorization 101 "order-1", exampleAuthorization 101 "order-2", .capture 5000],
    [.arrive (.settlementBatch none)], List.replicate 2 (.advance 3),
    [.arrive (.capture 5001), .arrive (.settlementBatch (some MockAchRail.name))],
    List.replicate 3 (.advance 5), List.replicate 8 (.advance 4), List.replicate 8 (.advance 3),
    List.replicate 8 (.advance 5)]

/-- Witness: both payments are settled, one on each rail. -/
theorem captures_settled_once_twoRails
    : ∃ s, exampleStart = .ok s
        ∧ (s.serve exampleServices exampleBatches).state.accepted.map
            (fun batch => (batch.rail, (idsOf batch.transfers).length))
          = [(SolanaUsdcRail.name, 1), (MockAchRail.name, 1)]
        ∧ SettledOnce (s.serve exampleServices exampleBatches) := by
  have facts : okAnd exampleStart fun s =>
      decide ((s.serve exampleServices exampleBatches).state.accepted.map
          (fun batch => (batch.rail, (idsOf batch.transfers).length))
        = [(SolanaUsdcRail.name, 1), (MockAchRail.name, 1)]) := by
    decide +kernel
  obtain ⟨s, started, holds⟩ := exists_ok_of_okAnd facts
  exact ⟨s, started, of_decide_eq_true holds, captures_settled_once started exampleBatches⟩

end TrustLedger.Demo
