import TrustLedger.LedgerCore.Holds

/-! Settlement links. A capture stores a settlement that names its hold, on the hold's accounts
and within its amount. A posted transfer may also arrive with a link of its own, and then only
the state of the transfer it names is checked. The links are as reserved exactly as long as no
such transfer is accepted.
-/

namespace TrustLedger.LedgerCore

open Foundation

namespace Ledger

/-- `t` is stored under `id` and names `pendingId` as the hold it settles. -/
def LinkedTo (l : Ledger) (pendingId id : TransferId) (t : Transfer) : Prop :=
  l.transfers[id]? = some t ∧ t.pendingId = some pendingId

/-- No transfer is named by two others, and whatever names a transfer settles a hold as it was
reserved.
-/
structure LinksReserved (l : Ledger) : Prop where
  once
    : ∀ pendingId id id' t t', l.LinkedTo pendingId id t → l.LinkedTo pendingId id' t'
      → id = id'
  reserved
    : ∀ (pendingId id : TransferId) (hold t : Transfer), l.transfers[pendingId]? = some hold
      → l.LinkedTo pendingId id t
      → (holdNamed l.journal pendingId).isSome
        ∧ t.debitAccountId = hold.debitAccountId
        ∧ t.creditAccountId = hold.creditAccountId
        ∧ t.amount.toNat ≤ hold.amount.toNat

/-- Every hold is settled at most once and as reserved, and a hold is posted exactly when a
settlement names it.
-/
structure SettledAsReserved (l : Ledger) : Prop extends LinksReserved l where
  posted
    : ∀ (pendingId : TransferId) (hold : Transfer), l.transfers[pendingId]? = some hold
      → (holdNamed l.journal pendingId).isSome
      → (hold.state = .posted ↔ ∃ id t, l.LinkedTo pendingId id t)

/-- No accepted posted transfer came with a link of its own. -/
def Unforged (l : Ledger) : Prop :=
  ∀ t, .transferPosted t ∈ l.journal → t.pendingId = none

section Links

variable {l l' : Ledger} {event : LedgerEvent} {pendingId id : TransferId} {t : Transfer}

/-- Only posted transfers name another, and what they name is posted. -/
theorem LinkedTo.posted (linked : l.LinkedTo pendingId id t) (backed : l.Backed)
    : t.state = .posted ∧ ∃ hold, l.transfers[pendingId]? = some hold ∧ hold.state = .posted := by
  obtain ⟨found, link⟩ := linked
  have stored := backed.stored id t found
  have state : t.state = .posted := by
    cases state : t.state with
    | posted => rfl
    | pending =>
        rw [stored.unlinked (.inl state)] at link
        cases link
    | voided =>
        rw [stored.unlinked (.inr state)] at link
        cases link
  exact ⟨state, stored.linked state pendingId link⟩

theorem LinkedTo.step (linked : l.LinkedTo pendingId id t) (backed : l.Backed)
    (step : l.Step event l')
    : l'.LinkedTo pendingId id t := by
  have state := (linked.posted backed).1
  exact ⟨step.settled_kept linked.1 (by simp [state]), linked.2⟩

/-- A link was there before, arrives with a posted transfer, or is made by a capture. -/
theorem Step.link_origin (backed : l.Backed) (step : l.Step event l')
    (linked : l'.LinkedTo pendingId id t)
    : l.LinkedTo pendingId id t
      ∨ event = .transferPosted t
      ∨ ∃ hold amount timestamp,
          event = .transferPendingPosted pendingId id amount timestamp
          ∧ l.transfers[pendingId]? = some hold
          ∧ hold.state = .pending
          ∧ amount.toNat ≤ hold.amount.toNat
          ∧ t = settlementOf hold pendingId id amount timestamp := by
  obtain ⟨found, link⟩ := linked
  rcases step.transfer_origin found with ⟨records, rfl⟩ | ⟨before, there, now⟩
  · cases step with
    | transferPosted inOrder posted fresh linked legs =>
        cases records
        exact .inr (.inl rfl)
    | transferPendingCreated inOrder pending fresh legs =>
        cases records
        rw [fresh.unlinked pending] at link
        cases link
    | @transferPendingPosted captured postTransferId amount timestamp plan post =>
        rw [recorded, post.found] at records
        cases records
        cases link
        exact .inr (.inr ⟨plan.hold, amount, timestamp, rfl, post.found, post.pending,
          post.within, rfl⟩)
    | _ => cases records
  · left
    have linkBefore : before.pendingId = some pendingId := by
      rw [now, event.restate_eq] at link
      exact link
    have earlier : l.LinkedTo pendingId id before := ⟨there, linkBefore⟩
    have same : t = before := Option.some.inj (found.symm.trans (earlier.step backed step).1)
    rw [same]
    exact earlier

/-- Every hold that is posted has a settlement. -/
def AllSettled (l : Ledger) : Prop :=
  ∀ (pendingId : TransferId) (hold : Transfer), l.transfers[pendingId]? = some hold
    → hold.state = .posted → (holdNamed l.journal pendingId).isSome
    → ∃ id t, l.LinkedTo pendingId id t

/-- A posted transfer with a link of its own shares it with a settlement, or names what was
never a hold.
-/
def Contested (l : Ledger) : Prop :=
  ∀ t pendingId, .transferPosted t ∈ l.journal → t.pendingId = some pendingId
    → l.LinkedTo pendingId t.id t
      ∧ (holdNamed l.journal pendingId = none
        ∨ ∃ id s, id ≠ t.id ∧ l.LinkedTo pendingId id s)

/-- A stored transfer that is posted after a capture of it is named by the settlement. -/
theorem Step.captured_linked {hold : Transfer} (step : l.Step event l')
    (found : l.transfers[pendingId]? = some hold)
    (settles : event.settles = some (pendingId, .posted))
    : ∃ id t, l'.LinkedTo pendingId id t := by
  cases event with
  | transferPendingPosted captured postTransferId amount timestamp =>
      cases settles
      have records : l.recorded (.transferPendingPosted pendingId postTransferId amount timestamp)
          = some (settlementOf hold pendingId postTransferId amount timestamp) := by
        simp [recorded, found]
      exact ⟨postTransferId, _, step.recorded_stored records, rfl⟩
  | _ => cases settles

theorem AllSettled.step (settled : l.AllSettled) (backed : l.Backed) (holds : l.HoldsJournalled)
    (step : l.Step event l')
    : l'.AllSettled := by
  intro pendingId hold found posted named
  obtain ⟨created, named⟩ := Option.isSome_iff_exists.mp named
  rw [step.journal] at named
  rcases holdNamed_append named with before | ⟨creates, rfl⟩
  · obtain ⟨t, there, -⟩ := holds.created pendingId created before
    obtain rfl : event.restate pendingId t = hold :=
      Option.some.inj ((step.transfer_kept there).symm.trans found)
    by_cases pending : t.state = .pending
    · cases settles : event.settles with
      | none =>
          rw [event.restate_unsettled settles, pending] at posted
          cases posted
      | some target =>
          obtain ⟨captured, state⟩ := target
          simp only [event.restate_settled settles] at posted
          split at posted
          · rename_i same
            subst same
            subst posted
            exact step.captured_linked there settles
          · rw [pending] at posted
            cases posted
    · -- settled before: nothing changes, and its settlement is already stored
      have same : event.restate pendingId t = t :=
        Option.some.inj ((step.transfer_kept there).symm.trans (step.settled_kept there pending))
      rw [same] at posted
      obtain ⟨id, s, linked⟩ := settled pendingId t there posted (by simp [before])
      exact ⟨id, s, linked.step backed step⟩
  · have stored := step.recorded_stored (holds.unused step creates).1
    cases stored.symm.trans found
    rw [step.hold?_pending creates] at posted
    cases posted

theorem Contested.step (contested : l.Contested) (settled : l.AllSettled) (backed : l.Backed)
    (holds : l.HoldsJournalled) (step : l.Step event l')
    : l'.Contested := by
  intro t pendingId mem link
  -- a name stays free of holds once something is stored under it
  have unnamed {hold : Transfer} (found : l.transfers[pendingId]? = some hold)
      (free : holdNamed l.journal pendingId = none)
      : holdNamed l'.journal pendingId = none := by
    cases named : holdNamed l'.journal pendingId with
    | none => rfl
    | some created =>
        rw [step.journal] at named
        rcases holdNamed_append named with before | ⟨creates, rfl⟩
        · rw [free] at before
          cases before
        · rw [step.recorded_unused (holds.unused step creates).1] at found
          cases found
  rw [step.journal, List.mem_append, List.mem_singleton] at mem
  rcases mem with earlier | now
  · obtain ⟨linked, rival⟩ := contested t pendingId earlier link
    obtain ⟨-, hold, found, -⟩ := linked.posted backed
    refine ⟨linked.step backed step, ?_⟩
    rcases rival with free | ⟨id, s, other, shares⟩
    · exact .inl (unnamed found free)
    · exact .inr ⟨id, s, other, shares.step backed step⟩
  · subst now
    have unused := step.recorded_unused rfl
    refine ⟨⟨step.recorded_stored rfl, link⟩, ?_⟩
    obtain ⟨hold, found, posted⟩ : ∃ hold, l.transfers[pendingId]? = some hold
        ∧ hold.state = .posted := by
      cases step with
      | transferPosted inOrder posted fresh linked legs => exact linked pendingId link
    cases named : holdNamed l.journal pendingId with
    | none => exact .inl (unnamed found named)
    | some created =>
        obtain ⟨id, s, linked⟩ := settled pendingId hold found posted (by simp [named])
        refine .inr ⟨id, s, ?_, linked.step backed step⟩
        intro same
        rw [← same, linked.1] at unused
        cases unused

theorem LinksReserved.step (reserved : l.LinksReserved) (backed : l.Backed)
    (holds : l.HoldsJournalled) (unforged : ∀ t, event = .transferPosted t → t.pendingId = none)
    (step : l.Step event l')
    : l'.LinksReserved := by
  -- without forged links, a new link is a capture of a hold that was pending until now
  have origin {pendingId id : TransferId} {t : Transfer} (linked : l'.LinkedTo pendingId id t) :
      l.LinkedTo pendingId id t
      ∨ ∃ hold amount timestamp,
          event = .transferPendingPosted pendingId id amount timestamp
          ∧ l.transfers[pendingId]? = some hold
          ∧ hold.state = .pending
          ∧ amount.toNat ≤ hold.amount.toNat
          ∧ t = settlementOf hold pendingId id amount timestamp := by
    rcases step.link_origin backed linked with before | forged | captured
    · exact .inl before
    · have link := linked.2
      rw [unforged t forged] at link
      cases link
    · exact .inr captured
  have exclusive {pendingId id : TransferId} {t hold : Transfer}
      (linked : l.LinkedTo pendingId id t) (found : l.transfers[pendingId]? = some hold)
      : hold.state ≠ .pending := by
    obtain ⟨-, named, there, posted⟩ := linked.posted backed
    cases there.symm.trans found
    simp [posted]
  refine { once := ?_, reserved := ?_ }
  · intro pendingId id id' t t' linked linked'
    rcases origin linked with before | ⟨hold, amount, timestamp, event, found, pending, -⟩
    · rcases origin linked' with before' | ⟨hold, amount, timestamp, event, found, pending, -⟩
      · exact reserved.once pendingId id id' t t' before before'
      · exact absurd pending (exclusive before found)
    · rcases origin linked' with before' | ⟨hold', amount', timestamp', event', -⟩
      · exact absurd pending (exclusive before' found)
      · rw [event] at event'
        cases event'
        rfl
  · intro pendingId id hold t found linked
    rcases origin linked with
      before | ⟨captured, amount, timestamp, event, there, pending, within, rfl⟩
    · obtain ⟨-, named, there, posted⟩ := before.posted backed
      obtain rfl : named = hold :=
        Option.some.inj ((step.settled_kept there (by simp [posted])).symm.trans found)
      obtain ⟨created, accounts⟩ := reserved.reserved pendingId id named t there before
      obtain ⟨hold, created⟩ := Option.isSome_iff_exists.mp created
      refine ⟨?_, accounts⟩
      rw [step.journal, holdNamed_append_of_some _ created, Option.isSome_some]
    · obtain ⟨created, -⟩ := holds.pending pendingId captured there pending
      cases (step.transfer_kept there).symm.trans found
      rw [LedgerEvent.restate_eq]
      refine ⟨?_, rfl, rfl, within⟩
      rw [step.journal, holdNamed_append_of_some _ created, Option.isSome_some]

end Links

section Runs

variable {scale : Scale} {l : Ledger}

/-- Links and their contests, for every reachable ledger. -/
theorem Reachable.links (reached : Reachable scale l) : l.AllSettled ∧ l.Contested := by
  refine reached.invariant_journalled (P := fun l => l.AllSettled ∧ l.Contested) ?_ ⟨?_, ?_⟩
  · intro l event l' backed holds links step
    exact ⟨links.1.step backed holds step, links.2.step links.1 backed holds step⟩
  · intro pendingId hold found
    simp [Ledger.new] at found
  · intro t pendingId mem
    cases mem

/-- As long as no link is forged, links are as reserved. -/
theorem Reachable.linksReserved (reached : Reachable scale l) (unforged : l.Unforged)
    : l.LinksReserved := by
  refine reached.invariant_journalled (P := fun l => l.Unforged → l.LinksReserved) ?_ ?_ unforged
  · intro l event l' backed holds reserved step unforged
    have journal := step.journal
    refine (reserved ?_).step backed holds ?_ step
    · intro t mem
      exact unforged t (by rw [journal]; exact List.mem_append_left _ mem)
    · intro t now
      exact unforged t (by rw [journal, now]; simp)
  · intro _
    refine ⟨?_, ?_⟩
    · intro pendingId id id' t t' linked
      simp [LinkedTo, Ledger.new] at linked
    · intro pendingId id hold t found
      simp [Ledger.new] at found

/-- A hold is posted exactly when a settlement names it. -/
theorem Reachable.posted_iff_linked (reached : Reachable scale l) {pendingId : TransferId}
    {hold : Transfer} (found : l.transfers[pendingId]? = some hold)
    (named : (holdNamed l.journal pendingId).isSome)
    : hold.state = .posted ↔ ∃ id t, l.LinkedTo pendingId id t := by
  constructor
  · intro posted
    exact reached.links.1 pendingId hold found posted named
  · rintro ⟨id, t, linked⟩
    obtain ⟨-, other, there, posted⟩ := linked.posted reached.backed
    cases there.symm.trans found
    exact posted

/-- A forged link breaks the settlement of what it names. -/
theorem Reachable.unforged (reached : Reachable scale l) (reserved : l.LinksReserved)
    : l.Unforged := by
  intro t mem
  cases link : t.pendingId with
  | none => rfl
  | some pendingId =>
      obtain ⟨linked, rival⟩ := reached.links.2 t pendingId mem link
      obtain ⟨-, hold, found, -⟩ := linked.posted reached.backed
      rcases rival with free | ⟨id, s, other, shares⟩
      · have named := (reserved.reserved pendingId t.id hold t found linked).1
        rw [free] at named
        cases named
      · exact absurd (reserved.once pendingId id t.id s t shares linked) other

end Runs

/-- The posted transfers a call brings along. -/
def Mutation.posted : Mutation → List Transfer
  | .createTransfer t => [t]
  | .applyBatch transfers => transfers
  | .commitEvents events =>
      events.filterMap fun
        | .transferPosted t => some t
        | _ => none
  | _ => []

theorem Mutation.mem_posted {mutation : Mutation} {l : Ledger} {t : Transfer}
    (mem : .transferPosted t ∈ mutation.submits l)
    : t ∈ mutation.posted := by
  cases mutation with
  | createTransfer other => simpa [Mutation.submits, Mutation.posted] using mem
  | applyBatch transfers => simpa [Mutation.submits, Mutation.posted] using mem
  | commitEvents events => exact List.mem_filterMap.mpr ⟨_, mem, rfl⟩
  | _ => simp [Mutation.submits, BatchOp.event] at mem

/-- Calls that bring no link of their own leave none in the journal. -/
theorem unforged_runFrom {mutations : List Mutation} {l : Ledger} (unforged : l.Unforged)
    (unlinked : ∀ mutation ∈ mutations, ∀ t ∈ mutation.posted, t.pendingId = none)
    : (Mutation.runFrom mutations l).Unforged := by
  induction mutations generalizing l with
  | nil => exact unforged
  | cons mutation rest ih =>
      refine ih (l := mutation.run l) ?_ fun other mem => unlinked other (.tail _ mem)
      rcases mutation.run_submits l with unchanged | applied
      · rw [unchanged]
        exact unforged
      · intro t mem
        rw [applyEvents_journal applied, List.mem_append] at mem
        rcases mem with earlier | submitted
        · exact unforged t earlier
        · exact unlinked mutation (.head _) t (Mutation.mem_posted submitted)

/-- Holds are settled at most once and as reserved exactly in the ledgers that accepted no
posted transfer with a link of its own; so in every run whose calls bring none.
-/
theorem settled_as_reserved_iff (scale : Scale)
    : (∀ l, Reachable scale l
        → (l.SettledAsReserved ↔ ∀ t, .transferPosted t ∈ l.journal → t.pendingId = none))
      ∧ ∀ mutations : List Mutation,
          (∀ mutation ∈ mutations, ∀ t ∈ mutation.posted, t.pendingId = none)
          → (Mutation.runAll scale mutations).SettledAsReserved := by
  have settled_iff (l : Ledger) (reached : Reachable scale l)
      : l.SettledAsReserved ↔ l.Unforged := by
    constructor
    · intro settled
      exact reached.unforged settled.toLinksReserved
    · intro unforged
      exact ⟨reached.linksReserved unforged, fun _ _ found named =>
        reached.posted_iff_linked found named⟩
  refine ⟨settled_iff, ?_⟩
  intro mutations unlinked
  refine (settled_iff _ (reachable_runAll scale mutations)).mpr ?_
  refine unforged_runFrom (l := new scale) ?_ unlinked
  intro t mem
  cases mem

/-- After a partial capture of hold 11, a deserialized transfer of 1000 the other way claims to
settle it as well.
-/
def forgedSettlement : List Mutation :=
  partialCapture ++ [.createTransfer ⟨⟨14⟩, ⟨1⟩, ⟨2⟩, ⟨1000⟩, .posted, some ⟨11⟩, 15⟩]

/-- The forged transfer is stored beside the settlement, and both name the same hold. -/
theorem forged_settlement_accepted
    : (Mutation.runAll ⟨2⟩ forgedSettlement).LinkedTo ⟨11⟩ ⟨13⟩
        ⟨⟨13⟩, ⟨2⟩, ⟨1⟩, ⟨30⟩, .posted, some ⟨11⟩, 14⟩
      ∧ (Mutation.runAll ⟨2⟩ forgedSettlement).LinkedTo ⟨11⟩ ⟨14⟩
        ⟨⟨14⟩, ⟨1⟩, ⟨2⟩, ⟨1000⟩, .posted, some ⟨11⟩, 15⟩
      ∧ ¬ (Mutation.runAll ⟨2⟩ forgedSettlement).SettledAsReserved := by
  have settlement : (Mutation.runAll ⟨2⟩ forgedSettlement).LinkedTo ⟨11⟩ ⟨13⟩
      ⟨⟨13⟩, ⟨2⟩, ⟨1⟩, ⟨30⟩, .posted, some ⟨11⟩, 14⟩ := ⟨by decide, rfl⟩
  have forged : (Mutation.runAll ⟨2⟩ forgedSettlement).LinkedTo ⟨11⟩ ⟨14⟩
      ⟨⟨14⟩, ⟨1⟩, ⟨2⟩, ⟨1000⟩, .posted, some ⟨11⟩, 15⟩ := ⟨by decide, rfl⟩
  refine ⟨settlement, forged, ?_⟩
  intro settled
  have same := settled.once ⟨11⟩ ⟨13⟩ ⟨14⟩ _ _ settlement forged
  exact absurd same (by decide)

/-- Without the forged transfer the partial capture settles as reserved. -/
theorem settled_as_reserved_partialCapture
    : (Mutation.runAll ⟨2⟩ partialCapture).SettledAsReserved :=
  (settled_as_reserved_iff ⟨2⟩).2 partialCapture (by decide)

end Ledger

end TrustLedger.LedgerCore
