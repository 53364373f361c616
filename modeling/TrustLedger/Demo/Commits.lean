import TrustLedger.Demo.Rail
import TrustLedger.SolanaSettle.Registry

/-! What a batch does to the Solana rail. A rejected batch leaves it as it was; an accepted one is
committed to the registry in its account, and becomes the batch settled last.
-/

namespace TrustLedger.Demo

open Foundation LedgerCore Merkle SolanaSettle

/-- Sum of the amounts of transfers. -/
def amountSum (transfers : List Transfer) : Nat :=
  (transfers.map fun t => t.amount.toNat).sum

/-- The leaves of a batch. -/
def batchItems (transfers : List Transfer) : List Bytes :=
  transfers.map Transfer.codec.encode

theorem addSettled_eq_ok {total total' : U128} {t : Transfer}
    : addSettled total t = .ok total' ↔ total'.val = total.val + t.amount.toNat := by
  simp [addSettled, checkedAdd_eq_some, Amount.toNat]

namespace SolanaUsdcRail

variable {chain : Chain} {rail rail' : SolanaUsdcRail} {root : SettlementRoot} {batchSeq : U64}
  {transfers : List Transfer} {programId authority : Pubkey} {failed : String}
  {failure : RailFailure} {after : Bytes}

/-- The rail's account holds this registry and nothing else. -/
def Holds (rail : SolanaUsdcRail) (root : SettlementRoot) : Prop :=
  rail.pdaData = SettlementRoot.codec.encode root

theorem Holds.deserialize (holds : rail.Holds root)
    : SettlementRoot.deserializeFrom rail.pdaData = .ok root := by
  rw [holds, SettlementRoot.deserializeFrom_eq_ok, Codec.decode_encode_self]

theorem Holds.currentSettlementRoot (holds : rail.Holds root)
    : rail.currentSettlementRoot = if root.batchSeq = 0 then none else some root := by
  rw [SolanaUsdcRail.currentSettlementRoot, holds.deserialize]

theorem foldlM_addLeaf {batch batch' : MerkleMountainRange × U128}
    (added : transfers.foldlM (addLeaf chain) batch = .ok batch')
    : batch.1.appendLeaves chain.runtime.sha256 (batchItems transfers) = some batch'.1
      ∧ batch'.2.val = batch.2.val + amountSum transfers := by
  induction transfers generalizing batch with
  | nil =>
      cases added
      exact ⟨rfl, rfl⟩
  | cons t rest ih =>
      obtain ⟨mid, first, later⟩ := bind_eq_ok.mp added
      simp only [addLeaf, bind_eq_ok, okOr_eq_ok, addSettled_eq_ok, pure_eq_ok] at first
      obtain ⟨appended, leaf, total, sum, rfl⟩ := first
      obtain ⟨leaves, whole⟩ := ih later
      refine ⟨?_, ?_⟩
      · rw [MerkleMountainRange.appendLeaves, batchItems, List.map_cons, List.foldlM_cons, leaf]
        exact leaves
      · rw [whole, sum, amountSum, amountSum, List.map_cons, List.sum_cons, Nat.add_assoc]

/-- A batch accepted by the registry. -/
structure Commits (chain : Chain) (rail : SolanaUsdcRail) (root : SettlementRoot) (batchSeq : U64)
    (transfers : List Transfer) (rail' : SolanaUsdcRail) (next : SettlementRoot) : Prop where
  holds : rail'.Holds next
  total : next.totalSettledAmount.val = root.totalSettledAmount.val + amountSum transfers
  sequence : batchSeq.val = root.batchSeq.val + 1
  numbered : next.batchSeq = batchSeq
  leaves : MerkleMountainRange.new.appendLeaves chain.runtime.sha256 (batchItems transfers)
    = some rail'.latestMmr
  merkleRoot : next.merkleRoot = rail'.latestMmr.root chain.runtime.sha256
  latest : rail'.settledTransfers = transfers ∧ rail'.batchSeq = batchSeq
  nonempty : transfers ≠ []

theorem send_error {more : List AccountInfo}
    {instruction : Pubkey → Fin 256 → SettlementInstruction} {pdaData : Bytes}
    (ran : send chain programId authority more instruction failed pdaData = .error failure after)
    : after = pdaData := by
  unfold send at ran
  split at ran
  · cases ran
    rfl
  split at ran
  · cases ran
  · rename_i ended
    cases ran
    rw [process_atomic _ _ _ _ _ _ _ ended]
    rfl
  · rename_i ended
    cases ran
    rw [process_atomic _ _ _ _ _ _ _ ended]
    rfl

theorem submitBatch_error (ran : submitBatch chain batchSeq transfers rail = .error failure rail')
    : rail' = rail := by
  unfold submitBatch at ran
  rw [get_bind, check_bind] at ran
  cases prepared : prepareBatch chain rail batchSeq transfers with
  | error error =>
      rw [prepared] at ran
      cases ran
      rfl
  | ok batch =>
      simp only [prepared] at ran
      cases sent : send chain rail.programId rail.authority []
        (fun _ _ => .commitSettlement batch.2) "on-chain commit error: " rail.pdaData with
      | ok _ pdaData =>
          rw [sent] at ran
          cases ran
      | error error pdaData =>
          rw [sent] at ran
          cases ran
          rw [send_error sent]

theorem send_commit {params : CommitParams} (holds : rail.Holds root)
    (ran : send chain rail.programId rail.authority [] (fun _ _ => .commitSettlement params) failed
      rail.pdaData = .ok () after)
    : ∃ next, after = SettlementRoot.codec.encode next
        ∧ params.batchSeq.val = root.batchSeq.val + 1
        ∧ next.totalSettledAmount.val
          = root.totalSettledAmount.val + params.totalSettledAmount.val
        ∧ next.batchSeq = params.batchSeq
        ∧ next.merkleRoot = params.merkleRoot := by
  unfold send at ran
  split at ran
  · cases ran
  split at ran
  · rename_i pda bump located memory ended
    cases ran
    rw [process_pack] at ended
    obtain ⟨cell, next, admitted, -, rfl⟩ := store_eq_ok.mp ended
    obtain ⟨authorityInfo, pdaInfo, current, passed, rfl⟩ := admitCommit_ok admitted
    obtain ⟨others, accounts⟩ := passed.accounts_eq
    obtain ⟨-, rfl, -⟩ : _ ∧ _ ∧ _ := by simpa [accountInfos] using accounts
    obtain rfl : root = current := by
      have read := passed.read
      rw [show accountData rail.pdaData 1 = _ from holds, Codec.decode_encode_self] at read
      cases read
      rfl
    have full : (accountData rail.pdaData 1).length = SettlementRoot.len := by
      rw [show accountData rail.pdaData 1 = _ from holds, SettlementRoot.codec_width]
    obtain ⟨timestamp, next_eq⟩ := passed.next_eq
    refine ⟨next, Memory.write_full full next, passed.sequence, passed.total, ?_, ?_⟩
    · rw [next_eq]
      rfl
    · rw [next_eq]
      rfl
  · cases ran
  · cases ran

/-- An accepted batch is committed on top of the registry. -/
theorem submitBatch_ok {submission : RailSubmission} (holds : rail.Holds root)
    (ran : submitBatch chain batchSeq transfers rail = .ok submission rail')
    : ∃ next, Commits chain rail root batchSeq transfers rail' next
        ∧ submission.railName = name
        ∧ submission.totalAmount.val = amountSum transfers := by
  unfold submitBatch at ran
  rw [get_bind, check_bind] at ran
  cases prepared : prepareBatch chain rail batchSeq transfers with
  | error error =>
      rw [prepared] at ran
      cases ran
  | ok batch =>
      simp only [prepared] at ran
      cases sent : send chain rail.programId rail.authority []
        (fun _ _ => .commitSettlement batch.2) "on-chain commit error: " rail.pdaData with
      | error error pdaData =>
          rw [sent] at ran
          cases ran
      | ok _ pdaData =>
          rw [sent] at ran
          cases ran
          obtain ⟨next, written, sequence, total, numbered, merkleRoot⟩ := send_commit holds sent
          simp only [prepareBatch, bind_eq_ok, ensure_eq_ok, holds.deserialize, pure_eq_ok,
            Prod.exists] at prepared
          obtain ⟨_, nonempty, mmr, amount, added, current, -, rfl⟩ := prepared
          obtain ⟨leaves, sum⟩ := foldlM_addLeaf added
          rw [Fin.val_zero, Nat.zero_add] at sum
          refine ⟨next, ?_, rfl, sum⟩
          exact
            {
              holds := written
              total := by rw [total]; exact congrArg (_ + ·) sum
              sequence
              numbered
              leaves
              merkleRoot
              latest := ⟨rfl, rfl⟩
              nonempty
            }

theorem new_holds (made : new chain programId authority = .ok rail)
    : ∃ bump, rail.Holds (.initial authority bump) := by
  unfold new at made
  dsimp only at made
  split at made
  · cases made
  · rename_i pdaData sent
    cases made
    unfold send at sent
    split at sent
    · cases sent
    split at sent
    · rename_i ended
      cases sent
      rw [process_pack] at ended
      obtain ⟨signer, registry, passed, room, rfl⟩ := processInitialize_ok ended
      obtain ⟨others, accounts⟩ := passed.accounts_eq
      obtain ⟨rfl, rfl, -⟩ : _ ∧ _ ∧ _ := by simpa [accountInfos] using accounts
      have full : (accountData (List.replicate SettlementRoot.len 0) 1).length
          = SettlementRoot.len :=
        List.length_replicate
      exact ⟨_, Memory.write_full full _⟩
    · cases sent
    · cases sent

end SolanaUsdcRail

end TrustLedger.Demo
