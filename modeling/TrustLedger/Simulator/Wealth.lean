import TrustLedger.Simulator.Supply

/-! The oracle's conservation check never fails on a cluster whose operations stay among the
tracked accounts: the base state funds every account from the vault, and from then on the supply
only circulates.
-/

namespace TrustLedger.Simulator

open Foundation LedgerCore Ledger

section Funding

variable {accounts : List AccountId} {supply : Nat} {l : Ledger} {accId : AccountId}
  {timestamp : U64}

theorem component_le_sum (component : Balance → Amount) {account : Account}
    (found : l.accounts[accId]? = some account)
    : (component account.balance).toNat ≤ balanceSum component l := by
  unfold balanceSum
  rw [FiniteMap.total_eq_add_erase _ found]
  exact Nat.le_add_right _ _

theorem Circulates.opened (circulates : Circulates accounts supply l) (unlisted : accId ∉ accounts)
    (notVault : accId ≠ vaultAcc) (inOrder : l.lastTimestamp ≤ timestamp)
    : ∃ l', createAccount accId .liability .customer l.scale timestamp l = .ok () l'
        ∧ Circulates (accounts ++ [accId]) supply l' ∧ turnover l' ≤ turnover l
        ∧ l'.transfers = l.transfers ∧ l'.lastTimestamp = timestamp ∧ l'.scale = l.scale := by
  have absent : l.accounts[accId]? = none := by
    by_contra present
    obtain ⟨account, found⟩ := Option.ne_none_iff_exists'.mp present
    rcases (circulates.tracked accId).mp ⟨account, found⟩ with same | listed
    · exact notVault same
    · exact unlisted listed
  have step : l.Step (.accountCreated accId .liability .customer l.scale timestamp) _ :=
    .accountCreated inOrder absent
  have stored (id : AccountId)
      : (l.accounts.insert accId (.new accId .liability .customer l.scale))[id]?
        = if accId = id then some (.new accId .liability .customer l.scale)
          else l.accounts[id]? := by
    simp [Std.ExtTreeMap.getElem?_insert]
  refine ⟨_, applyEvent_ok_iff.mpr step, ?_, turnover_step circulates.backed step, rfl, rfl,
    rfl⟩
  refine ⟨circulates.backed.step step, circulates.limited.step circulates.backed step, ?_, ?_, ?_,
    circulates.holds⟩
  · intro id
    simp only [logged_accounts, stored, List.mem_append, List.mem_singleton]
    by_cases new : accId = id
    · simp [new]
    · rw [if_neg new, circulates.tracked id]
      simp [Ne.symm new]
  · intro id listed account found
    simp only [logged_accounts, stored] at found
    by_cases new : accId = id
    · rw [if_pos new] at found
      cases found
      rfl
    · rw [if_neg new] at found
      rcases List.mem_append.mp listed with old | last
      · exact circulates.customers id old account found
      · exact absurd (List.mem_singleton.mp last).symm new
  · obtain ⟨vault, found, known⟩ := circulates.vault
    refine ⟨vault, ?_, known⟩
    simp only [logged_accounts, stored, if_neg notVault, found]

theorem Circulates.funded (circulates : Circulates accounts supply l) {t : Transfer}
    (outside : vaultAcc ∉ accounts) (debits : t.debitAccountId = vaultAcc)
    (credits : t.creditAccountId ∈ accounts) (posted : t.state = .posted)
    (unlinked : t.pendingId = none) (positive : 0 < t.amount.toNat)
    (inOrder : l.lastTimestamp ≤ t.timestamp) (unused : l.transfers[t.id]? = none)
    (fits : turnover l + t.amount.toNat < 2 ^ 128)
    : ∃ l', createTransfer t l = .ok () l'
        ∧ Circulates accounts (supply + t.amount.toNat) l'
        ∧ turnover l' ≤ turnover l + t.amount.toNat
        ∧ (∀ id, id ≠ t.id → l'.transfers[id]? = l.transfers[id]?)
        ∧ l'.lastTimestamp = t.timestamp ∧ l'.scale = l.scale := by
  have distinct : t.debitAccountId ≠ t.creditAccountId :=
    fun same => outside (debits ▸ same ▸ credits)
  obtain ⟨vault, debitFound, vaultFlags, -⟩ := circulates.vault
  obtain ⟨account, creditFound⟩ := (circulates.tracked t.creditAccountId).mpr (.inr credits)
  have flags := circulates.customers _ credits account creditFound
  have debitRoom := component_le_sum Balance.debitsPosted debitFound
  have creditRoom := component_le_sum Balance.creditsPosted creditFound
  rw [← circulates.backed.posted] at creditRoom
  unfold turnover at fits
  have debitFits : vault.balance.debitsPosted.toNat + t.amount.toNat < 2 ^ 128 := by omega
  have creditFits : account.balance.creditsPosted.toNat + t.amount.toNat < 2 ^ 128 := by omega
  have legs : l.Legs t Balance.debitsPosted Balance.creditsPosted ⟨⟨_, debitFits⟩⟩
      ⟨⟨_, creditFits⟩⟩ := by
    refine ⟨⟨vault, debits ▸ debitFound, ?_, rfl⟩, ⟨account, creditFound, ?_, rfl⟩⟩
    · rw [Account.ensureCanDebit_eq_ok, vaultFlags]
      exact ⟨rfl, nofun⟩
    · rw [Account.ensureCanCredit_eq_ok, flags]
      exact ⟨rfl, nofun⟩
  have linked : l.LinkPosted t := by
    intro pendingId links
    rw [unlinked] at links
    cases links
  have step : l.Step (.transferPosted t) _ :=
    .transferPosted inOrder posted ⟨unused, distinct, positive, fun _ => unlinked⟩ linked legs
  refine ⟨_, applyEvent_ok_iff.mpr step, ?_, turnover_step circulates.backed step, ?_, rfl,
    rfl⟩
  · exact circulates.moved step trivial (if_pos debits)
      (if_neg fun (same : t.creditAccountId = vaultAcc) => outside (same ▸ credits)) nofun
  · intro id other
    simp only [logged_transfers, getElem?_withTransfer, withLegs_transfers,
      if_neg (Ne.symm other)]

end Funding

section BaseState

/-- The id of the transfer that funds the account at a position. -/
def seedId (idx : Nat) : TransferId :=
  ⟨50000 + Fin.ofNat _ idx⟩

theorem seedId_inj {i j : Nat} (iSmall : i < 2 ^ 63) (jSmall : j < 2 ^ 63)
    (same : seedId i = seedId j)
    : i = j := by
  have sums := congrArg Fin.val (TransferId.mk.inj same)
  simp only [Fin.val_add, Fin.ofNat] at sums
  have constant : ((50000 : U128)).val = 50000 := rfl
  omega

/-- The base state while its accounts are being opened: those done have their funds, and the
seed ids of the others are still free.
-/
structure Funded (scale : Scale) (balance : U128) (done : List AccountId) (l : Ledger)
    (timestamp : U64)
    : Prop where
  circulates : Circulates done (done.length * balance.val) l
  scale : l.scale = scale
  inOrder : l.lastTimestamp ≤ timestamp
  early : timestamp.val ≤ 1000 + 2 * done.length
  free : ∀ idx, done.length ≤ idx → idx < 2 ^ 63 → l.transfers[seedId idx]? = none
  spent : turnover l ≤ done.length * balance.val

variable {scale : Scale} {balance : U128} {done : List AccountId} {l : Ledger} {timestamp : U64}
  {accId : AccountId}

theorem succ_val (time : U64) (small : time.val < 2 ^ 64 - 1) : (time + 1).val = time.val + 1 := by
  have one : ((1 : U64)).val = 1 := rfl
  rw [Fin.val_add, one]
  omega

theorem Funded.seeded (funded : Funded scale balance done l timestamp)
    (unlisted : accId ∉ done) (notVault : accId ≠ vaultAcc) (outside : vaultAcc ∉ done)
    (short : done.length < 2 ^ 62) (fits : (done.length + 1) * balance.val < 2 ^ 128)
    : Funded scale balance (done ++ [accId])
        (seedAccount scale balance done.length accId l timestamp).1
        (seedAccount scale balance done.length accId l timestamp).2 := by
  have early := funded.early
  have next := succ_val timestamp (by omega)
  have inOrder : l.lastTimestamp ≤ timestamp + 1 := by
    have before := funded.inOrder
    rw [Fin.le_def] at before ⊢
    omega
  have length : (done ++ [accId]).length = done.length + 1 := by simp
  obtain ⟨opened, ran, circulates, kept, transfers, clock, same⟩ :=
    funded.circulates.opened unlisted notVault inOrder
  have turned := funded.spent
  rw [funded.scale] at ran same
  have listed : vaultAcc ∉ done ++ [accId] := by simp [outside, Ne.symm notVault]
  rw [Nat.add_mul, Nat.one_mul] at fits
  have free (idx : Nat) (later : done.length ≤ idx) (small : idx < 2 ^ 63)
      : opened.transfers[seedId idx]? = none := by
    rw [transfers]
    exact funded.free idx later small
  unfold Simulator.seedAccount
  dsimp only
  rw [ran]
  dsimp only [stateAfter]
  by_cases given : balance > 0
  · have positive : 0 < balance.val := Fin.lt_def.mp given
    have last := succ_val (timestamp + 1) (by omega)
    let seedTx : Transfer :=
      ⟨seedId done.length, vaultAcc, accId, ⟨balance⟩, .posted, none, timestamp + 1 + 1⟩
    have built : Transfer.newImmediate (seedId done.length) vaultAcc accId ⟨balance⟩
        (timestamp + 1 + 1) = .ok seedTx :=
      Transfer.validated_eq_ok.mpr ⟨Ne.symm notVault, positive, rfl⟩
    have later : opened.lastTimestamp ≤ timestamp + 1 + 1 := by
      rw [clock, Fin.le_def]
      omega
    obtain ⟨paid, ran, circulates, added, others, clock, same'⟩ :=
      circulates.funded (t := seedTx) listed rfl (by simp [seedTx]) rfl rfl positive later
        (free _ (Nat.le_refl _) (by omega)) (show turnover opened + balance.val < 2 ^ 128 by omega)
    have amount : seedTx.amount.toNat = balance.val := rfl
    rw [amount] at circulates added
    rw [if_pos given]
    unfold seedId at built
    rw [built]
    dsimp only
    rw [ran]
    refine ⟨?_, same'.trans same, clock.le, ?_, ?_, ?_⟩
    · rw [length, Nat.add_mul, Nat.one_mul]
      exact circulates
    · rw [length]
      omega
    · intro idx beyond small
      rw [length] at beyond
      have other : seedId idx ≠ seedTx.id :=
        fun same => absurd (seedId_inj small (by omega) same) (by omega)
      exact (others _ other).trans (free idx (by omega) small)
    · rw [length, Nat.add_mul, Nat.one_mul]
      exact added.trans (by omega)
  · have zero : balance.val = 0 := by
      rw [gt_iff_lt, Fin.lt_def] at given
      have : ((0 : U128)).val = 0 := rfl
      omega
    rw [if_neg given]
    dsimp only
    refine ⟨?_, same, clock.le, ?_, ?_, ?_⟩
    · simpa [zero] using circulates
    · rw [length]
      omega
    · intro idx later small
      rw [length] at later
      exact free idx (by omega) small
    · rw [zero] at turned ⊢
      omega

theorem funded_vault (scale : Scale) (balance : U128)
    : Funded scale balance []
        (stateAfter (createAccount vaultAcc .asset .bankAsset scale 1000 (.new scale)))
        1000 := by
  have step : (Ledger.new scale).Step (.accountCreated vaultAcc .asset .bankAsset scale 1000) _ :=
    .accountCreated (Fin.zero_le _) (by simp [Ledger.new])
  have backed := backed_new scale
  have limited : (Ledger.new scale).Limited := by
    intro id account found
    simp [Ledger.new] at found
  have ran : createAccount vaultAcc .asset .bankAsset scale 1000 (.new scale) = _ :=
    applyEvent_ok_iff.mpr step
  rw [ran]
  have none_yet : turnover (Ledger.new scale) = 0 := by
    have empty (component : Balance → Amount)
        : balanceSum component (Ledger.new scale) = 0 :=
      FiniteMap.total_eq_zero _ fun id account found => by simp [Ledger.new] at found
    simp only [turnover, empty]
  refine ⟨⟨backed.step step, limited.step backed step, ?_, by simp, ?_, ?_⟩, rfl, ?_, ?_, ?_, ?_⟩
  · intro id
    by_cases vault : vaultAcc = id
    · simp [stateAfter, vault]
    · simp [stateAfter, Ledger.new, vault, Ne.symm vault]
  · refine ⟨_, Std.ExtTreeMap.getElem?_insert_self, rfl, ?_, rfl⟩
    simp [Account.new, Balance.new]
  · intro id t found
    simp [stateAfter, Ledger.new] at found
  · exact Fin.le_refl _
  · exact Nat.le_refl _
  · intro idx _ _
    simp [stateAfter, Ledger.new]
  · have bound := turnover_step backed step
    rw [none_yet] at bound
    exact bound.trans (Nat.zero_le _)

/-- The accounts are opened and funded one after the other. The induction is on those left. -/
theorem Funded.seedAll (funded : Funded scale balance done l timestamp) (todo : List AccountId)
    (distinct : (done ++ todo).Nodup) (outside : vaultAcc ∉ done ++ todo)
    (short : (done ++ todo).length < 2 ^ 62) (fits : (done ++ todo).length * balance.val < 2 ^ 128)
    : let seeded := (todo.zipIdx done.length).foldl
        (fun (ledger, timestamp) (accId, idx) =>
          seedAccount scale balance idx accId ledger timestamp)
        (l, timestamp)
      Funded scale balance (done ++ todo) seeded.1 seeded.2 := by
  induction todo generalizing done l timestamp with
  | nil => simpa using funded
  | cons accId rest ih =>
      have split : done ++ accId :: rest = (done ++ [accId]) ++ rest := by simp
      have unlisted : accId ∉ done := by
        intro listed
        exact (List.nodup_append.mp distinct).2.2 accId listed accId List.mem_cons_self rfl
      have notVault : accId ≠ vaultAcc := by
        intro same
        exact outside (by simp [same])
      have first := funded.seeded unlisted notVault
        (fun listed => outside (List.mem_append_left _ listed)) (by simp at short; omega) ?_
      · rw [split] at distinct outside short fits ⊢
        simpa using ih first distinct outside short fits
      · refine Nat.lt_of_le_of_lt (Nat.mul_le_mul_right _ ?_) fits
        simp

/-- The base state: all accounts are open, and what they own came from the vault. -/
theorem circulates_baseLedger (scale : Scale) {accounts : List AccountId}
    (distinct : accounts.Nodup) (outside : vaultAcc ∉ accounts) (short : accounts.length < 2 ^ 62)
    (fits : accounts.length * balance.val < 2 ^ 128)
    : Circulates accounts (accounts.length * balance.val) (baseLedger scale accounts balance)
      ∧ turnover (baseLedger scale accounts balance) ≤ accounts.length * balance.val := by
  have seeded := (funded_vault scale balance).seedAll accounts distinct outside short fits
  exact ⟨seeded.circulates, seeded.spent⟩

end BaseState

/-- What an account has received less what it has spent. -/
def postedBalance (l : Ledger) (id : AccountId) : Int :=
  match l.accounts[id]? with
  | some account => account.balance.creditsPosted.toNat - account.balance.debitsPosted.toNat
  | none => 0

/-- The account is there and has not spent more than it received. -/
def Solvent (l : Ledger) (id : AccountId) : Prop :=
  ∃ account, l.accounts[id]? = some account
    ∧ account.balance.debitsPosted.toNat ≤ account.balance.creditsPosted.toNat

section Oracle

variable {accounts : List AccountId} {supply : Nat} {l : Ledger} {id : AccountId} {nodeId : U64}
  {expectedSupply wealth : U128}

theorem Circulates.solvent (circulates : Circulates accounts supply l) (listed : id ∈ accounts)
    : Solvent l id := by
  obtain ⟨account, found⟩ := (circulates.tracked id).mpr (.inr listed)
  have flags := circulates.customers id listed account found
  have bound := (circulates.limited id account found).debits (by rw [flags]; rfl)
  exact ⟨account, found, by omega⟩

/-- The tracked accounts own the supply: what is debited on all accounts is credited on them, and
the vault alone accounts for the difference.
-/
theorem Circulates.sum_postedBalance (circulates : Circulates accounts supply l)
    (distinct : accounts.Nodup) (outside : vaultAcc ∉ accounts)
    : (accounts.map (postedBalance l)).sum = supply := by
  have listed (id : AccountId)
      : (∃ account, l.accounts[id]? = some account) ↔ id ∈ vaultAcc :: accounts := by
    rw [circulates.tracked, List.mem_cons]
  have keys : (vaultAcc :: accounts).Nodup := List.nodup_cons.mpr ⟨outside, distinct⟩
  have balanced := circulates.backed.posted
  unfold balanceSum at balanced
  rw [FiniteMap.total_eq_sum_keys _ keys listed, FiniteMap.total_eq_sum_keys _ keys listed]
    at balanced
  obtain ⟨vault, found, -, debits, credits⟩ := circulates.vault
  simp only [List.map_cons, List.sum_cons, found, Option.map_some, Option.getD_some, debits,
    credits, Nat.zero_add] at balanced
  have difference (ids : List AccountId)
      : (ids.map (postedBalance l)).sum
        = ((ids.map fun id =>
            (l.accounts[id]?.map fun a => a.balance.creditsPosted.toNat).getD 0).sum : Nat)
          - ((ids.map fun id =>
            (l.accounts[id]?.map fun a => a.balance.debitsPosted.toNat).getD 0).sum : Nat) := by
    induction ids with
    | nil => rfl
    | cons id rest ih =>
        have one : postedBalance l id
            = ((l.accounts[id]?.map fun a => a.balance.creditsPosted.toNat).getD 0 : Nat)
              - ((l.accounts[id]?.map fun a => a.balance.debitsPosted.toNat).getD 0 : Nat) := by
          unfold postedBalance
          cases l.accounts[id]? <;> simp
        simp only [List.map_cons, List.sum_cons, ih, one]
        omega
  rw [difference]
  omega

theorem addWealth_eq_ok {next : U128} {account : Account} (found : l.accounts[id]? = some account)
    (covered : account.balance.debitsPosted.toNat ≤ account.balance.creditsPosted.toNat)
    (sum : (next.val : Int) = wealth.val + postedBalance l id)
    : Oracle.addWealth nodeId l expectedSupply wealth id = .ok next := by
  have rich : ¬ account.balance.creditsPosted.units < account.balance.debitsPosted.units :=
    Nat.not_lt.mpr covered
  have owned : (account.balance.creditsPosted.units - account.balance.debitsPosted.units).val
      = account.balance.creditsPosted.toNat - account.balance.debitsPosted.toNat :=
    Fin.sub_val_of_le covered
  have added : checkedAdd wealth
      (account.balance.creditsPosted.units - account.balance.debitsPosted.units) = some next := by
    rw [checkedAdd_eq_some, owned]
    simp only [postedBalance, found] at sum
    omega
  unfold Oracle.addWealth
  rw [getAccount_eq_ok.mpr found]
  dsimp only
  rw [if_neg rich, added]

theorem foldlM_addWealth {total : U128} {ids : List AccountId} (solvent : ∀ id ∈ ids, Solvent l id)
    (sums : (total.val : Int) = wealth.val + (ids.map (postedBalance l)).sum)
    : ids.foldlM (Oracle.addWealth nodeId l expectedSupply) wealth = .ok total := by
  have nonneg (id : AccountId) (good : Solvent l id) : 0 ≤ postedBalance l id := by
    obtain ⟨account, found, covered⟩ := good
    simp only [postedBalance, found]
    omega
  induction ids generalizing wealth with
  | nil =>
      have same : total = wealth := by
        apply Fin.ext
        simpa using sums
      rw [same]
      rfl
  | cons id rest ih =>
      have later := fun other listed => solvent other (List.mem_cons_of_mem _ listed)
      have tail : 0 ≤ (rest.map (postedBalance l)).sum :=
        List.sum_nonneg fun value mem => by
          obtain ⟨other, listed, rfl⟩ := List.mem_map.mp mem
          exact nonneg other (later other listed)
      obtain ⟨account, found, covered⟩ := solvent id List.mem_cons_self
      simp only [List.map_cons, List.sum_cons] at sums
      have first := nonneg id ⟨account, found, covered⟩
      have bound := total.isLt
      have small : (wealth.val + postedBalance l id).toNat < 2 ^ 128 := by omega
      have added : Oracle.addWealth nodeId l expectedSupply wealth id = .ok ⟨_, small⟩ :=
        addWealth_eq_ok found covered (by dsimp only; omega)
      rw [List.foldlM_cons, added]
      exact ih later (by dsimp only; omega)

/-- Conservation holds while money circulates and the turnover fits. -/
theorem Circulates.assertConservation (circulates : Circulates accounts supply l)
    (distinct : accounts.Nodup) (outside : vaultAcc ∉ accounts) (fits : turnover l < 2 ^ 128)
    (nodeId : U64) (owned : wealth.val = supply)
    : Oracle.assertConservation nodeId l accounts wealth = .ok () := by
  unfold turnover at fits
  have passes : l.verifyInvariants = .ok () :=
    circulates.backed.verifyInvariants_iff.mpr ⟨by omega, by omega⟩
  have sum := circulates.sum_postedBalance distinct outside
  have counted : accounts.foldlM (Oracle.addWealth nodeId l wealth) 0 = .ok wealth := by
    refine foldlM_addWealth (fun id listed => circulates.solvent listed) ?_
    have zero : ((0 : U128)).val = 0 := rfl
    rw [sum, zero]
    omega
  unfold Oracle.assertConservation
  rw [passes]
  dsimp only
  rw [counted]
  exact ensure_eq_ok.mpr rfl

end Oracle

namespace SimCluster

/-- What never changes while a cluster runs. -/
structure Provisioned (base : Ledger) (accounts : List AccountId) (totalWealth : U128)
    (c : SimCluster)
    : Prop where
  grown : c.Grown base fun _ => []
  accounts : c.accounts = accounts
  totalWealth : c.totalWealth = totalWealth

variable {base : Ledger} {accounts : List AccountId} {totalWealth : U128} {start : SimCluster}

theorem provisioned_rule (move : Move) (provisioned : start.Provisioned base accounts totalWealth)
    : MoveRule True start move (Provisioned base accounts totalWealth) where
  threeNodes known := known.grown.threeNodes
  durable known found := known.grown.durable found
  latency _ _ := trivial
  panics _ _ _ _ := trivial
  rewired {_ network} known _ := ⟨known.grown.rewired network, known.accounts, known.totalWealth⟩
  proposed _ found _ _ :=
    ⟨provisioned.grown.counting found _ _ _, provisioned.accounts, provisioned.totalWealth⟩
  turn known found _ turn _ := ⟨known.grown.turn found turn, known.accounts, known.totalWealth⟩

theorem provisioned_preserved (base : Ledger) (accounts : List AccountId) (totalWealth : U128)
    : Preserved True (fun _ _ _ => True)
        fun _ _ c => c.Provisioned base accounts totalWealth where
  drain _ known := ⟨known.grown.rewired _, known.accounts, known.totalWealth⟩
  move move known _ := (provisioned_rule move known).ends known

theorem provisioned_new3Node (netConfig : NetworkConfig) (accountIds : List U128) (balance : U128)
    : (new3Node netConfig accountIds balance).Provisioned (startLedger accountIds balance)
        (accountIds.map AccountId.mk) (new3Node netConfig accountIds balance).totalWealth :=
  ⟨(replicas_new3Node netConfig accountIds balance).grown
    (threeNodes_new3Node netConfig accountIds balance), rfl, rfl⟩

/-- No tracked account of the node has spent more than it received, together they own the total
wealth, and the oracle finds nothing wrong.
-/
structure Conserves (c : SimCluster) (node : SimNode) : Prop where
  solvent : ∀ id ∈ c.accounts, Solvent node.ledger id
  supply : (c.accounts.map (postedBalance node.ledger)).sum = c.totalWealth.val
  passes : Oracle.assertConservation node.id node.ledger c.accounts c.totalWealth = .ok ()

/-- The cluster conserves the money supply: in every state of a run whose operations name tracked
accounts only and do not exhaust the amount type, on every node. The accounts are a slice of
16-byte ids, and a slice spans fewer than `2 ^ 63` bytes.
-/
theorem cluster_conserves (netConfig : NetworkConfig) {accountIds : List U128} (balance : U128)
    (draws : List U64) {calls : List Call} (distinct : accountIds.Nodup)
    (notVault : 99999 ∉ accountIds) (sliceSize : accountIds.length * 16 < 2 ^ 63) (within
      : ∀ op ∈ calls.filterMap Call.op?, op.Within (accountIds.map AccountId.mk)) (fits
      : accountIds.length * balance.val + ((calls.filterMap Call.op?).map WorkloadOp.amount).sum
        < 2 ^ 128)
    : ∀ c ∈ states (new3Node netConfig accountIds balance) draws calls,
        ∀ (id : U64) (node : SimNode), c.nodes[id]? = some node → c.Conserves node := by
  intro c visited id node found
  obtain ⟨log, durable, proposed⟩ :=
    applied_proposals netConfig accountIds balance draws calls visited found
  obtain ⟨known, -⟩ := (provisioned_preserved _ _ _).states
    (provisioned_new3Node netConfig accountIds balance) fun _ _ _ _ => trivial
  obtain ⟨-, -, -, provisioned⟩ := known c visited
  have length : (accountIds.map AccountId.mk).length = accountIds.length := List.length_map _
  have apart : (accountIds.map AccountId.mk).Nodup :=
    distinct.map fun left right same => AccountId.mk.inj same
  have outside : vaultAcc ∉ accountIds.map AccountId.mk := by
    intro listed
    obtain ⟨id, named, same⟩ := List.mem_map.mp listed
    cases same
    exact notVault named
  have fitting : (accountIds.map AccountId.mk).length * balance.val < 2 ^ 128 := by
    rw [length]
    omega
  obtain ⟨funded, spent⟩ := circulates_baseLedger .usdc apart outside (by omega) fitting
  -- what the node applied is among what was proposed, so it stays within the bounds
  have logWithin : ∀ entry ∈ log, entry.1.Within (accountIds.map AccountId.mk) :=
    fun entry listed => within entry.1 (proposed.subset (List.mem_map_of_mem listed))
  have logAmount : (log.map fun entry => entry.1.amount).sum
      ≤ ((calls.filterMap Call.op?).map WorkloadOp.amount).sum := by
    have summed := (proposed.map WorkloadOp.amount).sum_le_sum fun _ _ => Nat.zero_le _
    rwa [List.map_map] at summed
  obtain ⟨circulates, turned⟩ := funded.replay logWithin outside
  have ledger : node.ledger = replay (startLedger accountIds balance) log := durable.applied.ledger
  have wealth : c.totalWealth.val = accountIds.length * balance.val := by
    rw [provisioned.totalWealth, Nat.mul_comm accountIds.length]
    exact Nat.min_eq_left (by rw [Nat.mul_comm]; omega)
  rw [length] at circulates spent
  refine ⟨?_, ?_, ?_⟩
  · rw [provisioned.accounts, ledger]
    exact fun id listed => circulates.solvent listed
  · rw [provisioned.accounts, ledger, wealth]
    exact circulates.sum_postedBalance apart outside
  · rw [provisioned.accounts, ledger]
    exact circulates.assertConservation apart outside (by omega) node.id wealth

/-- A hold is captured in part, and a node crashes and comes back in between. -/
def partlyCaptured : List Call :=
  [.propose (.createPending 7 1 2 40) 0, .step 1, .step 2, .crashNode 3 true, .step 3,
    .propose (.postPending 7 9 25) 3, .step 4, .step 5, .rebootNode 3 6, .step 7, .step 8, .step 9]

/-- The node that recovered has the payment, and the supply is still 200. -/
theorem partlyCaptured_conserves
    : (∃ c ∈ states (new3Node {} [1, 2] 100) [] partlyCaptured, ∃ node ∈ c.nodes[(3 : U64)]?,
        postedBalance node.ledger ⟨1⟩ = 75 ∧ postedBalance node.ledger ⟨2⟩ = 125
        ∧ c.totalWealth = 200)
      ∧ ∀ c ∈ states (new3Node {} [1, 2] 100) [] partlyCaptured,
        ∀ (id : U64) (node : SimNode), c.nodes[id]? = some node → c.Conserves node :=
  ⟨by decide +kernel,
    cluster_conserves {} 100 [] (by decide) (by decide) (by decide)
      (by simp [partlyCaptured, Call.op?, WorkloadOp.Within]) (by decide)⟩

end SimCluster

end TrustLedger.Simulator
