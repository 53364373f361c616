import TrustLedger.Ingest.Decisions

/-! The timestamp watermark of a micro-batch: it never moves back, stays above every timestamp
it let through, and influences conversions only through the next timestamp it allows.
-/

namespace TrustLedger.Ingest

open Foundation LedgerCore

/-- The operations of a command. -/
def IngestCommand.ops : IngestCommand → List TimedOp
  | .mutate timed _ => [timed]
  | .applyBatch ops _ => ops
  | .getAccount .. | .getTransfer .. => []

/-- The smallest timestamp the engine can choose next. -/
def nextStamp (watermark : U64) : U64 :=
  saturatingAdd watermark 1

theorem nextStamp_val (watermark : U64)
    : (nextStamp watermark).val = min (watermark.val + 1) (2 ^ 64 - 1) :=
  rfl

theorem le_nextStamp (watermark : U64) : watermark ≤ nextStamp watermark := by
  have bound := watermark.isLt
  rw [Fin.le_def, nextStamp_val]
  omega

theorem nextStamp_max (left right : U64)
    : nextStamp (max left right) = max (nextStamp left) (nextStamp right) := by
  rcases le_total left right with le | le
  · have mono : nextStamp left ≤ nextStamp right := by
      rw [Fin.le_def] at le ⊢
      rw [nextStamp_val, nextStamp_val]
      omega
    rw [max_eq_right le, max_eq_right mono]
  · have mono : nextStamp right ≤ nextStamp left := by
      rw [Fin.le_def] at le ⊢
      rw [nextStamp_val, nextStamp_val]
      omega
    rw [max_eq_left le, max_eq_left mono]

section Respects

variable {R : U64 → U64 → Prop}

theorem TimedOp.intoBatchOp_respects {timed : TimedOp} (allocates : ∀ {left right}, R left right →
      (allocateTimestamp timed.op.timestamp timed.now left).1
          = (allocateTimestamp timed.op.timestamp timed.now right).1
        ∧ R (allocateTimestamp timed.op.timestamp timed.now left).2
            (allocateTimestamp timed.op.timestamp timed.now right).2)
    : Respects R timed.intoBatchOp := by
  intro left right related
  obtain ⟨same, after⟩ := allocates related
  simp only [TimedOp.intoBatchOp, same]
  cases timed.op.build _ with
  | ok built => exact ⟨rfl, after⟩
  | error err => exact ⟨rfl, after⟩

theorem intoBatchOps_respects {ops : List TimedOp}
    (respects : ∀ timed ∈ ops, Respects R timed.intoBatchOp)
    : Respects R (intoBatchOps ops) := by
  induction ops with
  | nil => exact .pure []
  | cons timed rest ih =>
      apply (respects timed List.mem_cons_self).bind
      intro op
      apply (ih fun other there => respects other (List.mem_cons_of_mem _ there)).bind
      exact fun ops => .pure (op :: ops)

/-- A command's conversion reads of the watermark what its operations read. -/
theorem IngestCommand.convert_respects {command : IngestCommand} {responder : Responder}
    {convert : WatermarkM (List BatchOp)} (mutation : command.mutation? = some (responder, convert))
    (respects : ∀ timed ∈ command.ops, Respects R timed.intoBatchOp)
    : Respects R convert := by
  cases command with
  | mutate timed respondTo =>
      cases mutation
      exact (respects timed List.mem_cons_self).bind fun op => .pure [op]
  | applyBatch ops respondTo =>
      cases mutation
      exact intoBatchOps_respects respects
  | getAccount => cases mutation
  | getTransfer => cases mutation

theorem convertAll_respects {batch : List IngestCommand}
    (respects : ∀ command ∈ batch, ∀ timed ∈ command.ops, Respects R timed.intoBatchOp)
    {left right : U64} (related : R left right)
    : (convertAll batch left).1 = (convertAll batch right).1 := by
  induction batch generalizing left right with
  | nil => rfl
  | cons command rest ih =>
      have later := fun c there => respects c (List.mem_cons_of_mem _ there)
      simp only [convertAll]
      cases mutation : command.mutation? with
      | none => exact ih later related
      | some pair =>
          obtain ⟨same, after⟩ :=
            IngestCommand.convert_respects mutation (respects command List.mem_cons_self) left right
              related
          simp only [same, ih later after]

end Respects

theorem TimedOp.intoBatchOp_stamped {timed : TimedOp} (stamped : timed.op.timestamp ≠ 0)
    : Respects (fun _ _ => True) timed.intoBatchOp := by
  apply TimedOp.intoBatchOp_respects
  intro left right _
  simp only [allocateTimestamp_requested stamped, true_and]

/-- Any operation reads only the next timestamp the watermark allows. -/
theorem TimedOp.intoBatchOp_nextStamp (timed : TimedOp)
    : Respects (fun left right => nextStamp left = nextStamp right) timed.intoBatchOp := by
  apply TimedOp.intoBatchOp_respects
  intro left right same
  by_cases asked : timed.op.timestamp = 0
  · rw [asked, allocateTimestamp_zero, allocateTimestamp_zero]
    change saturatingAdd left 1 = saturatingAdd right 1 at same
    rw [same]
    exact ⟨rfl, rfl⟩
  · simp only [allocateTimestamp_requested asked, nextStamp_max, same, and_self]

/-- The accounts and the amount of an operation pass validation. -/
def IngestOp.valid (op : IngestOp) : Bool :=
  (op.build 0).isOk

/-- Operations up to the first that fails validation: those a conversion looks at. -/
def upToInvalid : List TimedOp → List TimedOp
  | [] => []
  | timed :: rest => if timed.op.valid then timed :: upToInvalid rest else [timed]

/-- The watermark after one more operation. -/
def advance (watermark : U64) (timed : TimedOp) : U64 :=
  (allocateTimestamp timed.op.timestamp timed.now watermark).2

/-- The watermark after the operations of some commands, from the ledger's last timestamp. -/
def watermarkAfter (commands : List IngestCommand) (l : Ledger) : U64 :=
  (commands.flatMap fun command => upToInvalid command.ops).foldl advance l.lastTimestamp

theorem IngestOp.isOk_build (op : IngestOp) (ts : U64) : (op.build ts).isOk = op.valid := by
  cases op with
  | createTransfer id debit credit amount =>
      simp only [IngestOp.valid, IngestOp.build, Transfer.newImmediate, Transfer.validated]
      cases Transfer.validateInvariants id debit credit amount <;> rfl
  | createPending id debit credit amount =>
      simp only [IngestOp.valid, IngestOp.build, Transfer.newPending, Transfer.validated]
      cases Transfer.validateInvariants id debit credit amount <;> rfl
  | _ => rfl

theorem TimedOp.intoBatchOp_advance (timed : TimedOp) (watermark : U64)
    : stateAfter (timed.intoBatchOp watermark) = advance watermark timed
      ∧ (valueAfter (timed.intoBatchOp watermark)).isOk = timed.op.valid := by
  rw [← IngestOp.isOk_build timed.op
    (allocateTimestamp timed.op.timestamp timed.now watermark).1]
  simp only [TimedOp.intoBatchOp, advance]
  cases timed.op.build _ <;> exact ⟨rfl, rfl⟩

theorem stateAfter_intoBatchOps (ops : List TimedOp) (watermark : U64)
    : stateAfter (intoBatchOps ops watermark) = (upToInvalid ops).foldl advance watermark := by
  induction ops generalizing watermark with
  | nil => rfl
  | cons timed rest ih =>
      obtain ⟨moved, valid⟩ := timed.intoBatchOp_advance watermark
      simp only [intoBatchOps, upToInvalid]
      cases first : timed.intoBatchOp watermark with
      | error err mid =>
          rw [first] at moved valid
          rw [bind_run_of_error first, ← valid]
          exact moved
      | ok op mid =>
          rw [first] at moved valid
          have holds : timed.op.valid = true := valid.symm
          rw [bind_run_of_ok first, if_pos holds, List.foldl_cons, ← moved, stateAfter, ← ih mid]
          cases ran : intoBatchOps rest mid with
          | error err next => rw [bind_run_of_error ran]
          | ok ops next =>
              rw [bind_run_of_ok ran]
              rfl

variable {command : IngestCommand} {responder : Responder} {convert : WatermarkM (List BatchOp)}
  {ops : List TimedOp} {watermark : U64} {l : Ledger}

theorem IngestCommand.convert_advance (mutation : command.mutation? = some (responder, convert))
    (watermark : U64)
    : stateAfter (convert watermark)
      = (upToInvalid command.ops).foldl advance watermark := by
  cases command with
  | mutate timed respondTo =>
      cases mutation
      rw [IngestCommand.ops, ← stateAfter_intoBatchOps]
      simp only [intoBatchOps]
      cases first : timed.intoBatchOp watermark with
      | error err mid => rw [bind_run_of_error first, bind_run_of_error first]
      | ok op mid =>
          rw [bind_run_of_ok first, bind_run_of_ok first]
          rfl
  | applyBatch ops respondTo =>
      cases mutation
      exact stateAfter_intoBatchOps ops watermark
  | getAccount => cases mutation
  | getTransfer => cases mutation

/-- Conversions leave the watermark of the operations they look at. -/
theorem convertAll_advance (batch : List IngestCommand) (watermark : U64)
    : (convertAll batch watermark).2
      = (batch.flatMap fun command => upToInvalid command.ops).foldl advance watermark := by
  induction batch generalizing watermark with
  | nil => rfl
  | cons command rest ih =>
      rw [List.flatMap_cons, List.foldl_append]
      simp only [convertAll]
      cases mutation : command.mutation? with
      | none =>
          have nothing : command.ops = [] := by
            cases command <;> cases mutation <;> rfl
          rw [ih, nothing]
          rfl
      | some pair => rw [ih, IngestCommand.convert_advance mutation]

theorem le_foldl_advance (ops : List TimedOp) (watermark : U64)
    : watermark ≤ ops.foldl advance watermark := by
  induction ops generalizing watermark with
  | nil => exact le_rfl
  | cons timed rest ih => exact le_trans (le_allocateTimestamp _ _ _) (ih (advance watermark timed))

/-- Operations leave the watermark alone exactly when each carries a timestamp that is not
ahead of it, provided that a higher watermark exists.
-/
theorem foldl_advance_eq_self (room : watermark.val < 2 ^ 64 - 1)
    : ops.foldl advance watermark = watermark
      ↔ ∀ timed ∈ ops, timed.op.timestamp ≠ 0 ∧ timed.op.timestamp ≤ watermark := by
  induction ops with
  | nil => simp
  | cons timed rest ih =>
      rw [List.foldl_cons, List.forall_mem_cons, ← ih]
      constructor
      · intro same
        have back : advance watermark timed ≤ watermark :=
          le_trans (le_foldl_advance rest _) same.le
        have fixed : advance watermark timed = watermark :=
          le_antisymm back (le_allocateTimestamp _ _ _)
        rw [fixed] at same
        refine ⟨?_, same⟩
        by_cases asked : timed.op.timestamp = 0
        · -- A chosen timestamp would be above the watermark.
          rw [advance, asked, allocateTimestamp_zero] at fixed
          have above : nextStamp watermark ≤ watermark := (le_max_right _ _).trans fixed.le
          rw [Fin.le_def, nextStamp_val] at above
          omega
        · rw [advance, allocateTimestamp_requested asked] at fixed
          exact ⟨asked, (le_max_right _ _).trans fixed.le⟩
      · rintro ⟨⟨chosen, within⟩, same⟩
        rw [advance, allocateTimestamp_requested chosen, max_eq_left within]
        exact same

/-- Operations move the next timestamp unless the watermark has run out or they leave it
alone.
-/
theorem nextStamp_foldl_advance
    : nextStamp (ops.foldl advance watermark) = nextStamp watermark
      ↔ 2 ^ 64 - 2 ≤ watermark.val
        ∨ ∀ timed ∈ ops, timed.op.timestamp ≠ 0 ∧ timed.op.timestamp ≤ watermark := by
  have moved := le_foldl_advance ops watermark
  rw [Fin.le_def] at moved
  -- from the last value but one on, every watermark allows the largest timestamp only
  rcases Nat.lt_or_ge watermark.val (2 ^ 64 - 2) with early | late
  · rw [← foldl_advance_eq_self (by omega), Fin.ext_iff, Fin.ext_iff, nextStamp_val,
      nextStamp_val]
    omega
  · rw [Fin.ext_iff, nextStamp_val, nextStamp_val]
    omega

theorem applyOps_lastTimestamp {ops : List BatchOp} {l' : Ledger} {bound : U64}
    (before : l.lastTimestamp ≤ bound) (stamps : ∀ op ∈ ops, stampOf op ≤ bound)
    (ran : Ledger.applyOps ops l = some l')
    : l'.lastTimestamp ≤ bound := by
  induction ops generalizing l with
  | nil =>
      cases ran
      exact before
  | cons op rest ih =>
      obtain ⟨mid, first, later⟩ := Ledger.opLog.execAll_cons_eq_some.mp ran
      have reached : mid.lastTimestamp ≤ bound := by
        rw [step_lastTimestamp (Ledger.applyBatchOp_ok_iff.mp first), eventStamp_event]
        exact stamps op List.mem_cons_self
      exact ih reached (fun other there => stamps other (List.mem_cons_of_mem _ there)) later

theorem IngestOp.stampOf_build {op : IngestOp} {ts : U64} {built : BatchOp}
    (builds : op.build ts = .ok built)
    : stampOf built = ts := by
  rw [IngestOp.build_ok builds]
  cases op <;> rfl

/-- A run never moves the watermark back, and covers what it returns. -/
def Covers {α : Type} (covered : α → U64 → Prop) (x : WatermarkM α) : Prop :=
  ∀ watermark, watermark ≤ stateAfter (x watermark)
    ∧ ∀ a, valueAfter (x watermark) = .ok a → covered a (stateAfter (x watermark))

theorem Covers.bind {α β : Type} {covered : α → U64 → Prop} {covers : β → U64 → Prop}
    {x : WatermarkM α} {f : α → WatermarkM β} (first : Covers covered x)
    (later : ∀ a mid, covered a mid → mid ≤ stateAfter (f a mid)
      ∧ ∀ b, valueAfter (f a mid) = .ok b → covers b (stateAfter (f a mid)))
    : Covers covers (x >>= f) := by
  intro watermark
  obtain ⟨moved, handed⟩ := first watermark
  cases ran : x watermark with
  | error err mid =>
      rw [bind_run_of_error ran]
      rw [ran] at moved
      refine ⟨moved, fun b returned => ?_⟩
      cases returned
  | ok a mid =>
      rw [bind_run_of_ok ran]
      rw [ran] at moved handed
      obtain ⟨further, others⟩ := later a mid (handed a rfl)
      exact ⟨le_trans moved further, others⟩

theorem TimedOp.intoBatchOp_covers (timed : TimedOp)
    : Covers (fun op next => stampOf op ≤ next) timed.intoBatchOp := by
  intro watermark
  have moved := le_allocateTimestamp timed.op.timestamp timed.now watermark
  have handed : (allocateTimestamp timed.op.timestamp timed.now watermark).1
      ≤ (allocateTimestamp timed.op.timestamp timed.now watermark).2 := by
    unfold allocateTimestamp
    split
    · exact le_rfl
    · exact le_max_right _ _
  simp only [TimedOp.intoBatchOp]
  cases builds : timed.op.build _ with
  | ok built =>
      refine ⟨moved, fun op returned => ?_⟩
      cases returned
      rw [IngestOp.stampOf_build builds]
      exact handed
  | error err =>
      refine ⟨moved, fun op returned => ?_⟩
      cases returned

theorem intoBatchOps_covers (ops : List TimedOp)
    : Covers (fun built next => ∀ op ∈ built, stampOf op ≤ next) (intoBatchOps ops) := by
  induction ops with
  | nil =>
      intro watermark
      refine ⟨le_rfl, fun built returned => ?_⟩
      cases returned
      simp
  | cons timed rest ih =>
      apply timed.intoBatchOp_covers.bind
      intro op mid handed
      obtain ⟨further, others⟩ := ih mid
      cases ran : intoBatchOps rest mid with
      | error err next =>
          rw [bind_run_of_error ran]
          rw [ran] at further
          refine ⟨further, fun built returned => ?_⟩
          cases returned
      | ok ops next =>
          rw [bind_run_of_ok ran]
          rw [ran] at further others
          refine ⟨further, fun built returned => ?_⟩
          cases returned
          intro other there
          rcases List.mem_cons.mp there with rfl | among
          · exact le_trans handed further
          · exact others ops rfl other among

theorem IngestCommand.convert_covers (mutation : command.mutation? = some (responder, convert))
    : Covers (fun built next => ∀ op ∈ built, stampOf op ≤ next) convert := by
  cases command with
  | mutate timed respondTo =>
      cases mutation
      apply timed.intoBatchOp_covers.bind
      intro op mid handed
      refine ⟨le_rfl, fun built returned => ?_⟩
      cases returned
      intro other there
      rw [List.mem_singleton.mp there]
      exact handed
  | applyBatch ops respondTo =>
      cases mutation
      exact intoBatchOps_covers ops
  | getAccount => cases mutation
  | getTransfer => cases mutation

/-- The watermark of the converted commands is not behind the ledger they lead to. -/
theorem lastTimestamp_le_watermark {batch : List IngestCommand}
    (ahead : l.lastTimestamp ≤ watermark)
    : (decideAll (convertAll batch watermark).1 l).2.lastTimestamp
      ≤ (convertAll batch watermark).2 := by
  induction batch generalizing watermark l with
  | nil => exact ahead
  | cons command rest ih =>
      simp only [convertAll]
      cases mutation : command.mutation? with
      | none => exact ih ahead
      | some pair =>
          obtain ⟨responder, convert⟩ := pair
          obtain ⟨moved, covered⟩ := IngestCommand.convert_covers mutation watermark
          have kept := le_trans ahead moved
          simp only
          cases value : valueAfter (convert watermark) with
          | error err => exact ih kept
          | ok ops =>
              simp only [decideAll]
              cases decided : Ledger.opLog.attempt ops l with
              | error err => exact ih kept
              | ok l' =>
                  exact ih (applyOps_lastTimestamp kept (covered ops value)
                    (Ledger.attempt_ops.mp decided))

end TrustLedger.Ingest
