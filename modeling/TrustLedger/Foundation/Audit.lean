import TrustLedger.Foundation.Speculation

/-! Audited execution: every operation of an undo log is followed by a check of the state it
reaches. An operation that fails its audit has already changed the state, and nothing was
recorded to take it back. While every state passed through passes the audit, the audited log
runs like the plain one.
-/

namespace Foundation

namespace UndoLog

variable {σ υ μ ω ε ρ : Type} (log : UndoLog σ υ μ ω ε ρ)

/-- Check each state an operation reaches. -/
def audited (audit : σ → Except ε Unit) : UndoLog σ υ μ ω ε ρ :=
  { log with
    exec := fun op => do
      log.exec op
      check (audit (← get)) }

/-- The states the operations of a run reach, up to the first that fails. -/
def visited : List ω → σ → List σ
  | [], _ => []
  | op :: rest, s =>
      match log.exec op s with
      | .ok _ s' => s' :: visited rest s'
      | .error _ _ => []

/-- The states that consecutive transactions reach; a failed one is given up. -/
def visitedAll : List (List ω) → σ → List σ
  | [], _ => []
  | tx :: rest, s =>
      log.visited tx s
        ++ visitedAll rest
          (match log.attempt tx s with
            | .ok s' => s'
            | .error _ => s)

variable {log} {audit : σ → Except ε Unit} {s : σ} {op : ω} {rest ops : List ω} {undo : List υ}

@[simp] theorem audited_capture : (log.audited audit).capture = log.capture := rfl

@[simp] theorem audited_mark : (log.audited audit).mark = log.mark := rfl

@[simp] theorem audited_rollback : (log.audited audit).rollback = log.rollback := rfl

@[simp] theorem audited_produced : (log.audited audit).produced = log.produced := rfl

theorem audited_exec (op : ω)
    : (log.audited audit).exec op s
      = match log.exec op s with
        | .error err s' => .error err s'
        | .ok _ s' =>
            match audit s' with
            | .ok _ => .ok () s'
            | .error err => .error err s' := by
  cases ran : log.exec op s with
  | error err s' => exact bind_run_of_error ran
  | ok u s' =>
      refine (bind_run_of_ok ran).trans ?_
      rw [get_bind]
      simp only [check]
      cases audit s' <;> rfl

/-- An operation fails with its writes kept exactly when it succeeds into a state that fails the
audit.
-/
theorem audited_changes_iff (atomic : Atomic (log.exec op))
    (moves : ∀ s', log.exec op s = .ok () s' → s' ≠ s)
    : (∃ err s', (log.audited audit).exec op s = .error err s' ∧ s' ≠ s)
      ↔ ∃ s', log.exec op s = .ok () s' ∧ audit s' ≠ .ok () := by
  rw [audited_exec]
  cases ran : log.exec op s with
  | error err s' =>
      obtain rfl := atomic s err s' ran
      simp
  | ok u s' =>
      have moved := moves s' ran
      cases verdict : audit s' with
      | ok u => simp [verdict]
      | error err => simp [verdict, moved]

/-- An operation whose state passes the audit runs as it does without. -/
theorem audited_exec_eq (passes : ∀ mid ∈ log.visited (op :: rest) s, audit mid = .ok ())
    : (log.audited audit).exec op s = log.exec op s := by
  rw [audited_exec]
  cases ran : log.exec op s with
  | error err s' => rfl
  | ok u s' =>
      have ok := passes s' (by simp [visited, ran])
      simp only [ok]

/-- The rest of a run is audited from the state its first operation reaches. -/
theorem visited_tail {s' : σ} {u : Unit} {P : σ → Prop} (ran : log.exec op s = .ok u s')
    (holds : ∀ mid ∈ log.visited (op :: rest) s, P mid)
    : ∀ mid ∈ log.visited rest s', P mid := by
  intro mid mem
  exact holds mid (by simp [visited, ran, mem])

theorem runWithUndo_audited {base : μ} (passes : ∀ mid ∈ log.visited ops s, audit mid = .ok ())
    : (log.audited audit).runWithUndo base ops undo s = log.runWithUndo base ops undo s := by
  induction ops generalizing s undo with
  | nil => rfl
  | cons op rest ih =>
      simp only [runWithUndo, audited_exec_eq passes, audited_capture, audited_rollback]
      cases captured : log.capture op s with
      | error err => rfl
      | ok pre =>
          cases ran : log.exec op s with
          | error err s' => rfl
          | ok u s' => exact ih (visited_tail ran passes)

theorem runTransaction_audited (passes : ∀ mid ∈ log.visited ops s, audit mid = .ok ())
    : (log.audited audit).runTransaction ops undo s = log.runTransaction ops undo s := by
  induction ops generalizing s undo with
  | nil => rfl
  | cons op rest ih =>
      simp only [runTransaction, audited_exec_eq passes, audited_capture]
      cases captured : log.capture op s with
      | error err => rfl
      | ok pre =>
          cases ran : log.exec op s with
          | error err s' => rfl
          | ok u s' => exact ih (visited_tail ran passes)

theorem runTransactions_audited {covers : μ → σ → Prop} (lawful : log.Lawful covers)
    {txs : List (List ω)} {allUndo : List υ}
    (passes : ∀ mid ∈ log.visitedAll txs s, audit mid = .ok ())
    : (log.audited audit).runTransactions txs allUndo s
      = log.runTransactions txs allUndo s := by
  induction txs generalizing s allUndo with
  | nil => rfl
  | cons tx rest ih =>
      simp only [visitedAll, List.mem_append] at passes
      obtain ⟨undo, reached, reverts, accepted, rejected⟩ := lawful.runTransaction_spec tx [] s
      simp only [List.nil_append] at accepted rejected
      simp only [runTransactions, audited_mark, audited_rollback, audited_produced,
        runTransaction_audited fun mid mem => passes mid (.inl mem)]
      cases decided : log.attempt tx s with
      | ok final =>
          obtain ⟨ran, rfl⟩ := accepted final decided
          have later := fun mid mem => passes mid (.inr (by simpa only [decided] using mem))
          simp only [ran, ih later]
      | error err =>
          have restored := reverts.restores lawful
          have later := fun mid mem => passes mid (.inr (by simpa only [decided] using mem))
          simp only [rejected err decided, restored, ih later]

/-- A run that succeeds ends where its last operation led, or where it started. -/
theorem attempt_visited {final : σ} (ran : log.attempt ops s = .ok final)
    : final = s ∨ final ∈ log.visited ops s := by
  induction ops generalizing s with
  | nil =>
      cases ran
      exact .inl rfl
  | cons op rest ih =>
      simp only [attempt] at ran
      split at ran
      · cases ran
      · split at ran
        · cases ran
        · rename_i u s' executed
          right
          simp only [visited, executed, List.mem_cons]
          exact ih ran

section Preserved

variable {P : σ → Prop} (kept : ∀ {op s s'}, P s → log.exec op s = .ok () s' → P s')

include kept

/-- What every operation preserves holds of every state passed through. -/
theorem visited_preserves {ops : List ω} (holds : P s) : ∀ mid ∈ log.visited ops s, P mid := by
  induction ops generalizing s with
  | nil =>
      intro mid mem
      cases mem
  | cons op rest ih =>
      intro mid mem
      simp only [visited] at mem
      split at mem
      · rename_i u s' ran
        rcases List.mem_cons.mp mem with rfl | later
        · exact kept holds ran
        · exact ih (kept holds ran) mid later
      · cases mem

theorem visitedAll_preserves {txs : List (List ω)} (holds : P s)
    : ∀ mid ∈ log.visitedAll txs s, P mid := by
  induction txs generalizing s with
  | nil =>
      intro mid mem
      cases mem
  | cons tx rest ih =>
      intro mid mem
      have first : ∀ mid ∈ log.visited tx s, P mid := visited_preserves kept holds
      rcases List.mem_append.mp mem with now | later
      · exact first mid now
      · cases decided : log.attempt tx s with
        | error err =>
            simp only [decided] at later
            exact ih holds mid later
        | ok final =>
            simp only [decided] at later
            rcases attempt_visited decided with rfl | reached
            · exact ih holds mid later
            · exact ih (first final reached) mid later

end Preserved

end UndoLog

end Foundation
