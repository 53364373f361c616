import TrustLedger.Foundation.Fallible

/-! Speculative execution over an undo log. A machine captures pre-images before each
operation; rolling them back, newest first, and then restoring a mark must give back the
state the mark was taken in. Nothing here assumes how states or pre-images look.
-/

namespace Foundation

/-- An operation language with pre-images. `mark` remembers what a rollback restores besides
the pre-images, and `produced` reads off what was appended since a mark.
-/
structure UndoLog (σ υ μ ω ε ρ : Type) where
  exec : ω → EStateM ε σ Unit
  capture : ω → σ → Except ε (List υ)
  mark : σ → μ
  rollback : List υ → μ → σ → σ
  produced : μ → σ → ρ

namespace UndoLog

variable {σ υ μ ω ε ρ : Type} (log : UndoLog σ υ μ ω ε ρ) {op : ω} {s s' : σ} {ops : List ω}
  {err : ε}

/-- Run every operation, recording pre-images. The first failure rolls back everything
recorded so far.
-/
def runWithUndo (base : μ) : List ω → List υ → EStateM ε σ (List υ)
  | [], undo => pure undo
  | op :: rest, undo => fun s =>
      match log.capture op s with
      | .error err => .error err (log.rollback undo base s)
      | .ok pre =>
          match log.exec op s with
          | .error err s' => .error err (log.rollback undo base s')
          | .ok _ s' => runWithUndo base rest (undo ++ pre) s'

/-- Run the operations of one transaction up to the first failure, without rolling back. -/
def runTransaction : List ω → List υ → σ → (List υ × Option ε) × σ
  | [], undo, s => ((undo, none), s)
  | op :: rest, undo, s =>
      match log.capture op s with
      | .error err => ((undo, some err), s)
      | .ok pre =>
          match log.exec op s with
          | .error err s' => ((undo, some err), s')
          | .ok _ s' => runTransaction rest (undo ++ pre) s'

/-- Run transactions in order on one speculative state: a failed one is rolled back at once,
a successful one adds its pre-images to the whole run's undo list.
-/
def runTransactions : List (List ω) → List υ → σ → (List (Except ε ρ) × List υ) × σ
  | [], allUndo, s => (([], allUndo), s)
  | tx :: rest, allUndo, s =>
      match log.runTransaction tx [] s with
      | ((txUndo, some err), s') =>
          let ((results, undo), final) :=
            runTransactions rest allUndo (log.rollback txUndo (log.mark s) s')
          ((.error err :: results, undo), final)
      | ((txUndo, none), s') =>
          let ((results, undo), final) := runTransactions rest (allUndo ++ txUndo) s'
          ((.ok (log.produced (log.mark s) s') :: results, undo), final)

/-- Apply all operations in order, or nothing at all when one of them fails. -/
def execAll : List ω → σ → Option σ
  | [], s => some s
  | op :: rest, s => (outcome (log.exec op s)).bind (execAll rest)

/-- Direct execution that also names the error a speculative run reports: the first failing
operation's, from its capture if that already fails.
-/
def attempt : List ω → σ → Except ε σ
  | [], s => .ok s
  | op :: rest, s =>
      match log.capture op s with
      | .error err => .error err
      | .ok _ =>
          match log.exec op s with
          | .error err _ => .error err
          | .ok _ s' => attempt rest s'

/-- Transactions in order, each applied as a whole or skipped. -/
def attemptAll : List (List ω) → σ → List (Except ε ρ) × σ
  | [], s => ([], s)
  | tx :: rest, s =>
      match log.attempt tx s with
      | .ok s' =>
          (.ok (log.produced (log.mark s) s') :: (attemptAll rest s').1, (attemptAll rest s').2)
      | .error err => (.error err :: (attemptAll rest s).1, (attemptAll rest s).2)

theorem execAll_append (left right : List ω) (s : σ)
    : log.execAll (left ++ right) s = (log.execAll left s).bind (log.execAll right) := by
  induction left generalizing s with
  | nil => rfl
  | cons op rest ih =>
      simp only [List.cons_append, execAll]
      cases outcome (log.exec op s) with
      | none => rfl
      | some mid => exact ih mid

theorem execAll_cons_eq_some {rest : List ω}
    : log.execAll (op :: rest) s = some s'
      ↔ ∃ mid, log.exec op s = .ok () mid ∧ log.execAll rest mid = some s' := by
  simp only [execAll, Option.bind_eq_some_iff, outcome_eq_some]

/-- A loop over the operations succeeds exactly when direct execution does. -/
theorem forM_exec_ok_iff
    : (ops.forM log.exec : EStateM ε σ Unit) s = .ok () s' ↔ log.execAll ops s = some s' := by
  induction ops generalizing s with
  | nil =>
      change (EStateM.Result.ok () s : EStateM.Result ε σ Unit) = _ ↔ _
      simp [execAll]
  | cons op rest ih =>
      change (log.exec op >>= fun _ => rest.forM log.exec) s = _ ↔ _
      rw [execAll_cons_eq_some, bind_run_ok]
      simp only [ih]
      exact ⟨fun ⟨_, ran⟩ => ran, fun ran => ⟨(), ran⟩⟩

/-- A failed transaction leaves no trace: deleting it deletes its result and nothing else. -/
theorem attemptAll_eraseIdx {txs : List (List ω)} {i : Nat}
    (failed : (log.attemptAll txs s).1[i]? = some (.error err))
    : log.attemptAll (txs.eraseIdx i) s
      = ((log.attemptAll txs s).1.eraseIdx i, (log.attemptAll txs s).2) := by
  induction txs generalizing i s with
  | nil => simp [attemptAll] at failed
  | cons tx rest ih =>
      simp only [attemptAll] at failed ⊢
      cases decided : log.attempt tx s with
      | ok s' =>
          cases i with
          | zero => simp [decided] at failed
          | succ i =>
              simp only [decided, List.getElem?_cons_succ] at failed
              simp only [List.eraseIdx_cons_succ, attemptAll, decided, ih failed]
      | error err' =>
          cases i with
          | zero => rfl
          | succ i =>
              simp only [decided, List.getElem?_cons_succ] at failed
              simp only [List.eraseIdx_cons_succ, attemptAll, decided, ih failed]

/-- The items whose result is a success. -/
def accepted {α : Type} (items : List α) (results : List (Except ε ρ)) : List α :=
  match items, results with
  | item :: items, .ok _ :: results => item :: accepted items results
  | _ :: items, .error _ :: results => accepted items results
  | _, _ => []

/-- The accepted transactions alone give the accepted results and the same final state. -/
theorem attemptAll_accepted (txs : List (List ω)) (s : σ)
    : log.attemptAll (accepted txs (log.attemptAll txs s).1) s
      = ((log.attemptAll txs s).1.filter Except.isOk, (log.attemptAll txs s).2) := by
  induction txs generalizing s with
  | nil => rfl
  | cons tx rest ih =>
      simp only [attemptAll]
      cases decided : log.attempt tx s with
      | ok s' =>
          simp only [accepted, attemptAll, decided, ih s']
          rfl
      | error err =>
          simp only [accepted, ih s]
          rfl

/-- The laws: failed operations change nothing, a successful operation was captured, and its
pre-images take it back under every mark that covers the state before.
-/
structure Lawful (covers : μ → σ → Prop) : Prop where
  atomic : ∀ op, Atomic (log.exec op)
  covers_mark : ∀ s, covers (log.mark s) s
  rollback_mark : ∀ s, log.rollback [] (log.mark s) s = s
  captured
    : ∀ {op s s'}, log.exec op s = .ok () s'
      → ∃ pre, log.capture op s = .ok pre
        ∧ ∀ undo m, covers m s
          → covers m s' ∧ log.rollback (undo ++ pre) m s' = log.rollback undo m s

/-- `delta` takes `s'` back to `s` under every mark that covers `s`. -/
def Reverts (covers : μ → σ → Prop) (delta : List υ) (s s' : σ) : Prop :=
  ∀ undo m, covers m s
    → covers m s' ∧ log.rollback (undo ++ delta) m s' = log.rollback undo m s

variable {log} {covers : μ → σ → Prop}

theorem Reverts.refl (s : σ) : log.Reverts covers [] s s := by
  intro undo m covered
  exact ⟨covered, by rw [List.append_nil]⟩

/-- Pre-images of consecutive steps concatenate. -/
theorem Reverts.trans {first second : List υ} {mid : σ} (before : log.Reverts covers first s mid)
    (after : log.Reverts covers second mid s')
    : log.Reverts covers (first ++ second) s s' := by
  intro undo m covered
  obtain ⟨coveredMid, backToStart⟩ := before undo m covered
  obtain ⟨coveredEnd, backToMid⟩ := after (undo ++ first) m coveredMid
  refine ⟨coveredEnd, ?_⟩
  rw [← List.append_assoc, backToMid, backToStart]

variable (lawful : log.Lawful covers)

include lawful

/-- Rolling back to the start of a speculation restores it exactly. -/
theorem Reverts.restores {delta : List υ} (reverts : log.Reverts covers delta s s')
    : log.rollback delta (log.mark s) s' = s := by
  obtain ⟨-, back⟩ := reverts [] (log.mark s) (lawful.covers_mark s)
  rw [List.nil_append, lawful.rollback_mark] at back
  exact back

/-- Capturing pre-images never rejects what direct execution accepts. Witness: a successful
operation was captured, so a failed capture rules it out.
-/
theorem Lawful.attempt_toOption (ops : List ω) (s : σ)
    : (log.attempt ops s).toOption = log.execAll ops s := by
  induction ops generalizing s with
  | nil => rfl
  | cons op rest ih =>
      simp only [attempt, execAll]
      cases ran : log.exec op s with
      | error err s' => cases log.capture op s <;> rfl
      | ok u s' =>
          obtain ⟨pre, captured, -⟩ := lawful.captured ran
          simpa only [captured, outcome, Option.bind_some] using ih s'

/-- The first failing operation decides the error of a run. -/
theorem Lawful.attempt_error (failed : log.attempt ops s = .error err)
    : ∃ done op rest mid,
        ops = done ++ op :: rest
        ∧ log.execAll done s = some mid
        ∧ log.attempt [op] mid = .error err := by
  induction ops generalizing s with
  | nil => cases failed
  | cons op rest ih =>
      cases ran : log.exec op s with
      | ok _ mid =>
          obtain ⟨pre, captured, -⟩ := lawful.captured ran
          have later : log.attempt rest mid = .error err := by
            simpa only [attempt, captured, ran] using failed
          obtain ⟨done, op', rest', mid', split, applied, blamed⟩ := ih later
          refine ⟨op :: done, op', rest', mid', congrArg (op :: ·) split, ?_, blamed⟩
          exact log.execAll_cons_eq_some.mpr ⟨mid, ran, applied⟩
      | error err' s' =>
          -- the reported error may be the capture's, so it is compared with running `op` alone
          refine ⟨[], op, rest, s, rfl, rfl, ?_⟩
          simpa only [attempt, ran] using failed

/-- The pre-images captured before a successful operation take it back. -/
theorem Lawful.reverts_of_captured {pre : List υ}
    (captured : log.capture op s = .ok pre) (ran : log.exec op s = .ok () s')
    : log.Reverts covers pre s s' := by
  obtain ⟨pre', captured', step⟩ := lawful.captured ran
  obtain rfl : pre = pre' := Except.ok.inj (captured.symm.trans captured')
  exact step

/-- One transaction's speculative run ends where its direct run does, and its undo list takes
it back, whether it failed or not.
-/
theorem Lawful.runTransaction_spec (ops : List ω) (undo : List υ) (s : σ)
    : ∃ delta s',
        log.Reverts covers delta s s'
        ∧ (∀ final, log.attempt ops s = .ok final
          → log.runTransaction ops undo s = ((undo ++ delta, none), final) ∧ s' = final)
        ∧ (∀ err, log.attempt ops s = .error err
          → log.runTransaction ops undo s = ((undo ++ delta, some err), s')) := by
  induction ops generalizing undo s with
  | nil =>
      refine ⟨[], s, .refl s, ?_, ?_⟩
      · intro final ran
        cases ran
        exact ⟨by simp [runTransaction], rfl⟩
      · intro err ran
        cases ran
  | cons op rest ih =>
      simp only [attempt, runTransaction]
      cases captured : log.capture op s with
      | error err => exact ⟨[], s, .refl s, by simp, by simp⟩
      | ok pre =>
          cases ran : log.exec op s with
          | error err s' =>
              -- the failed operation wrote nothing, so it needs no pre-image of its own
              obtain rfl := lawful.atomic op s err s' ran
              exact ⟨[], s', .refl s', by simp, by simp⟩
          | ok u mid =>
              have step := lawful.reverts_of_captured captured ran
              obtain ⟨delta, s', reverts, accepted, rejected⟩ := ih (undo ++ pre) mid
              refine ⟨pre ++ delta, s', Reverts.trans step reverts, ?_, ?_⟩
              · simpa only [List.append_assoc] using accepted
              · simpa only [List.append_assoc] using rejected

/-- A run that rolls back on failure either succeeds like the direct run or ends in the
rolled-back state it started from.
-/
theorem Lawful.runWithUndo_spec (base : μ) (ops : List ω)
    (undo : List υ) (s : σ) (covered : covers base s)
    : (∀ final, log.attempt ops s = .ok final
        → ∃ delta, log.runWithUndo base ops undo s = .ok (undo ++ delta) final
          ∧ log.Reverts covers delta s final)
      ∧ (∀ err, log.attempt ops s = .error err
        → log.runWithUndo base ops undo s = .error err (log.rollback undo base s)) := by
  induction ops generalizing undo s with
  | nil =>
      refine ⟨?_, ?_⟩
      · intro final ran
        cases ran
        exact ⟨[], by simp [runWithUndo, pure, EStateM.pure], .refl s⟩
      · intro err ran
        cases ran
  | cons op rest ih =>
      simp only [attempt, runWithUndo]
      cases captured : log.capture op s with
      | error err => simp
      | ok pre =>
          cases ran : log.exec op s with
          | error err s' =>
              obtain rfl := lawful.atomic op s err s' ran
              simp
          | ok u mid =>
              have step := lawful.reverts_of_captured captured ran
              obtain ⟨coveredMid, back⟩ := step undo base covered
              obtain ⟨accepted, rejected⟩ := ih (undo ++ pre) mid coveredMid
              refine ⟨?_, ?_⟩
              · intro final done
                obtain ⟨delta, result, reverts⟩ := accepted final done
                exact ⟨pre ++ delta, by simpa only [List.append_assoc] using result,
                  Reverts.trans step reverts⟩
              · intro err failed
                simp only [rejected err failed, back]

/-- Started from its own mark, such a run has the direct run's verdict, and a failure gives
back the state it started from.
-/
theorem Lawful.runWithUndo_mark (ops : List ω) (s : σ)
    : (∀ final, log.attempt ops s = .ok final
        → ∃ delta, log.runWithUndo (log.mark s) ops [] s = .ok delta final
          ∧ log.rollback delta (log.mark s) final = s)
      ∧ (∀ err, log.attempt ops s = .error err
        → log.runWithUndo (log.mark s) ops [] s = .error err s) := by
  obtain ⟨succeeds, fails⟩ :=
    lawful.runWithUndo_spec (log.mark s) ops [] s (lawful.covers_mark s)
  refine ⟨fun final ran => ?_, fun err failed => ?_⟩
  · obtain ⟨delta, result, reverts⟩ := succeeds final ran
    exact ⟨delta, result, reverts.restores lawful⟩
  · rw [fails err failed, lawful.rollback_mark]

/-- The accepted transactions, run directly one after the other, reach the same state. -/
theorem Lawful.execAll_accepted (txs : List (List ω)) (s : σ)
    : log.execAll (accepted txs (log.attemptAll txs s).1).flatten s
      = some (log.attemptAll txs s).2 := by
  induction txs generalizing s with
  | nil => rfl
  | cons tx rest ih =>
      simp only [attemptAll]
      cases decided : log.attempt tx s with
      | ok s' =>
          have ran := lawful.attempt_toOption tx s
          rw [decided] at ran
          simp only [accepted, List.flatten_cons, execAll_append, ← ran, Except.toOption,
            Option.bind_some, ih s']
      | error err => simp only [accepted, ih s]

/-- Speculative transactions give the direct run's results and final state, and one undo list
takes the whole run back.
-/
theorem Lawful.runTransactions_spec (txs : List (List ω)) (allUndo : List υ) (s : σ)
    : ∃ delta,
        log.Reverts covers delta s (log.attemptAll txs s).2
        ∧ log.runTransactions txs allUndo s
          = (((log.attemptAll txs s).1, allUndo ++ delta), (log.attemptAll txs s).2) := by
  induction txs generalizing allUndo s with
  | nil => exact ⟨[], .refl s, by simp [runTransactions, attemptAll]⟩
  | cons tx rest ih =>
      obtain ⟨txUndo, reached, reverts, accepted, rejected⟩ :=
        lawful.runTransaction_spec tx [] s
      simp only [List.nil_append] at accepted rejected
      simp only [runTransactions, attemptAll]
      cases decided : log.attempt tx s with
      | ok final =>
          obtain ⟨ran, rfl⟩ := accepted final decided
          obtain ⟨delta, later, result⟩ := ih (allUndo ++ txUndo) reached
          refine ⟨txUndo ++ delta, reverts.trans later, ?_⟩
          simp only [ran, result, List.append_assoc]
      | error err =>
          -- the rollback gives back `s` itself, so the rest runs as if `tx` had not been there
          have restored := reverts.restores lawful
          obtain ⟨delta, later, result⟩ := ih allUndo s
          refine ⟨delta, later, ?_⟩
          simp only [rejected err decided, restored, result]

end UndoLog

end Foundation
