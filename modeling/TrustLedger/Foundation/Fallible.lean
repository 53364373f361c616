import Mathlib

/-! Inversion rules for fallible computations. Read-only checks live in `Except`; code that
writes lives in `EStateM`, whose errors carry the state they leave behind, so that a failed
call is not assumed to restore anything.
-/

namespace Foundation

variable {ε σ α β : Type} {condition : Prop} {err e : ε} {x : Except ε α} {b : β} {a : α}
  {found : Option α} {r : EStateM.Result ε σ Unit} {s t mid : σ} {f : α → EStateM ε σ β} {g : σ → σ}
  {R : σ → σ → Prop}

/-- Continue when `condition` holds, otherwise report `err`. -/
def ensure (condition : Prop) [Decidable condition] (err : ε) : Except ε Unit :=
  if condition then .ok () else .error err

@[simp] theorem ensure_eq_ok [Decidable condition] {u : Unit}
    : ensure condition err = .ok u ↔ condition := by
  unfold ensure
  split <;> simp_all

@[simp] theorem ensure_eq_error [Decidable condition]
    : ensure condition err = .error e ↔ ¬condition ∧ err = e := by
  unfold ensure
  split <;> simp_all

theorem bind_eq_ok {f : α → Except ε β} : (x >>= f) = .ok b ↔ ∃ a, x = .ok a ∧ f a = .ok b := by
  cases x <;> simp [bind, Except.bind]

theorem bind_eq_error {f : α → Except ε β}
    : (x >>= f) = .error e ↔ x = .error e ∨ ∃ a, x = .ok a ∧ f a = .error e := by
  cases x <;> simp [bind, Except.bind]

@[simp] theorem pure_eq_ok {b : α} : (pure a : Except ε α) = .ok b ↔ a = b := by
  simp [pure, Except.pure]

theorem map_eq_ok {f : α → β} : x.map f = .ok b ↔ ∃ a, x = .ok a ∧ f a = b := by
  cases x <;> simp [Except.map]

theorem forM_eq_ok {xs : List α} {f : α → Except ε Unit}
    : xs.forM f = .ok () ↔ ∀ x ∈ xs, f x = .ok () := by
  induction xs with
  | nil =>
      change (pure () : Except ε Unit) = _ ↔ _
      simp
  | cons x rest ih =>
      change (f x >>= fun _ => rest.forM f) = _ ↔ _
      simp only [bind_eq_ok, ih, List.mem_cons, forall_eq_or_imp]
      exact ⟨fun ⟨_, first, later⟩ => ⟨first, later⟩, fun both => ⟨(), both⟩⟩

@[simp] theorem throw_ne_ok : (throw e : Except ε α) ≠ .ok a := by
  simp [throw, throwThe, MonadExceptOf.throw]

/-- The value found, or `err` when there is none. -/
def okOr (found : Option α) (err : ε) : Except ε α :=
  match found with
  | some a => .ok a
  | none => .error err

@[simp] theorem okOr_eq_ok : okOr found err = .ok a ↔ found = some a := by
  cases found <;> simp [okOr]

@[simp] theorem okOr_eq_error : okOr found err = .error e ↔ found = none ∧ err = e := by
  cases found <;> simp [okOr]

/-- A computation none of whose errors is a bad one. -/
def Avoids (bad : ε → Prop) (x : Except ε α) : Prop :=
  ∀ e, x = .error e → ¬bad e

namespace Avoids

variable {bad : ε → Prop} {e : ε}

theorem ok (a : α) : Avoids bad (.ok a) :=
  fun _ failed => by cases failed

theorem error (good : ¬bad e) : Avoids bad (.error e : Except ε α) :=
  fun _ failed => by cases failed; exact good

theorem ensure {condition : Prop} [Decidable condition] (good : ¬bad e)
    : Avoids bad (Foundation.ensure condition e) := by
  intro e' failed
  rw [← (ensure_eq_error.mp failed).2]
  exact good

theorem okOr {found : Option α} (good : ¬bad e) : Avoids bad (Foundation.okOr found e) := by
  intro e' failed
  rw [← (okOr_eq_error.mp failed).2]
  exact good

theorem bind {x : Except ε α} {f : α → Except ε β} (first : Avoids bad x)
    (later : ∀ a, Avoids bad (f a))
    : Avoids bad (x >>= f) := by
  intro e failed
  rcases bind_eq_error.mp failed with here | ⟨a, -, there⟩
  · exact first e here
  · exact later a e there

end Avoids

/-- A computation succeeds with a value that passes a test. -/
def okAnd (x : Except ε α) (test : α → Bool) : Bool :=
  match x with
  | .ok a => test a
  | .error _ => false

theorem exists_ok_of_okAnd {test : α → Bool} (passes : okAnd x test) : ∃ a, x = .ok a ∧ test a := by
  cases x with
  | ok a => exact ⟨a, rfl, passes⟩
  | error e => cases passes

/-- Run a read-only check inside a stateful computation. -/
def check (x : Except ε α) : EStateM ε σ α :=
  fun s =>
    match x with
    | .ok a => .ok a s
    | .error e => .error e s

/-- A failed run leaves the state it started from. -/
def Atomic (x : EStateM ε σ α) : Prop :=
  ∀ s e s', x s = .error e s' → s' = s

/-- The state after a run, whether it succeeded or not. -/
def stateAfter : EStateM.Result ε σ α → σ
  | .ok _ s => s
  | .error _ s => s

/-- The value or the error of a run, without the state it leaves. -/
def valueAfter : EStateM.Result ε σ α → Except ε α
  | .ok a _ => .ok a
  | .error e _ => .error e

/-- The error of a run that failed. -/
def errorAfter : EStateM.Result ε σ α → Option ε
  | .ok _ _ => none
  | .error e _ => some e

/-- The state after a successful run. -/
def outcome : EStateM.Result ε σ α → Option σ
  | .ok _ s => some s
  | .error _ _ => none

@[simp] theorem outcome_eq_some : outcome r = some s ↔ r = .ok () s := by
  cases r <;> simp [outcome]

theorem eq_ok_of_isSome (succeeded : (outcome r).isSome) : r = .ok () (stateAfter r) := by
  cases r with
  | ok _ _ => rfl
  | error _ _ => cases succeeded

theorem result_eq_error {r : EStateM.Result ε σ α}
    : r = .error e s ↔ valueAfter r = .error e ∧ stateAfter r = s := by
  cases r <;> simp [valueAfter, stateAfter]

/-- Running a check and continuing depends on the check's verdict alone. -/
theorem check_bind
    : (check x >>= f) s
      = match x with
        | .ok a => f a s
        | .error e => .error e s := by
  cases x <;> rfl

theorem get_bind {f : σ → EStateM ε σ β} : (get >>= f) s = f s s :=
  rfl

theorem modify_bind {f : Unit → EStateM ε σ β}
    : ((modify g : EStateM ε σ Unit) >>= f) s = f () (g s) :=
  rfl

theorem modify_run : (modify g : EStateM ε σ Unit) s = .ok () (g s) :=
  rfl

/-- A stateful sequence succeeds exactly when both parts do, in turn. -/
theorem bind_run_ok {x : EStateM ε σ α}
    : (x >>= f) s = .ok b t ↔ ∃ a mid, x s = .ok a mid ∧ f a mid = .ok b t := by
  simp only [bind, EStateM.bind]
  cases x s <;> simp

/-- A stateful sequence fails in its first part or in its second. -/
theorem bind_run_error {x : EStateM ε σ α}
    : (x >>= f) s = .error e t
      ↔ x s = .error e t ∨ ∃ a mid, x s = .ok a mid ∧ f a mid = .error e t := by
  simp only [bind, EStateM.bind]
  cases x s <;> simp

theorem bind_run_of_ok {x : EStateM ε σ α} (ran : x s = .ok a mid) : (x >>= f) s = f a mid := by
  simp only [bind, EStateM.bind, ran]

theorem bind_run_of_error {x : EStateM ε σ α} (failed : x s = .error e mid)
    : (x >>= f) s = .error e mid := by
  simp only [bind, EStateM.bind, failed]

/-- `x` decides by `verdict` alone, before it writes: a rejected run changes nothing and an
accepted one ends in `next`.
-/
structure Planned (x : EStateM ε σ Unit) (verdict : σ → Except ε α) (next : α → σ → σ)
    : Prop where
  rejects : ∀ {s e}, verdict s = .error e → x s = .error e s
  accepts : ∀ {s a}, verdict s = .ok a → x s = .ok () (next a s)

namespace Planned

variable {x : EStateM ε σ Unit} {verdict : σ → Except ε α} {next : α → σ → σ} {s s' : σ}

theorem atomic (planned : Planned x verdict next) : Atomic x := by
  intro s e s' failed
  cases decided : verdict s with
  | error _ =>
      rw [planned.rejects decided] at failed
      cases failed
      rfl
  | ok _ =>
      rw [planned.accepts decided] at failed
      cases failed

theorem error_iff (planned : Planned x verdict next) {e : ε}
    : x s = .error e s' ↔ verdict s = .error e ∧ s' = s := by
  constructor
  · intro failed
    cases decided : verdict s with
    | error e' =>
        rw [planned.rejects decided] at failed
        cases failed
        exact ⟨rfl, rfl⟩
    | ok a =>
        rw [planned.accepts decided] at failed
        cases failed
  · rintro ⟨decided, rfl⟩
    exact planned.rejects decided

theorem ok_iff (planned : Planned x verdict next)
    : x s = .ok () s' ↔ ∃ a, verdict s = .ok a ∧ next a s = s' := by
  constructor
  · intro ran
    cases decided : verdict s with
    | error _ =>
        rw [planned.rejects decided] at ran
        cases ran
    | ok a =>
        rw [planned.accepts decided] at ran
        cases ran
        exact ⟨a, rfl, rfl⟩
  · rintro ⟨a, decided, rfl⟩
    exact planned.accepts decided

end Planned

/-- A run never leaves an invariant, whether it succeeds or not. -/
def Keeps (inv : σ → Prop) (x : EStateM ε σ α) : Prop :=
  ∀ s, inv s → inv (stateAfter (x s))

section Keeps

variable {inv : σ → Prop} {x : EStateM ε σ α}

theorem keeps_check (x : Except ε α) : Keeps inv (check x : EStateM ε σ α) := by
  intro s holds
  cases x <;> exact holds

theorem Keeps.bind {f : α → EStateM ε σ β} (first : Keeps inv x) (later : ∀ a, Keeps inv (f a))
    : Keeps inv (x >>= f) := by
  intro s holds
  have mid := first s holds
  simp only [Bind.bind, EStateM.bind]
  cases ran : x s with
  | ok a t =>
      rw [ran] at mid
      exact later a t mid
  | error e t =>
      rw [ran] at mid
      exact mid

theorem Keeps.adaptExcept {ε' : Type} (kept : Keeps inv x) (f : ε → ε')
    : Keeps inv (EStateM.adaptExcept f x) := by
  intro s holds
  have after := kept s holds
  simp only [EStateM.adaptExcept]
  cases ran : x s with
  | ok a t => rwa [ran] at after
  | error e t => rwa [ran] at after

theorem Keeps.forM {xs : List β} {f : β → EStateM ε σ Unit} (kept : ∀ x, Keeps inv (f x))
    : Keeps inv (xs.forM f) := by
  induction xs with
  | nil => exact fun s holds => holds
  | cons x rest ih => exact (kept x).bind fun _ => ih

end Keeps

/-- From related states a run gives the same value, and leaves related states. -/
def Respects (R : σ → σ → Prop) (x : EStateM ε σ α) : Prop :=
  ∀ s t, R s t
    → valueAfter (x s) = valueAfter (x t) ∧ R (stateAfter (x s)) (stateAfter (x t))

theorem Respects.pure (a : α) : Respects R (pure a : EStateM ε σ α) :=
  fun _ _ related => ⟨rfl, related⟩

theorem Respects.bind {x : EStateM ε σ α} (first : Respects R x) (later : ∀ a, Respects R (f a))
    : Respects R (x >>= f) := by
  intro s t related
  obtain ⟨same, between⟩ := first s t related
  simp only [Bind.bind, EStateM.bind]
  cases ranLeft : x s <;> cases ranRight : x t <;>
    simp only [ranLeft, ranRight, valueAfter, stateAfter, Except.ok.injEq, Except.error.injEq,
      reduceCtorEq] at same between ⊢
  · subst same
    exact later _ _ _ between
  · exact ⟨same, between⟩

end Foundation
