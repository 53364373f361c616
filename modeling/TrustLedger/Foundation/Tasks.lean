import TrustLedger.Foundation.Fallible

/-! Request handlers as sequences of accesses to a shared state. An access is one atomic step and
names the locks it takes; a lock held over several accesses is taken and given back by steps of its
own. `run` is a handler that nobody interrupts.
-/

namespace Foundation

/-- A handler over states `σ` with locks `κ`, failing with `ε`. -/
inductive Task (κ σ ε α : Type) : Type where
  | done (value : α)
  | fail (error : ε)
  /-- Update the state, and go on according to the state before. -/
  | access (locks : List κ) (update : σ → σ) (next : σ → Task κ σ ε α)
  | acquire (lock : κ) (rest : Task κ σ ε α)
  | release (lock : κ) (rest : Task κ σ ε α)

namespace Task

variable {κ σ ε ε' α β : Type}

def bind (x : Task κ σ ε α) (f : α → Task κ σ ε β) : Task κ σ ε β :=
  match x with
  | .done value => f value
  | .fail error => .fail error
  | .access locks update next => .access locks update fun s => (next s).bind f
  | .acquire lock rest => .acquire lock (rest.bind f)
  | .release lock rest => .release lock (rest.bind f)

instance : Monad (Task κ σ ε) where
  pure := .done
  bind := Task.bind

/-- Read the state and write it back changed. -/
def update (locks : List κ) (f : σ → α × σ) : Task κ σ ε α :=
  .access locks (fun s => (f s).2) fun s => .done (f s).1

/-- Give a lock back at the end, however it ends. -/
def releasing (lock : κ) : Task κ σ ε α → Task κ σ ε α
  | .done value => .release lock (.done value)
  | .fail error => .release lock (.fail error)
  | .access locks update next => .access locks update fun s => (next s).releasing lock
  | .acquire other rest => .acquire other (rest.releasing lock)
  | .release other rest => .release other (rest.releasing lock)

/-- Hold a lock throughout. -/
def holding (lock : κ) (body : Task κ σ ε α) : Task κ σ ε α :=
  .acquire lock (body.releasing lock)

/-- The handler alone, with every lock free. -/
def run : Task κ σ ε α → EStateM ε σ α
  | .done value, s => .ok value s
  | .fail error, s => .error error s
  | .access _ update next, s => (next s).run (update s)
  | .acquire _ rest, s => rest.run s
  | .release _ rest, s => rest.run s

/-- What a handler that runs alone from `s` answers and leaves behind meets `Q`. -/
def Yields (x : Task κ σ ε α) (s : σ) (Q : Except ε α → σ → Prop) : Prop :=
  Q (valueAfter (x.run s)) (stateAfter (x.run s))

variable {s : σ} {Q R : Except ε α → σ → Prop}

theorem Yields.mono {x : Task κ σ ε α} (holds : x.Yields s Q) (weaker : ∀ r s', Q r s' → R r s')
    : x.Yields s R :=
  weaker _ _ holds

@[simp] theorem yields_pure {value : α}
    : (pure value : Task κ σ ε α).Yields s Q ↔ Q (.ok value) s :=
  Iff.rfl

@[simp] theorem yields_update {locks : List κ} {f : σ → α × σ}
    : (update locks f : Task κ σ ε α).Yields s Q ↔ Q (.ok (f s).1) (f s).2 :=
  Iff.rfl

theorem run_bind (x : Task κ σ ε α) (f : α → Task κ σ ε β)
    : (x >>= f).run = x.run >>= fun value => (f value).run := by
  funext s
  change (x.bind f).run s = _
  induction x generalizing s with
  | done value => rfl
  | fail error => rfl
  | access locks update next ih => exact ih s (update s)
  | acquire lock rest ih => exact ih s
  | release lock rest ih => exact ih s

/-- A sequence is judged by its second part, unless the first fails. -/
@[simp] theorem yields_bind {x : Task κ σ ε α} {f : α → Task κ σ ε β} {Q : Except ε β → σ → Prop}
    : (x >>= f).Yields s Q
      ↔ x.Yields s fun r s' =>
          match r with
          | .ok value => (f value).Yields s' Q
          | .error error => Q (.error error) s' := by
  rw [Yields, run_bind, Yields]
  simp only [Bind.bind, EStateM.bind]
  cases x.run s <;> rfl

theorem run_releasing (lock : κ) (x : Task κ σ ε α) : (x.releasing lock).run = x.run := by
  funext s
  induction x generalizing s with
  | done value => rfl
  | fail error => rfl
  | access locks update next ih => exact ih s (update s)
  | acquire other rest ih => exact ih s
  | release other rest ih => exact ih s

@[simp] theorem yields_holding {lock : κ} {x : Task κ σ ε α}
    : (holding lock x).Yields s Q ↔ x.Yields s Q := by
  rw [Yields, Yields, holding, run, run_releasing]

end Task

end Foundation
