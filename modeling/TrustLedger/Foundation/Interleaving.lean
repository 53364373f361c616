import TrustLedger.Foundation.Guarded
import TrustLedger.Foundation.Tasks

/-! Tasks served side by side. Requests arrive at any time, and any request whose locks are free
takes its next step. A protocol abstracts the tasks: it gives each request a stage and says what an
access may do at it. If every task follows the protocol, what the protocol preserves holds in every
interleaving.
-/

namespace Foundation

/-- Which locks exclude each other. -/
structure Locking (κ : Type) where
  conflict : κ → κ → Bool
  symm : ∀ a b, conflict a b = conflict b a

/-- Each lock excludes itself only. -/
def Locking.exclusive (κ : Type) [DecidableEq κ] : Locking κ where
  conflict a b := decide (a = b)
  symm a b := by simp [eq_comm]

/-- A reader-writer lock on a field, taken one way or the other. -/
inductive RwLock (κ : Type) where
  | read (field : κ)
  | write (field : κ)
  deriving DecidableEq, Repr

def RwLock.field {κ : Type} : RwLock κ → κ
  | .read field | .write field => field

def RwLock.isWrite {κ : Type} : RwLock κ → Bool
  | .read _ => false
  | .write _ => true

/-- Readers of a field exclude its writer, and writers exclude each other. -/
def Locking.readWrite (κ : Type) [DecidableEq κ] : Locking (RwLock κ) where
  conflict a b := decide (a.field = b.field) && (a.isWrite || b.isWrite)
  symm a b := by rw [Bool.or_comm, decide_eq_decide.mpr eq_comm]

/-- A request being served: what is left of its task, and the locks it holds. -/
structure Thread (κ σ ε α ρ : Type) where
  request : ρ
  rest : Task κ σ ε α
  held : List κ

/-- An access that has taken place. -/
structure Access (κ σ ρ : Type) where
  thread : Nat
  request : ρ
  locks : List κ
  update : σ → σ
  before : σ

def Access.after {κ σ ρ : Type} (access : Access κ σ ρ) : σ :=
  access.update access.before

/-- The shared state, the requests in the order they arrived, and the accesses so far. -/
structure Pool (κ σ ε α ρ : Type) where
  state : σ
  threads : List (Thread κ σ ε α ρ)
  log : List (Access κ σ ρ)

/-- What a schedule is made of. -/
inductive Event (ρ : Type) where
  | arrive (request : ρ)
  | advance (thread : Nat)

/-- The task has answered. -/
def Task.isOver {κ σ ε α : Type} : Task κ σ ε α → Bool
  | .done _ | .fail _ => true
  | .access .. | .acquire .. | .release .. => false

namespace Pool

variable {κ σ ε α ρ : Type} [DecidableEq κ] (locking : Locking κ) (serve : ρ → Task κ σ ε α)

/-- No request has arrived yet. -/
def start (s : σ) : Pool κ σ ε α ρ :=
  ⟨s, [], []⟩

/-- No other request holds a lock that excludes the given ones. -/
def mayTake (p : Pool κ σ ε α ρ) (thread : Nat) (locks : List κ) : Bool :=
  p.threads.zipIdx.all fun (other, index) =>
    index == thread || locks.all fun lock => other.held.all fun held => !locking.conflict lock held

/-- The next step of a request. It waits while its locks are taken. -/
def advance (p : Pool κ σ ε α ρ) (thread : Nat) : Pool κ σ ε α ρ :=
  match p.threads[thread]? with
  | none => p
  | some t =>
      match t.rest with
      | .done _ | .fail _ => p
      | .access locks update next =>
          if p.mayTake locking thread locks then
            {
              state := update p.state
              threads := p.threads.set thread { t with rest := next p.state }
              log := p.log ++ [⟨thread, t.request, locks, update, p.state⟩]
            }
          else p
      | .acquire lock rest =>
          if p.mayTake locking thread [lock] then
            { p with threads := p.threads.set thread { t with rest, held := lock :: t.held } }
          else p
      | .release lock rest =>
          { p with threads := p.threads.set thread { t with rest, held := t.held.erase lock } }

def step (p : Pool κ σ ε α ρ) : Event ρ → Pool κ σ ε α ρ
  | .arrive request => { p with threads := p.threads ++ [⟨request, serve request, []⟩] }
  | .advance thread => p.advance locking thread

/-- The pool after a schedule. -/
def run (p : Pool κ σ ε α ρ) (events : List (Event ρ)) : Pool κ σ ε α ρ :=
  events.foldl (step locking serve) p

variable {locking}

omit [DecidableEq κ] in
theorem mayTake_eq_true {p : Pool κ σ ε α ρ} {thread : Nat} {locks : List κ}
    : p.mayTake locking thread locks = true
      ↔ ∀ (index : Nat) (other : Thread κ σ ε α ρ), p.threads[index]? = some other
        → index ≠ thread → ∀ lock ∈ locks, ∀ held ∈ other.held,
          locking.conflict lock held = false := by
  simp only [mayTake, List.all_eq_true, Bool.or_eq_true, beq_iff_eq, Bool.not_eq_true',
    Prod.forall, List.mk_mem_zipIdx_iff_getElem?]
  constructor
  · intro all index other found differs
    exact (all other index found).resolve_left differs
  · intro all other index found
    by_cases same : index = thread
    · exact .inl same
    · exact .inr (all index other found same)

end Pool

/-- An abstraction of tasks. At its stage a request may take an access with the given locks and
update, in the given state; some locks must be held at a stage. Before a lock is given back, a
stage may be abandoned.
-/
structure Protocol (κ σ ρ L : Type) where
  act : ρ → List κ → (σ → σ) → σ → L → L → Prop
  needs : L → κ → Prop
  abandon : L → L → Prop

namespace Task

variable {κ σ ε α β ρ L : Type} [DecidableEq κ] {protocol : Protocol κ σ ρ L} {request : ρ}
  {x : Task κ σ ε α} {held : List κ} {stage : L} {Q : Except ε α → List κ → L → Prop} {lock : κ}

/-- A task keeps to the protocol whatever state it finds at each access, and ends as `Q` says. -/
def Follows (protocol : Protocol κ σ ρ L) (request : ρ) (x : Task κ σ ε α) (held : List κ)
    (stage : L) (Q : Except ε α → List κ → L → Prop)
    : Prop :=
  match x with
  | .done value => Q (.ok value) held stage
  | .fail error => Q (.error error) held stage
  | .access locks update next =>
      ∀ s, ∃ stage', protocol.act request locks update s stage stage'
        ∧ (∀ lock, protocol.needs stage' lock → lock ∈ held)
        ∧ (next s).Follows protocol request held stage' Q
  | .acquire lock rest => rest.Follows protocol request (lock :: held) stage Q
  | .release lock rest =>
      ∃ stage', protocol.abandon stage stage'
        ∧ (∀ needed, protocol.needs stage' needed → needed ∈ held.erase lock)
        ∧ rest.Follows protocol request (held.erase lock) stage' Q

theorem Follows.mono {R : Except ε α → List κ → L → Prop}
    (follows : x.Follows protocol request held stage Q)
    (weaker : ∀ r held' stage', Q r held' stage' → R r held' stage')
    : x.Follows protocol request held stage R := by
  induction x generalizing held stage with
  | done value => exact weaker _ _ _ follows
  | fail error => exact weaker _ _ _ follows
  | access locks update next ih =>
      intro s
      obtain ⟨stage', act, needs, later⟩ := follows s
      exact ⟨stage', act, needs, ih s later⟩
  | acquire lock rest ih => exact ih follows
  | release lock rest ih =>
      obtain ⟨stage', abandons, needs, later⟩ := follows
      exact ⟨stage', abandons, needs, ih later⟩

/-- A sequence follows the protocol if its second part does from wherever the first ends. -/
theorem follows_bind {f : α → Task κ σ ε β} {Q : Except ε β → List κ → L → Prop}
    : (x >>= f).Follows protocol request held stage Q
      ↔ x.Follows protocol request held stage fun r held' stage' =>
          match r with
          | .ok value => (f value).Follows protocol request held' stage' Q
          | .error error => Q (.error error) held' stage' := by
  change (x.bind f).Follows protocol request held stage Q ↔ _
  induction x generalizing held stage with
  | done value => exact Iff.rfl
  | fail error => exact Iff.rfl
  | access locks update next ih =>
      refine forall_congr' fun s => exists_congr fun stage' => ?_
      exact and_congr_right fun _ => and_congr_right fun _ => ih s
  | acquire lock rest ih => exact ih
  | release lock rest ih =>
      refine exists_congr fun stage' => ?_
      exact and_congr_right fun _ => and_congr_right fun _ => ih

theorem follows_update {locks : List κ} {f : σ → α × σ}
    : (update locks f : Task κ σ ε α).Follows protocol request held stage Q
      ↔ ∀ s, ∃ stage', protocol.act request locks (fun s => (f s).2) s stage stage'
          ∧ (∀ lock, protocol.needs stage' lock → lock ∈ held)
          ∧ Q (.ok (f s).1) held stage' :=
  Iff.rfl

theorem follows_releasing
    : (x.releasing lock).Follows protocol request held stage Q
      ↔ x.Follows protocol request held stage fun r held' stage' =>
          ∃ stage'', protocol.abandon stage' stage''
            ∧ (∀ needed, protocol.needs stage'' needed → needed ∈ held'.erase lock)
            ∧ Q r (held'.erase lock) stage'' := by
  induction x generalizing held stage with
  | done value => exact Iff.rfl
  | fail error => exact Iff.rfl
  | access locks update next ih =>
      refine forall_congr' fun s => exists_congr fun stage' => ?_
      exact and_congr_right fun _ => and_congr_right fun _ => ih s
  | acquire other rest ih => exact ih
  | release other rest ih =>
      refine exists_congr fun stage' => ?_
      exact and_congr_right fun _ => and_congr_right fun _ => ih

/-- A task that holds a lock throughout, and ends with the locks it started with. -/
theorem Follows.holding
    (follows : x.Follows protocol request (lock :: held) stage fun r held' stage' =>
      held' = lock :: held ∧ ∃ stage'', protocol.abandon stage' stage''
        ∧ (∀ needed, protocol.needs stage'' needed → needed ∈ held)
        ∧ Q r held stage'')
    : (Task.holding lock x).Follows protocol request held stage Q := by
  refine follows_releasing.mpr (follows.mono fun r held' stage' ends => ?_)
  obtain ⟨rfl, stage'', abandons, needs, answers⟩ := ends
  rw [List.erase_cons_head]
  exact ⟨stage'', abandons, needs, answers⟩

end Task

namespace Pool

variable {κ σ ε α ρ L : Type} [DecidableEq κ] {locking : Locking κ}
  {protocol : Protocol κ σ ρ L} {Q : ρ → Except ε α → L → Prop} {serve : ρ → Task κ σ ε α}
  {enter : ρ → L} {guard : Pool κ σ ε α ρ → Event ρ → Prop}
  {inv : Pool κ σ ε α ρ → List (ρ × L) → Prop}

/-- A request follows the protocol from a stage, and holds the locks it needs there. -/
structure At (protocol : Protocol κ σ ρ L) (Q : ρ → Except ε α → L → Prop)
    (t : Thread κ σ ε α ρ) (row : ρ × L)
    : Prop where
  request : row.1 = t.request
  follows : t.rest.Follows protocol t.request t.held row.2 fun r _ => Q t.request r
  needs : ∀ lock, protocol.needs row.2 lock → lock ∈ t.held

/-- Every request of the pool is at a stage of the protocol, and no two hold locks that exclude
each other. The stages are listed with their requests.
-/
structure Tracked (locking : Locking κ) (protocol : Protocol κ σ ρ L)
    (Q : ρ → Except ε α → L → Prop) (p : Pool κ σ ε α ρ) (rows : List (ρ × L))
    : Prop where
  length : rows.length = p.threads.length
  located
    : ∀ {i : Nat} {t : Thread κ σ ε α ρ} {row : ρ × L}, p.threads[i]? = some t
      → rows[i]? = some row → At protocol Q t row
  exclusive
    : ∀ {i j : Nat} {t u : Thread κ σ ε α ρ}, i ≠ j → p.threads[i]? = some t
      → p.threads[j]? = some u
      → ∀ lock ∈ t.held, ∀ held ∈ u.held, locking.conflict lock held = false

/-- What the locks keep apart when a request takes an access and moves to a stage: no lock that
another request needs is excluded by the access or by the new stage.
-/
def Apart (locking : Locking κ) (protocol : Protocol κ σ ρ L) (rows : List (ρ × L)) (i : Nat)
    (locks : List κ) (stage' : L)
    : Prop :=
  ∀ (j : Nat) (other : ρ × L), j ≠ i → rows[j]? = some other
    → ∀ needed, protocol.needs other.2 needed
      → (∀ lock ∈ locks, locking.conflict lock needed = false)
        ∧ ∀ lock, protocol.needs stage' lock → locking.conflict lock needed = false

/-- Every request holds the locks that its stage needs. -/
def Held (protocol : Protocol κ σ ρ L) (p : Pool κ σ ε α ρ) (rows : List (ρ × L)) : Prop :=
  ∀ (i : Nat) (row : ρ × L), rows[i]? = some row
    → ∃ t, p.threads[i]? = some t ∧ ∀ lock, protocol.needs row.2 lock → lock ∈ t.held

/-- An invariant of pools and stages that guarded arrivals and steps preserve. -/
structure Preserved (locking : Locking κ) (protocol : Protocol κ σ ρ L)
    (serve : ρ → Task κ σ ε α) (enter : ρ → L) (guard : Pool κ σ ε α ρ → Event ρ → Prop)
    (inv : Pool κ σ ε α ρ → List (ρ × L) → Prop)
    : Prop where
  arrive
    : ∀ {p : Pool κ σ ε α ρ} {rows : List (ρ × L)} (request : ρ),
      rows.length = p.threads.length → inv p rows → guard p (.arrive request)
      → inv { p with threads := p.threads ++ [⟨request, serve request, []⟩] }
          (rows ++ [(request, enter request)])
  access
    : ∀ {p : Pool κ σ ε α ρ} {rows : List (ρ × L)} {i : Nat} {t : Thread κ σ ε α ρ}
        {locks : List κ} {update : σ → σ} {next : σ → Task κ σ ε α} {stage stage' : L},
      inv p rows → guard p (.advance i) → p.threads[i]? = some t
      → t.rest = .access locks update next → rows[i]? = some (t.request, stage)
      → protocol.act t.request locks update p.state stage stage'
      → Apart locking protocol rows i locks stage' → Held protocol p rows
      → inv
          {
            state := update p.state
            threads := p.threads.set i { t with rest := next p.state }
            log := p.log ++ [⟨i, t.request, locks, update, p.state⟩]
          }
          (rows.set i (t.request, stage'))
  lock
    : ∀ {p : Pool κ σ ε α ρ} {rows : List (ρ × L)} {i : Nat} {t : Thread κ σ ε α ρ}
        {rest : Task κ σ ε α} {held : List κ} {stage stage' : L},
      inv p rows → p.threads[i]? = some t → t.rest.isOver = false
      → rows[i]? = some (t.request, stage) → stage' = stage ∨ protocol.abandon stage stage'
      → inv { p with threads := p.threads.set i { t with rest, held } }
          (rows.set i (t.request, stage'))

theorem tracked_start (s : σ) : (start s : Pool κ σ ε α ρ).Tracked locking protocol Q [] where
  length := rfl
  located found := by cases found
  exclusive _ found := by cases found

section Lists

variable {β : Type} {xs : List β} {i j : Nat} {x y : β}

theorem getElem?_set_cases (found : (xs.set i x)[j]? = some y)
    : (j = i ∧ y = x) ∨ (j ≠ i ∧ xs[j]? = some y) := by
  rw [List.getElem?_set] at found
  split at found
  · rename_i same
    split at found
    · cases found
      exact .inl ⟨same.symm, rfl⟩
    · cases found
  · rename_i differs
    exact .inr ⟨Ne.symm differs, found⟩

theorem getElem?_snoc_cases (found : (xs ++ [x])[j]? = some y)
    : (j < xs.length ∧ xs[j]? = some y) ∨ (j = xs.length ∧ y = x) := by
  rcases Nat.lt_trichotomy j xs.length with early | same | late
  · rw [List.getElem?_append_left early] at found
    exact .inl ⟨early, found⟩
  · subst same
    rw [List.getElem?_concat_length] at found
    cases found
    exact .inr ⟨rfl, rfl⟩
  · rw [List.getElem?_eq_none (by simp; omega)] at found
    cases found

theorem set_of_getElem? (found : xs[i]? = some x) : xs.set i x = xs := by
  obtain ⟨within, rfl⟩ := List.getElem?_eq_some_iff.mp found
  exact List.set_getElem_self within

end Lists

section Tracked

variable {p : Pool κ σ ε α ρ} {rows : List (ρ × L)} {i : Nat} {t t' : Thread κ σ ε α ρ}
  {row : ρ × L} {stage' : L}

theorem Tracked.arrive (tracked : p.Tracked locking protocol Q rows) {request : ρ}
    (enters : At protocol Q ⟨request, serve request, []⟩ (request, enter request))
    : Tracked locking protocol Q
        { p with threads := p.threads ++ [⟨request, serve request, []⟩] }
        (rows ++ [(request, enter request)]) where
  length := by simp [tracked.length]
  located {i t row} found there := by
    have same := tracked.length
    rcases getElem?_snoc_cases found with ⟨early, old⟩ | ⟨last, rfl⟩
    · rcases getElem?_snoc_cases there with ⟨-, before⟩ | ⟨beyond, -⟩
      · exact tracked.located old before
      · omega
    · rcases getElem?_snoc_cases there with ⟨early, -⟩ | ⟨-, rfl⟩
      · omega
      · exact enters
  exclusive {i j t u} differs found found' lock held lock' held' := by
    rcases getElem?_snoc_cases found with ⟨-, old⟩ | ⟨-, rfl⟩
    · rcases getElem?_snoc_cases found' with ⟨-, old'⟩ | ⟨-, rfl⟩
      · exact tracked.exclusive differs old old' lock held lock' held'
      · cases held'
    · cases held

/-- One request moves to a new stage with locks that nobody else's exclude. -/
theorem Tracked.set (tracked : p.Tracked locking protocol Q rows) (moved : At protocol Q t' row)
    (free : ∀ (j : Nat) (other : Thread κ σ ε α ρ), p.threads[j]? = some other → j ≠ i
      → ∀ lock ∈ t'.held, ∀ held ∈ other.held, locking.conflict lock held = false)
    (s : σ) (log : List (Access κ σ ρ))
    : Tracked locking protocol Q ⟨s, p.threads.set i t', log⟩ (rows.set i row) where
  length := by simp [tracked.length]
  located {j u other} found there := by
    rcases getElem?_set_cases found with ⟨here, rfl⟩ | ⟨differs, old⟩
    · rcases getElem?_set_cases there with ⟨-, rfl⟩ | ⟨elsewhere, -⟩
      · exact moved
      · exact absurd here elsewhere
    · rcases getElem?_set_cases there with ⟨here, -⟩ | ⟨-, before⟩
      · exact absurd here differs
      · exact tracked.located old before
  exclusive {j k u v} differs found found' lock held lock' held' := by
    rcases getElem?_set_cases found with ⟨rfl, rfl⟩ | ⟨-, old⟩
    · rcases getElem?_set_cases found' with ⟨rfl, -⟩ | ⟨elsewhere, old'⟩
      · exact absurd rfl differs
      · exact free k v old' elsewhere lock held lock' held'
    · rcases getElem?_set_cases found' with ⟨rfl, rfl⟩ | ⟨-, old'⟩
      · rw [locking.symm]
        exact free j u old differs lock' held' lock held
      · exact tracked.exclusive differs old old' lock held lock' held'

/-- Locks kept or given back exclude nobody they did not exclude before. -/
theorem Tracked.free (tracked : p.Tracked locking protocol Q rows)
    (found : p.threads[i]? = some t) (fewer : t'.held ⊆ t.held)
    : ∀ (j : Nat) (other : Thread κ σ ε α ρ), p.threads[j]? = some other → j ≠ i
      → ∀ lock ∈ t'.held, ∀ held ∈ other.held, locking.conflict lock held = false :=
  fun _ _ there differs lock mem held mem' =>
    tracked.exclusive (Ne.symm differs) found there lock (fewer mem) held mem'

/-- Every request has its stage. -/
theorem Tracked.stage (tracked : p.Tracked locking protocol Q rows) (found : p.threads[i]? = some t)
    : ∃ stage, rows[i]? = some (t.request, stage) ∧ At protocol Q t (t.request, stage) := by
  have within := (List.getElem?_eq_some_iff.mp found).1
  rw [← tracked.length] at within
  have there : rows[i]? = some rows[i] := List.getElem?_eq_getElem within
  have here := tracked.located found there
  rw [there, ← here.request]
  exact ⟨rows[i].2, rfl, here⟩

theorem Tracked.holding (tracked : p.Tracked locking protocol Q rows) : Held protocol p rows := by
  intro j other there
  have within : j < p.threads.length := by
    rw [← tracked.length]
    exact (List.getElem?_eq_some_iff.mp there).1
  have thread : p.threads[j]? = some p.threads[j] := List.getElem?_eq_getElem within
  exact ⟨_, thread, (tracked.located thread there).needs⟩

theorem Tracked.apart (tracked : p.Tracked locking protocol Q rows) (found : p.threads[i]? = some t)
    {locks : List κ} (may : p.mayTake locking i locks = true)
    (needs : ∀ lock, protocol.needs stage' lock → lock ∈ t.held)
    : Apart locking protocol rows i locks stage' := by
  intro j other differs there needed needs'
  obtain ⟨u, thread, held⟩ := tracked.holding j other there
  have holds := held needed needs'
  refine ⟨fun lock listed => mayTake_eq_true.mp may j u thread differs lock listed needed holds,
    fun lock needs'' => ?_⟩
  exact tracked.exclusive (Ne.symm differs) found thread lock (needs lock needs'') needed holds

variable (preserved : Preserved locking protocol serve enter guard inv)
  (enters : ∀ request, At protocol Q ⟨request, serve request, []⟩ (request, enter request))
  (tracked : p.Tracked locking protocol Q rows) (holds : inv p rows)

include preserved enters tracked holds

/-- What guarded arrivals and steps preserve, they preserve together with the stages. -/
theorem Preserved.step {event : Event ρ} (ok : guard p event)
    : ∃ rows', (p.step locking serve event).Tracked locking protocol Q rows'
        ∧ inv (p.step locking serve event) rows' := by
  cases event with
  | arrive request =>
      exact ⟨_, tracked.arrive (enters request),
        preserved.arrive request tracked.length holds ok⟩
  | advance i =>
      dsimp only [Pool.step, Pool.advance]
      split
      · exact ⟨rows, tracked, holds⟩
      · rename_i t found
        obtain ⟨stage, there, -, follows, needs⟩ := tracked.stage found
        split
        · exact ⟨rows, tracked, holds⟩
        · exact ⟨rows, tracked, holds⟩
        · rename_i locks update next rest
          split
          · rename_i may
            rw [rest] at follows
            obtain ⟨stage', act, needs', later⟩ := follows p.state
            refine ⟨rows.set i (t.request, stage'), ?_, ?_⟩
            · have moved : At protocol Q { t with rest := next p.state } (t.request, stage') :=
                ⟨rfl, later, needs'⟩
              exact tracked.set moved (tracked.free found (List.Subset.refl _)) _ _
            · exact preserved.access holds ok found rest there act
                (tracked.apart found may needs') tracked.holding
          · exact ⟨rows, tracked, holds⟩
        · rename_i lock rest' rest
          split
          · rename_i may
            rw [rest] at follows
            refine ⟨rows.set i (t.request, stage), tracked.set ⟨rfl, follows, ?_⟩ ?_ _ _, ?_⟩
            · exact fun needed needs' => List.mem_cons_of_mem _ (needs needed needs')
            · intro j other there' differs lock' mem held mem'
              rcases List.mem_cons.mp mem with rfl | old
              · exact mayTake_eq_true.mp may j other there' differs lock'
                  (List.mem_singleton_self _) held mem'
              · exact tracked.exclusive (Ne.symm differs) found there' lock' old held mem'
            · exact preserved.lock holds found (by rw [rest]; rfl) there (.inl rfl)
          · exact ⟨rows, tracked, holds⟩
        · rename_i lock rest' rest
          rw [rest] at follows
          obtain ⟨stage', abandons, needs', later⟩ := follows
          refine ⟨rows.set i (t.request, stage'), ?_, ?_⟩
          · exact tracked.set ⟨rfl, later, needs'⟩ (tracked.free found List.erase_subset) _ _
          · exact preserved.lock holds found (by rw [rest]; rfl) there (.inr abandons)

/-- If every task follows the protocol, what guarded steps preserve holds throughout every guarded
schedule.
-/
theorem Preserved.throughout {events : List (Event ρ)}
    (guarded : Guarded (Pool.step locking serve) guard p events)
    : Throughout (Pool.step locking serve)
        (fun p => ∃ rows, p.Tracked locking protocol Q rows ∧ inv p rows) p events := by
  refine guarded.throughout (fun p event known ok => ?_) ⟨rows, tracked, holds⟩
  obtain ⟨rows, tracked, holds⟩ := known
  exact preserved.step enters tracked holds ok

end Tracked

end Pool

section Effects

variable {κ σ ρ L ι : Type} {effect : ι → Access κ σ ρ → Prop} {did : Access κ σ ρ → Prop}
  {since : L → Bool} {log : List (Access κ σ ρ)} {rows : List (ρ × L)} {i : Nat}
  {request : ρ} {locks : List κ} {update : σ → σ} {s : σ} {stage stage' : L}

/-- Effects that a request has at most once, when it passes into the stages `since`. -/
structure Marked (effect : ι → Access κ σ ρ → Prop) (since : L → Bool)
    (log : List (Access κ σ ρ)) (rows : List (ρ × L))
    : Prop where
  staged
    : ∀ {n : Nat} {a : Access κ σ ρ} {x : ι}, log[n]? = some a → effect x a
      → ∃ stage, rows[a.thread]? = some (a.request, stage) ∧ since stage = true
  once
    : ∀ {n m : Nat} {a b : Access κ σ ρ} {x y : ι}, log[n]? = some a → log[m]? = some b
      → a.thread = b.thread → effect x a → effect y b → n = m ∧ x = y

theorem marked_nil : Marked effect since [] rows where
  staged found := by cases found
  once found := by cases found

theorem Marked.arrive (marked : Marked effect since log rows) (row : ρ × L)
    : Marked effect since log (rows ++ [row]) where
  staged found has := by
    obtain ⟨stage, there, passed⟩ := marked.staged found has
    have within := (List.getElem?_eq_some_iff.mp there).1
    exact ⟨stage, by rwa [List.getElem?_append_left within], passed⟩
  once := marked.once

theorem Marked.access (marked : Marked effect since log rows)
    (there : rows[i]? = some (request, stage)) (stays : since stage = true → since stage' = true)
    (enters : ∀ x, effect x ⟨i, request, locks, update, s⟩
      → since stage = false ∧ since stage' = true)
    (single : ∀ x y, effect x ⟨i, request, locks, update, s⟩
      → effect y ⟨i, request, locks, update, s⟩ → x = y)
    : Marked effect since (log ++ [⟨i, request, locks, update, s⟩])
        (rows.set i (request, stage')) := by
  have within := (List.getElem?_eq_some_iff.mp there).1
  have passed {n : Nat} {a : Access κ σ ρ} {x : ι} (found : log[n]? = some a) (has : effect x a)
      (same : a.thread = i)
      : a.request = request ∧ since stage = true := by
    obtain ⟨old, at_old, passed⟩ := marked.staged found has
    rw [same, there] at at_old
    obtain ⟨request, rfl⟩ := Prod.mk.inj (Option.some.inj at_old)
    exact ⟨request.symm, passed⟩
  constructor
  · intro n a x found has
    rcases Pool.getElem?_snoc_cases found with ⟨-, old⟩ | ⟨-, rfl⟩
    · by_cases same : a.thread = i
      · obtain ⟨request, earlier⟩ := passed old has same
        refine ⟨stage', ?_, stays earlier⟩
        rw [same, request]
        exact List.getElem?_set_self within
      · rw [List.getElem?_set_ne (Ne.symm same)]
        exact marked.staged old has
    · exact ⟨stage', List.getElem?_set_self within, (enters x has).2⟩
  · intro n m a b x y found found' same has has'
    -- an old effect of the same request would put it past the stage it is only entering now
    rcases Pool.getElem?_snoc_cases found with ⟨-, old⟩ | ⟨here, rfl⟩
    · rcases Pool.getElem?_snoc_cases found' with ⟨-, old'⟩ | ⟨-, rfl⟩
      · exact marked.once old old' same has has'
      · exact absurd (passed old has same).2 (by simp [(enters y has').1])
    · rcases Pool.getElem?_snoc_cases found' with ⟨-, old'⟩ | ⟨here', rfl⟩
      · exact absurd (passed old' has' same.symm).2 (by simp [(enters x has).1])
      · exact ⟨here.trans here'.symm, single x y has has'⟩

/-- A request that has come as far as `since` has done something. -/
def Logged (did : Access κ σ ρ → Prop) (since : L → Bool) (log : List (Access κ σ ρ))
    (rows : List (ρ × L))
    : Prop :=
  ∀ (i : Nat) (request : ρ) (stage : L), rows[i]? = some (request, stage) → since stage = true
    → ∃ a ∈ log, a.thread = i ∧ did a

theorem Logged.arrive (logged : Logged did since log rows) {row : ρ × L} (new : since row.2 = false)
    : Logged did since log (rows ++ [row]) := by
  intro i request stage found passed
  rcases Pool.getElem?_snoc_cases found with ⟨-, old⟩ | ⟨-, rfl⟩
  · exact logged i request stage old passed
  · exact absurd passed (by simp [new])

theorem Logged.access (logged : Logged did since log rows)
    (there : rows[i]? = some (request, stage))
    (enters : since stage' = true → since stage = true ∨ did ⟨i, request, locks, update, s⟩)
    : Logged did since (log ++ [⟨i, request, locks, update, s⟩])
        (rows.set i (request, stage')) := by
  have kept {j : Nat} (earlier : ∃ a ∈ log, a.thread = j ∧ did a)
      : ∃ a ∈ log ++ [⟨i, request, locks, update, s⟩], a.thread = j ∧ did a := by
    obtain ⟨a, mem, facts⟩ := earlier
    exact ⟨a, List.mem_append_left _ mem, facts⟩
  intro j other stage'' found passed
  rcases Pool.getElem?_set_cases found with ⟨rfl, same⟩ | ⟨-, old⟩
  · cases same
    rcases enters passed with before | now
    · exact kept (logged _ _ _ there before)
    · exact ⟨_, List.mem_append_right _ (List.mem_singleton_self _), rfl, now⟩
  · exact kept (logged j other stage'' old passed)

end Effects

end Foundation
