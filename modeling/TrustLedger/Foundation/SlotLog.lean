import TrustLedger.Foundation.Guarded

/-! Replicated logs whose slots have owners. The owner of a slot may choose its content, and
choose again, until it has put it into its own log; everybody else copies what some log holds.
Each log is filled in order, from contents that are waiting. Slots are numbered from one.
-/

namespace Foundation.SlotLog

variable {κ β : Type} {log : List β} {i : Nat} {e f : β}

/-- The content of a slot of a log. -/
def slot (log : List β) : Nat → Option β
  | 0 => none
  | i + 1 => log[i]?

theorem slot_of_isPrefix {longer : List β} (grown : log <+: longer) (held : slot log i = some e)
    : slot longer i = some e := by
  cases i with
  | zero => cases held
  | succ i =>
      obtain ⟨more, rfl⟩ := grown
      obtain ⟨within, -⟩ := List.getElem?_eq_some_iff.mp held
      exact (List.getElem?_append_left within).trans held

theorem slot_append_self (log : List β) (e : β) : slot (log ++ [e]) (log.length + 1) = some e := by
  simp [slot]

theorem slot_append (held : slot (log ++ [e]) i = some f)
    : slot log i = some f ∨ i = log.length + 1 ∧ f = e := by
  cases i with
  | zero => cases held
  | succ i =>
      simp only [slot, List.getElem?_append] at held ⊢
      split at held
      · exact .inl held
      · rename_i beyond
        obtain ⟨zero, -⟩ := List.getElem?_eq_some_iff.mp held
        have last : i = log.length := by
          simp only [List.length_singleton] at zero
          omega
        subst last
        exact .inr ⟨rfl, by simpa using held.symm⟩

theorem slot_eq_none (beyond : log.length < i) : slot log i = none := by
  cases i with
  | zero => rfl
  | succ i => exact List.getElem?_eq_none (by omega)

theorem le_length_of_slot (held : slot log i = some e) : i ≤ log.length := by
  by_contra beyond
  rw [slot_eq_none (by omega)] at held
  cases held

theorem mem_of_slot (held : slot log i = some e) : e ∈ log := by
  cases i with
  | zero => cases held
  | succ i => exact List.mem_of_getElem? held

theorem exists_slot (positive : 0 < i) (within : i ≤ log.length) : ∃ e, slot log i = some e := by
  cases i with
  | zero => omega
  | succ i => exact ⟨log[i], List.getElem?_eq_getElem (by omega)⟩

/-- A beginning of a log followed by a later entry is a selection of the log. -/
theorem sublist_snoc {first : List β} (begins : first <+: log) (held : slot log i = some e)
    (later : first.length < i)
    : (first ++ [e]).Sublist log := by
  obtain ⟨more, rfl⟩ := begins
  cases i with
  | zero => cases held
  | succ i =>
      simp only [slot, List.getElem?_append_right (Nat.le_of_lt_succ later)] at held
      exact (List.Sublist.refl first).append
        (List.singleton_sublist.mpr (List.mem_of_getElem? held))

/-- What is ordered along a log is ordered along its slots. -/
theorem slot_pairwise {R : β → β → Prop} (sorted : log.Pairwise R) {i j : Nat} {e f : β}
    (left : slot log i = some e) (right : slot log j = some f) (less : i < j)
    : R e f := by
  cases i with
  | zero => cases left
  | succ i =>
      cases j with
      | zero => cases right
      | succ j =>
          obtain ⟨within, rfl⟩ := List.getElem?_eq_some_iff.mp left
          obtain ⟨within', rfl⟩ := List.getElem?_eq_some_iff.mp right
          exact List.pairwise_iff_getElem.mp sorted i j within within' (by omega)

/-- Owners of slots, and what each participant has logged and has waiting. -/
structure State (κ β : Type) where
  owner : Nat → Option κ
  log : κ → List β
  waiting : κ → Nat → Option β

inductive Action (κ β : Type) where
  | claim (k : κ) (i : Nat)
  | choose (k : κ) (i : Nat) (e : β)
  | learn (k : κ) (i : Nat) (e : β)
  | apply (k : κ) (e : β)
  | forget (k : κ)

/-- The participant an action is about. -/
def Action.actor : Action κ β → κ
  | .claim k _ | .choose k _ _ | .learn k _ _ | .apply k _ | .forget k => k

variable [DecidableEq κ]

namespace State

/-- What waits for one participant is replaced. -/
def setWaiting (s : State κ β) (k : κ) (waiting : Nat → Option β) : State κ β :=
  { s with waiting := Function.update s.waiting k waiting }

/-- A content starts to wait. -/
def await (s : State κ β) (k : κ) (i : Nat) (e : β) : State κ β :=
  s.setWaiting k (Function.update (s.waiting k) i (some e))

/-- The next content of a participant moves from waiting to its log. -/
def append (s : State κ β) (k : κ) (e : β) : State κ β :=
  { s.setWaiting k (Function.update (s.waiting k) ((s.log k).length + 1) none) with
    log := Function.update s.log k (s.log k ++ [e]) }

section Accessors

variable {s : State κ β} {k other : κ} {i j : Nat} {e f : β}

@[simp] theorem log_append_self : (s.append k e).log k = s.log k ++ [e] := by
  simp [append]

@[simp] theorem log_append_of_ne (differs : other ≠ k)
    : (s.append k e).log other = s.log other := by
  simp [append, differs]

theorem log_prefix_append (s : State κ β) (k other : κ) (e : β)
    : s.log other <+: (s.append k e).log other := by
  by_cases same : other = k
  · subst same
    simp
  · simp [same]

/-- What waits after a content is added waited before, or is that content. -/
theorem waiting_await (waits : (s.await k i e).waiting other j = some f)
    : other = k ∧ j = i ∧ f = e ∨ s.waiting other j = some f := by
  simp only [await, setWaiting] at waits
  by_cases same : other = k
  · subst same
    rw [Function.update_self] at waits
    by_cases here : j = i
    · subst here
      rw [Function.update_self] at waits
      exact .inl ⟨rfl, rfl, (Option.some.inj waits).symm⟩
    · rw [Function.update_of_ne here] at waits
      exact .inr waits
  · rw [Function.update_of_ne same] at waits
    exact .inr waits

/-- What waits after a slot is filled waited before, and not for that slot. -/
theorem waiting_append (waits : (s.append k e).waiting other j = some f)
    : s.waiting other j = some f ∧ (other = k → j ≠ (s.log k).length + 1) := by
  simp only [append, setWaiting] at waits
  by_cases same : other = k
  · subst same
    rw [Function.update_self] at waits
    by_cases here : j = (s.log other).length + 1
    · rw [here, Function.update_self] at waits
      cases waits
    · rw [Function.update_of_ne here] at waits
      exact ⟨waits, fun _ => here⟩
  · rw [Function.update_of_ne same] at waits
    exact ⟨waits, fun equal => absurd equal same⟩

/-- Nobody has more waiting when one participant forgets. -/
theorem waiting_forget (waits : (s.setWaiting k fun _ => none).waiting other j = some f)
    : other ≠ k ∧ s.waiting other j = some f := by
  simp only [setWaiting] at waits
  by_cases same : other = k
  · rw [same, Function.update_self] at waits
    cases waits
  · rw [Function.update_of_ne same] at waits
    exact ⟨same, waits⟩

end Accessors

inductive Step (s : State κ β) : Action κ β → State κ β → Prop where
  | claim {k : κ} {i : Nat} (free : s.owner i = none)
    : Step s (.claim k i) { s with owner := Function.update s.owner i (some k) }
  | choose {k : κ} {i : Nat} {e : β} (owned : s.owner i = some k) (ahead : (s.log k).length < i)
    : Step s (.choose k i e) (s.await k i e)
  | learn {k : κ} {i : Nat} {e : β} (known : ∃ j, slot (s.log j) i = some e)
    (ahead : (s.log k).length < i)
    : Step s (.learn k i e) (s.await k i e)
  | apply {k : κ} {e : β} (ready : s.waiting k ((s.log k).length + 1) = some e)
    : Step s (.apply k e) (s.append k e)
  | forget {k : κ} : Step s (.forget k) (s.setWaiting k fun _ => none)

/-- The later state has the claims of the earlier one, and its logs are continued. -/
structure Extends (s s' : State κ β) : Prop where
  owner : ∀ {i k}, s.owner i = some k → s'.owner i = some k
  log : ∀ k, s.log k <+: s'.log k

omit [DecidableEq κ] in
theorem Extends.refl (s : State κ β) : s.Extends s :=
  ⟨id, fun _ => List.prefix_rfl⟩

omit [DecidableEq κ] in
theorem Extends.trans {s mid s' : State κ β} (first : s.Extends mid) (later : mid.Extends s')
    : s.Extends s' :=
  ⟨fun owned => later.owner (first.owner owned), fun k => (first.log k).trans (later.log k)⟩

variable {s s' : State κ β} {action : Action κ β} {k : κ} {e : β}

theorem Step.extends (step : s.Step action s') : s.Extends s' := by
  cases step with
  | @claim k i free =>
      refine ⟨fun {j o} owned => ?_, fun _ => List.prefix_rfl⟩
      have other : j ≠ i := by
        intro same
        rw [same, free] at owned
        cases owned
      simpa [other] using owned
  | choose => exact ⟨id, fun _ => List.prefix_rfl⟩
  | learn => exact ⟨id, fun _ => List.prefix_rfl⟩
  | apply => exact ⟨id, fun other => log_prefix_append s _ other _⟩
  | forget => exact ⟨id, fun _ => List.prefix_rfl⟩

theorem Step.frame (step : s.Step action s') {other : κ} (differs : other ≠ action.actor)
    : s'.log other = s.log other ∧ s'.waiting other = s.waiting other := by
  cases step with
  | claim => exact ⟨rfl, rfl⟩
  | choose => exact ⟨rfl, Function.update_of_ne differs _ _⟩
  | learn => exact ⟨rfl, Function.update_of_ne differs _ _⟩
  | apply => exact ⟨Function.update_of_ne differs _ _, Function.update_of_ne differs _ _⟩
  | forget => exact ⟨rfl, Function.update_of_ne differs _ _⟩

theorem path_extends {allowed : State κ β → Action κ β → Prop} (path : Path Step allowed s s')
    : s.Extends s' :=
  path.invariant (fun known step _ => known.trans step.extends) (.refl s)

/-- Every logged content is in its owner's log, and every waiting one too, unless it waits for
its owner.
-/
structure Consistent (s : State κ β) : Prop where
  logged
    : ∀ {k i e}, slot (s.log k) i = some e → ∃ o, s.owner i = some o ∧ slot (s.log o) i = some e
  ahead : ∀ {k i e}, s.waiting k i = some e → (s.log k).length < i
  backed
    : ∀ {k i e}, s.waiting k i = some e
      → ∃ o, s.owner i = some o ∧ (o = k ∨ slot (s.log o) i = some e)

theorem Consistent.await (consistent : s.Consistent) {i : Nat} (ahead : (s.log k).length < i)
    (backed : ∃ o, s.owner i = some o ∧ (o = k ∨ slot (s.log o) i = some e))
    : (s.await k i e).Consistent := by
  refine ⟨consistent.logged, fun waits => ?_, fun waits => ?_⟩
  · rcases waiting_await waits with ⟨rfl, rfl, -⟩ | before
    · exact ahead
    · exact consistent.ahead before
  · rcases waiting_await waits with ⟨rfl, rfl, rfl⟩ | before
    · exact backed
    · exact consistent.backed before

/-- Filling the next slot keeps every log consistent. Witness: an owner that fills its own slot
has it in its log from then on, and nobody can have copied it before.
-/
theorem Consistent.append (consistent : s.Consistent)
    (ready : s.waiting k ((s.log k).length + 1) = some e)
    : (s.append k e).Consistent := by
  have grown (other : κ) := log_prefix_append s k other e
  refine ⟨fun {other i f} held => ?_, fun {other i f} waits => ?_, fun {other i f} waits => ?_⟩
  · have before : slot (s.log other) i = some f ∨ other = k ∧ i = (s.log k).length + 1 ∧ f = e := by
      by_cases same : other = k
      · subst same
        rw [log_append_self] at held
        exact (slot_append held).imp_right fun ⟨last, new⟩ => ⟨rfl, last, new⟩
      · rw [log_append_of_ne same] at held
        exact .inl held
    rcases before with old | ⟨rfl, rfl, rfl⟩
    · obtain ⟨o, owned, there⟩ := consistent.logged old
      exact ⟨o, owned, slot_of_isPrefix (grown o) there⟩
    · obtain ⟨o, owned, here | there⟩ := consistent.backed ready
      · subst here
        refine ⟨o, owned, ?_⟩
        rw [log_append_self]
        exact slot_append_self _ _
      · exact ⟨o, owned, slot_of_isPrefix (grown o) there⟩
  · obtain ⟨before, other_slot⟩ := waiting_append waits
    have ahead := consistent.ahead before
    by_cases same : other = k
    · subst same
      have differs := other_slot rfl
      rw [log_append_self, List.length_append, List.length_singleton]
      omega
    · rwa [log_append_of_ne same]
  · obtain ⟨o, owned, here | there⟩ := consistent.backed (waiting_append waits).1
    · exact ⟨o, owned, .inl here⟩
    · exact ⟨o, owned, .inr (slot_of_isPrefix (grown o) there)⟩

theorem Step.consistent (consistent : s.Consistent) (step : s.Step action s') : s'.Consistent := by
  have kept := step.extends
  cases step with
  | claim free =>
      refine ⟨?_, consistent.ahead, ?_⟩
      · intro other j e held
        obtain ⟨o, owned, there⟩ := consistent.logged held
        exact ⟨o, kept.owner owned, there⟩
      · intro other j e waits
        obtain ⟨o, owned, there⟩ := consistent.backed waits
        exact ⟨o, kept.owner owned, there⟩
  | choose owned ahead => exact consistent.await ahead ⟨_, owned, .inl rfl⟩
  | learn known ahead =>
      obtain ⟨j, held⟩ := known
      obtain ⟨o, owned, there⟩ := consistent.logged held
      exact consistent.await ahead ⟨o, owned, .inr there⟩
  | apply ready => exact consistent.append ready
  | forget =>
      exact ⟨consistent.logged, fun waits => consistent.ahead (waiting_forget waits).2,
        fun waits => consistent.backed (waiting_forget waits).2⟩

section Agreement

omit [DecidableEq κ]

theorem Consistent.length_le (consistent : s.Consistent) {bound : Nat}
    (owned : ∀ {i k}, s.owner i = some k → i ≤ bound) (k : κ)
    : (s.log k).length ≤ bound := by
  by_cases empty : (s.log k).length = 0
  · omega
  · obtain ⟨e, held⟩ := exists_slot (Nat.pos_of_ne_zero empty) (Nat.le_refl (s.log k).length)
    obtain ⟨o, owner, -⟩ := consistent.logged held
    exact owned owner

variable {a b : κ}

/-- A slot has the same content in all logs that have it. -/
theorem Consistent.agree (consistent : s.Consistent) {i : Nat} {e f : β}
    (left : slot (s.log a) i = some e) (right : slot (s.log b) i = some f)
    : e = f := by
  obtain ⟨o, owned, there⟩ := consistent.logged left
  obtain ⟨o', owned', there'⟩ := consistent.logged right
  rw [owned] at owned'
  cases owned'
  rw [there] at there'
  exact Option.some.inj there'

/-- Of two logs the shorter is a prefix of the longer. -/
theorem Consistent.prefix_of_le (consistent : s.Consistent)
    (shorter : (s.log a).length ≤ (s.log b).length)
    : s.log a <+: s.log b := by
  rw [List.prefix_iff_getElem?]
  intro i within
  have left : slot (s.log a) (i + 1) = some (s.log a)[i] := List.getElem?_eq_getElem within
  have reaches : i + 1 ≤ (s.log b).length := by omega
  obtain ⟨f, right⟩ := exists_slot (Nat.succ_pos i) reaches
  rw [consistent.agree left right]
  exact right

theorem Consistent.comparable (consistent : s.Consistent) (a b : κ)
    : s.log a <+: s.log b ∨ s.log b <+: s.log a := by
  rcases Nat.le_total (s.log a).length (s.log b).length with shorter | longer
  · exact .inl (consistent.prefix_of_le shorter)
  · exact .inr (consistent.prefix_of_le longer)

end Agreement

section Contents

/-- Every content, logged or waiting, has `P`. -/
structure All (P : β → Prop) (s : State κ β) : Prop where
  logged : ∀ {k e}, e ∈ s.log k → P e
  waiting : ∀ {k i e}, s.waiting k i = some e → P e

variable {P : β → Prop}

/-- Contents are chosen, then only copied. -/
theorem Step.all (all : s.All P) (step : s.Step action s')
    (chosen : ∀ k i e, action = .choose k i e → P e)
    : s'.All P := by
  have awaited {k : κ} {i : Nat} {e : β} (fine : P e) : (s.await k i e).All P := by
    refine ⟨all.logged, fun waits => ?_⟩
    rcases waiting_await waits with ⟨-, -, rfl⟩ | before
    · exact fine
    · exact all.waiting before
  cases step with
  | claim => exact ⟨all.logged, all.waiting⟩
  | choose => exact awaited (chosen _ _ _ rfl)
  | learn known =>
      obtain ⟨j, held⟩ := known
      exact awaited (all.logged (mem_of_slot held))
  | @apply k e ready =>
      refine ⟨fun {other f} member => ?_, fun waits => all.waiting (waiting_append waits).1⟩
      by_cases same : other = k
      · subst same
        rw [log_append_self] at member
        rcases List.mem_append.mp member with old | new
        · exact all.logged old
        · rw [List.mem_singleton.mp new]
          exact all.waiting ready
      · rw [log_append_of_ne same] at member
        exact all.logged member
  | forget => exact ⟨all.logged, fun waits => all.waiting (waiting_forget waits).2⟩

end Contents

section Ordered

variable {rank : β → Nat}

/-- An owner chooses only the content of its next slot, and ranks it behind what it has. -/
def InTurn (rank : β → Nat) (s : State κ β) : Action κ β → Prop
  | .choose k i e => i = (s.log k).length + 1 ∧ ∀ x ∈ s.log k, rank x ≤ rank e
  | _ => True

/-- Logs are sorted by rank, and so they stay when owners fill the slots they have chosen. -/
structure Ordered (rank : β → Nat) (s : State κ β) : Prop where
  sorted : ∀ k, (s.log k).Pairwise fun x y => rank x ≤ rank y
  own
    : ∀ {k i e}, s.waiting k i = some e → s.owner i = some k
      → i = (s.log k).length + 1 ∧ ∀ x ∈ s.log k, rank x ≤ rank e

omit [DecidableEq κ] in
/-- A content about to be logged ranks behind the log: its owner chose it in turn, or it is the
next content of a longer log.
-/
theorem Ordered.last (ordered : s.Ordered rank) (consistent : s.Consistent) {k : κ} {e : β}
    (ready : s.waiting k ((s.log k).length + 1) = some e)
    : ∀ x ∈ s.log k, rank x ≤ rank e := by
  obtain ⟨o, owned, here | there⟩ := consistent.backed ready
  · subst here
    exact (ordered.own ready owned).2
  · intro x member
    have longer := le_length_of_slot there
    obtain ⟨more, continued⟩ := consistent.prefix_of_le (a := k) (b := o) (by omega)
    have sorted := ordered.sorted o
    rw [← continued] at sorted there
    have next : e ∈ more := by
      simp only [slot, List.getElem?_append_right (Nat.le_refl _)] at there
      exact List.mem_of_getElem? there
    exact (List.pairwise_append.mp sorted).2.2 x member e next

theorem Step.ordered (consistent : s.Consistent) (ordered : s.Ordered rank)
    (step : s.Step action s') (turn : InTurn rank s action)
    : s'.Ordered rank := by
  cases step with
  | @claim k i free =>
      refine ⟨ordered.sorted, fun {other j e} waits owned => ordered.own waits ?_⟩
      -- a slot that something waits for has an owner already
      obtain ⟨o, before, -⟩ := consistent.backed waits
      have differs : j ≠ i := by
        intro same
        rw [same, free] at before
        cases before
      simpa [differs] using owned
  | choose owned ahead =>
      refine ⟨ordered.sorted, fun waits own => ?_⟩
      rcases waiting_await waits with ⟨rfl, rfl, rfl⟩ | before
      · exact turn
      · exact ordered.own before own
  | learn known ahead =>
      refine ⟨ordered.sorted, fun waits own => ?_⟩
      rcases waiting_await waits with ⟨rfl, rfl, rfl⟩ | before
      · -- the owner of a content that some log holds has it in its own log
        obtain ⟨j, held⟩ := known
        obtain ⟨o, owned, there⟩ := consistent.logged held
        obtain rfl := Option.some.inj (owned.symm.trans own)
        have within := le_length_of_slot there
        omega
      · exact ordered.own before own
  | @apply k e ready =>
      refine ⟨fun other => ?_, fun {other j f} waits own => ?_⟩
      · by_cases same : other = k
        · subst same
          rw [log_append_self, List.pairwise_append]
          refine ⟨ordered.sorted other, List.pairwise_singleton _ _, fun x member y last => ?_⟩
          rw [List.mem_singleton.mp last]
          exact ordered.last consistent ready x member
        · rw [log_append_of_ne same]
          exact ordered.sorted other
      · obtain ⟨before, other_slot⟩ := waiting_append waits
        obtain ⟨next, behind⟩ := ordered.own before own
        by_cases same : other = k
        · subst same
          exact absurd next (other_slot rfl)
        · rw [log_append_of_ne same]
          exact ⟨next, behind⟩
  | forget => exact ⟨ordered.sorted, fun waits own => ordered.own (waiting_forget waits).2 own⟩

end Ordered

end State

end Foundation.SlotLog
