import TrustLedger.Foundation.Guarded

/-! Elections by majority. A voter is in one term at a time and has at most one vote there; it
moves on to later terms only. The ballots ever cast are kept as a history that only grows, and two
candidates never have a majority of them in one term.
-/

namespace Foundation.Ballots

variable {κ : Type}

/-- The term of each voter, its vote in it, and the ballots ever cast: voter, term, candidate. -/
structure State (κ : Type) where
  term : κ → Nat
  vote : κ → Option κ
  ballots : κ → Nat → κ → Prop

inductive Action (κ : Type) where
  | advance (voter : κ) (term : Nat)
  | vote (voter candidate : κ)

/-- The voter an action is about. -/
def Action.voter : Action κ → κ
  | .advance voter _ | .vote voter _ => voter

variable [DecidableEq κ]

namespace State

/-- A voter enters a term in which it has not voted. -/
def enter (s : State κ) (voter : κ) (term : Nat) : State κ :=
  { s with
    term := Function.update s.term voter term
    vote := Function.update s.vote voter none }

/-- A voter casts a ballot in its term. -/
def cast (s : State κ) (voter candidate : κ) : State κ :=
  { s with
    vote := Function.update s.vote voter (some candidate)
    ballots := fun v t c =>
      s.ballots v t c ∨ v = voter ∧ t = s.term voter ∧ c = candidate }

inductive Step (s : State κ) : Action κ → State κ → Prop where
  | advance {voter : κ} {term : Nat} (later : s.term voter < term)
    : Step s (.advance voter term) (s.enter voter term)
  | vote {voter candidate : κ} (free : s.vote voter = none ∨ s.vote voter = some candidate)
    : Step s (.vote voter candidate) (s.cast voter candidate)

variable {s s' : State κ} {action : Action κ}

theorem Step.ballots_mono (step : s.Step action s') {v c : κ} {t : Nat} (before : s.ballots v t c)
    : s'.ballots v t c := by
  cases step with
  | advance => exact before
  | vote => exact .inl before

theorem Step.frame (step : s.Step action s') {other : κ} (differs : other ≠ action.voter)
    : s'.term other = s.term other ∧ s'.vote other = s.vote other := by
  cases step with
  | advance => exact ⟨Function.update_of_ne differs _ _, Function.update_of_ne differs _ _⟩
  | vote => exact ⟨rfl, Function.update_of_ne differs _ _⟩

theorem path_frame {k : κ} (path : Path Step (fun _ action => action.voter = k) s s') {other : κ}
    (differs : other ≠ k)
    : s'.term other = s.term other ∧ s'.vote other = s.vote other := by
  induction path with
  | refl => exact ⟨rfl, rfl⟩
  | tail earlier last own ih =>
      have there := last.frame (own ▸ differs : other ≠ _)
      exact ⟨there.1.trans ih.1, there.2.trans ih.2⟩

theorem path_ballots {allowed : State κ → Action κ → Prop} (path : Path Step allowed s s')
    {v c : κ} {t : Nat} (before : s.ballots v t c)
    : s'.ballots v t c := by
  induction path with
  | refl => exact before
  | tail earlier last ok ih => exact last.ballots_mono ih

/-- No voter has a ballot of a term it has not reached, the ballot of its present term is its
vote, and it cast at most one in each term.
-/
structure Honest (s : State κ) : Prop where
  reached : ∀ {v t c}, s.ballots v t c → t ≤ s.term v
  present : ∀ {v c}, s.ballots v (s.term v) c → s.vote v = some c
  single : ∀ {v t c c'}, s.ballots v t c → s.ballots v t c' → c = c'

/-- A vote is cast once. Witness: a new ballot is for the voter's present term, where an older
one would be its vote already.
-/
theorem Honest.cast (honest : s.Honest) {voter candidate : κ}
    (free : s.vote voter = none ∨ s.vote voter = some candidate)
    : (s.cast voter candidate).Honest := by
  have fresh {c : κ} (old : s.ballots voter (s.term voter) c) : c = candidate := by
    have voted := honest.present old
    rcases free with none_yet | same
    · rw [none_yet] at voted
      cases voted
    · rw [same] at voted
      exact (Option.some.inj voted).symm
  refine ⟨?_, ?_, ?_⟩
  · intro v t c there
    rcases there with old | ⟨rfl, rfl, -⟩
    · exact honest.reached old
    · exact Nat.le_refl _
  · intro v c there
    by_cases same : v = voter
    · subst same
      have chosen : c = candidate := by
        rcases there with old | ⟨-, -, new⟩
        · exact fresh old
        · exact new
      simp [State.cast, chosen]
    · have old : s.ballots v (s.term v) c := there.resolve_right fun new => same new.1
      simpa [State.cast, same] using honest.present old
  · intro v t c c' left right
    rcases left with old | ⟨rfl, rfl, rfl⟩ <;> rcases right with old' | ⟨here, now, rfl⟩
    · exact honest.single old old'
    · subst here now
      exact fresh old
    · exact (fresh old').symm
    · rfl

theorem Honest.enter (honest : s.Honest) {voter : κ} {term : Nat} (later : s.term voter < term)
    : (s.enter voter term).Honest := by
  refine ⟨?_, ?_, honest.single⟩
  · intro v t c there
    have before := honest.reached there
    by_cases same : v = voter
    · subst same
      simp only [State.enter, Function.update_self]
      omega
    · simpa [State.enter, same] using before
  · intro v c there
    by_cases same : v = voter
    · subst same
      have before := honest.reached there
      simp only [State.enter, Function.update_self] at before
      omega
    · simp only [State.enter, Function.update_of_ne same] at there ⊢
      exact honest.present there

theorem Step.honest (honest : s.Honest) (step : s.Step action s') : s'.Honest := by
  cases step with
  | advance later => exact honest.enter later
  | vote free => exact honest.cast free

/-- A majority of the members has voted for a candidate in a term. -/
def Elected (members : Finset κ) (s : State κ) (term : Nat) (candidate : κ) : Prop :=
  ∃ majority ⊆ members,
    members.card / 2 + 1 ≤ majority.card ∧ ∀ v ∈ majority, s.ballots v term candidate

variable {members : Finset κ} {term : Nat} {candidate candidate' : κ}

/-- Two majorities of one term share a voter, who voted once. -/
theorem Elected.unique (honest : s.Honest) (left : s.Elected members term candidate)
    (right : s.Elected members term candidate')
    : candidate = candidate' := by
  obtain ⟨majority, within, enough, voted⟩ := left
  obtain ⟨majority', within', enough', voted'⟩ := right
  have shared : (majority ∩ majority').Nonempty :=
    Finset.inter_nonempty_of_card_lt_card_add_card within within' (by omega)
  obtain ⟨voter, both⟩ := shared
  obtain ⟨here, there⟩ := Finset.mem_inter.mp both
  exact honest.single (voted voter here) (voted' voter there)

end State

end Foundation.Ballots
