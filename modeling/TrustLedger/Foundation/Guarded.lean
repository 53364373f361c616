import Mathlib

/-! Runs of a transition system that stay good exactly as long as every step meets its guard. -/

namespace Foundation

variable {σ α : Type} {step : σ → α → σ} {good inv : σ → Prop} {s : σ} {action : α}
  {rest actions : List α} {guard : σ → α → Prop}

/-- A property of states holds at every point of a run. -/
def Throughout (step : σ → α → σ) (good : σ → Prop) (s : σ) (actions : List α) : Prop :=
  ∀ done, done <+: actions → good (done.foldl step s)

/-- Every action of a run meets its guard in the state before it. -/
def Guarded (step : σ → α → σ) (guard : σ → α → Prop) (s : σ) (actions : List α) : Prop :=
  ∀ done action rest, actions = done ++ action :: rest → guard (done.foldl step s) action

theorem throughout_cons
    : Throughout step good s (action :: rest)
      ↔ good s ∧ Throughout step good (step s action) rest := by
  constructor
  · intro all
    exact ⟨all [] List.nil_prefix,
      fun done early => all (action :: done) (List.cons_prefix_cons.mpr ⟨rfl, early⟩)⟩
  · intro ⟨now, later⟩ done early
    cases done with
    | nil => exact now
    | cons first done =>
        obtain ⟨rfl, within⟩ := List.cons_prefix_cons.mp early
        exact later done within

theorem guarded_nil : Guarded step guard s [] := by
  intro done action rest split
  simp at split

theorem guarded_cons
    : Guarded step guard s (action :: rest)
      ↔ guard s action ∧ Guarded step guard (step s action) rest := by
  constructor
  · intro all
    refine ⟨all [] action rest rfl, fun done next later split => ?_⟩
    exact all (action :: done) next later (congrArg (action :: ·) split)
  · intro ⟨now, later⟩ done next tail split
    cases done with
    | nil =>
        obtain ⟨rfl, -⟩ := List.cons.inj split
        exact now
    | cons first done =>
        obtain ⟨rfl, remaining⟩ := List.cons.inj split
        exact later done next tail remaining

/-- If each step from a good state stays good exactly when it meets its guard, a run stays good
exactly when every step of it does.
-/
theorem throughout_iff_guarded (kept : ∀ s action, inv s → inv (step s action))
    (exactly : ∀ s action, inv s → good s → (good (step s action) ↔ guard s action)) (holds : inv s)
    (start : good s) (actions : List α)
    : Throughout step good s actions ↔ Guarded step guard s actions := by
  induction actions generalizing s with
  | nil =>
      refine ⟨fun _ done action rest split => ?_, fun _ done early => ?_⟩
      · exact absurd split.symm (by simp)
      · rw [List.prefix_nil.mp early]
        exact start
  | cons action rest ih =>
      rw [throughout_cons, guarded_cons, ← exactly s action holds start]
      constructor
      · intro ⟨_, later⟩
        have next : good (step s action) := later [] List.nil_prefix
        exact ⟨next, (ih (kept s action holds) next).mp later⟩
      · intro ⟨next, later⟩
        exact ⟨start, (ih (kept s action holds) next).mpr later⟩

/-- A guard that can be checked can be checked along a run. -/
instance decidableGuarded {guard : σ → α → Prop} [∀ s action, Decidable (guard s action)]
    : ∀ (s : σ) (actions : List α), Decidable (Guarded step guard s actions)
  | _, [] => .isTrue guarded_nil
  | s, action :: rest =>
      @decidable_of_iff' _ _ guarded_cons
        (@instDecidableAnd _ _ _ (decidableGuarded (step s action) rest))

theorem Guarded.throughout (all : Guarded step guard s actions)
    (kept : ∀ s action, inv s → guard s action → inv (step s action)) (holds : inv s)
    : Throughout step inv s actions := by
  induction actions generalizing s with
  | nil =>
      intro done early
      rw [List.prefix_nil.mp early]
      exact holds
  | cons action rest ih =>
      rw [guarded_cons] at all
      exact throughout_cons.mpr ⟨holds, ih all.2 (kept s action holds all.1)⟩

/-- Two conditions on steps that agree on every allowed step of a run are met by the same runs. -/
theorem guarded_congr {allowed first second : σ → α → Prop}
    (kept : ∀ s action, inv s → allowed s action → inv (step s action))
    (exactly : ∀ s action, inv s → allowed s action → (first s action ↔ second s action))
    (holds : inv s) (all : Guarded step allowed s actions)
    : Guarded step first s actions ↔ Guarded step second s actions := by
  induction actions generalizing s with
  | nil => simp [Guarded]
  | cons action rest ih =>
      rw [guarded_cons] at all
      rw [guarded_cons, guarded_cons, exactly s action holds all.1,
        ih (kept s action holds all.1) all.2]

/-- Some steps lead from one state to another, each allowed where it is taken. -/
inductive Path (step : σ → α → σ → Prop) (allowed : σ → α → Prop) (start : σ) : σ → Prop where
  | refl : Path step allowed start start
  | tail {mid next : σ} {action : α} (earlier : Path step allowed start mid)
    (last : step mid action next) (ok : allowed mid action)
    : Path step allowed start next

namespace Path

variable {step : σ → α → σ → Prop} {allowed allowed' : σ → α → Prop} {start mid final : σ}

theorem single {action : α} (move : step start action final) (ok : allowed start action)
    : Path step allowed start final :=
  .tail .refl move ok

theorem trans (first : Path step allowed start mid) (later : Path step allowed mid final)
    : Path step allowed start final := by
  induction later with
  | refl => exact first
  | tail earlier last ok ih => exact .tail ih last ok

theorem mono (path : Path step allowed start final)
    (weaker : ∀ s action, allowed s action → allowed' s action)
    : Path step allowed' start final := by
  induction path with
  | refl => exact .refl
  | tail earlier last ok ih => exact .tail ih last (weaker _ _ ok)

theorem invariant {inv : σ → Prop} (path : Path step allowed start final)
    (kept : ∀ {s action s'}, inv s → step s action s' → allowed s action → inv s')
    (holds : inv start)
    : inv final := by
  induction path with
  | refl => exact holds
  | tail earlier last ok ih => exact kept ih last ok

end Path

end Foundation
