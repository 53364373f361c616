import Mathlib

/-! Walks of a partial step function: from each place to the next, until there is none. Where the
places with a next one are finitely many, a walk ends exactly if it comes upon no cycle, and then it
ends within as many steps as there are places.
-/

namespace Foundation

namespace Walk

open Relation

variable {α : Type} (next : α → Option α)

/-- One step leads from one place to the other. -/
def Leads (a b : α) : Prop :=
  next a = some b

/-- The walk from a place ends within a number of steps. -/
def EndsWithin : Nat → α → Prop
  | 0, _ => False
  | fuel + 1, a => ∀ b, next a = some b → EndsWithin fuel b

/-- The place after a number of steps. -/
def after : Nat → α → Option α
  | 0, a => some a
  | n + 1, a => (next a).bind (after n)

/-- The walk from a place comes upon a cycle. -/
def MeetsCycle (a : α) : Prop :=
  ∃ b, ReflTransGen (Leads next) a b ∧ TransGen (Leads next) b b

variable {next} {a b : α}

theorem MeetsCycle.step (meets : MeetsCycle next a) : ∃ b, next a = some b ∧ MeetsCycle next b := by
  obtain ⟨c, reaches, cycle⟩ := meets
  rcases reaches.cases_head with rfl | ⟨b, first, rest⟩
  · obtain ⟨b, first, back⟩ := TransGen.head'_iff.mp cycle
    exact ⟨b, first, a, back, cycle⟩
  · exact ⟨b, first, c, rest, cycle⟩

/-- A walk that comes upon a cycle never ends. -/
theorem MeetsCycle.not_endsWithin (meets : MeetsCycle next a) (fuel : Nat)
    : ¬ EndsWithin next fuel a := by
  induction fuel generalizing a with
  | zero => exact not_false
  | succ fuel ih =>
      obtain ⟨b, first, later⟩ := meets.step
      exact fun ends => ih later (ends b first)

theorem after_add (m n : Nat) (a : α)
    : after next (m + n) a = (after next m a).bind (after next n) := by
  induction m generalizing a with
  | zero => rw [Nat.zero_add, after, Option.bind_some]
  | succ m ih =>
      rw [Nat.succ_add, after, after, Option.bind_assoc]
      exact congrArg _ (funext ih)

theorem reflTransGen_of_after {n : Nat} (there : after next n a = some b)
    : ReflTransGen (Leads next) a b := by
  induction n generalizing a with
  | zero => exact Option.some.inj there ▸ .refl
  | succ n ih =>
      obtain ⟨c, first, rest⟩ := Option.bind_eq_some_iff.mp there
      exact .head first (ih rest)

theorem transGen_of_after {n : Nat} (there : after next (n + 1) a = some b)
    : TransGen (Leads next) a b := by
  obtain ⟨c, first, rest⟩ := Option.bind_eq_some_iff.mp there
  exact .head' first (reflTransGen_of_after rest)

/-- A walk that has not ended has a next place for every step so far. -/
theorem exists_after_of_not_endsWithin {fuel : Nat} (goes : ¬ EndsWithin next fuel a) {n : Nat}
    (early : n < fuel)
    : ∃ b c, after next n a = some b ∧ next b = some c := by
  induction fuel generalizing a n with
  | zero => exact absurd early (Nat.not_lt_zero n)
  | succ fuel ih =>
      simp only [EndsWithin, not_forall] at goes
      obtain ⟨b, first, later⟩ := goes
      cases n with
      | zero => exact ⟨a, b, rfl, first⟩
      | succ n =>
          obtain ⟨c, d, there, more⟩ := ih later (Nat.lt_of_succ_lt_succ early)
          exact ⟨c, d, by rw [after, first, Option.bind_some, there], more⟩

/-- With finitely many places to step from, a walk ends exactly if it comes upon no cycle. -/
theorem endsWithin_iff {places : Finset α} (inside : ∀ a b, next a = some b → a ∈ places)
    : EndsWithin next (places.card + 1) a ↔ ¬ MeetsCycle next a := by
  constructor
  · exact fun ends meets => meets.not_endsWithin _ ends
  · intro free
    by_contra goes
    -- more steps than places: two of them start at the same place
    have maps : ∀ n ∈ Finset.range (places.card + 1), after next n a ∈ places.map .some := by
      intro n early
      obtain ⟨b, c, there, more⟩ :=
        exists_after_of_not_endsWithin goes (Finset.mem_range.mp early)
      rw [there]
      exact Finset.mem_map_of_mem _ (inside b c more)
    obtain ⟨m, early, n, late, differ, same⟩ :=
      Finset.exists_ne_map_eq_of_card_lt_of_maps_to (by simp) maps
    have returns {i j : Nat} (early : i ∈ Finset.range (places.card + 1)) (order : i < j)
        (same : after next i a = after next j a) : MeetsCycle next a := by
      obtain ⟨b, _, there, -⟩ := exists_after_of_not_endsWithin goes (Finset.mem_range.mp early)
      obtain ⟨k, rfl⟩ : ∃ k, j = i + (k + 1) := ⟨j - i - 1, by omega⟩
      rw [after_add, there, Option.bind_some] at same
      exact ⟨b, reflTransGen_of_after there, transGen_of_after same.symm⟩
    rcases Nat.lt_or_gt_of_ne differ with order | order
    · exact free (returns early order same)
    · exact free (returns late order same.symm)

end Walk

end Foundation
