import Mathlib.Data.List.Basic
import Mathlib.Data.List.Perm.Basic

/-! Lists of tagged results, split into what succeeded and what failed. -/

namespace Foundation

variable {α β ε : Type}

/-- The successful items with their values, in order. -/
def successes : List (α × Except ε β) → List (α × β)
  | [] => []
  | (item, .ok value) :: rest => (item, value) :: successes rest
  | (_, .error _) :: rest => successes rest

/-- The failed items with their errors, in order. -/
def failures : List (α × Except ε β) → List (α × ε)
  | [] => []
  | (_, .ok _) :: rest => failures rest
  | (item, .error err) :: rest => (item, err) :: failures rest

theorem successes_append (left right : List (α × Except ε β))
    : successes (left ++ right) = successes left ++ successes right := by
  induction left with
  | nil => rfl
  | cons head rest ih =>
      obtain ⟨item, result⟩ := head
      cases result with
      | ok value => exact congrArg ((item, value) :: ·) ih
      | error err => exact ih

theorem failures_append (left right : List (α × Except ε β))
    : failures (left ++ right) = failures left ++ failures right := by
  induction left with
  | nil => rfl
  | cons head rest ih =>
      obtain ⟨item, result⟩ := head
      cases result with
      | ok value => exact ih
      | error err => exact congrArg ((item, err) :: ·) ih

theorem mem_successes {items : List (α × Except ε β)} {item : α} {value : β}
    : (item, value) ∈ successes items ↔ (item, .ok value) ∈ items := by
  induction items with
  | nil => simp [successes]
  | cons head rest ih =>
      obtain ⟨other, result⟩ := head
      cases result <;> simp [successes, ih]

theorem mem_failures {items : List (α × Except ε β)} {item : α} {err : ε}
    : (item, err) ∈ failures items ↔ (item, .error err) ∈ items := by
  induction items with
  | nil => simp [failures]
  | cons head rest ih =>
      obtain ⟨other, result⟩ := head
      cases result <;> simp [failures, ih]

end Foundation
