import Mathlib

/-! Histories that open and close keyed items: what was opened under a key, whether it was
closed, and the weight of what is still open.
-/

namespace Foundation

/-- Which events open an item, under which key, and which events close a key's item. -/
structure Lifecycle (Event Key Item : Type) where
  opens : Event → Option Item
  key : Item → Key
  closes : Event → Option Key

namespace Lifecycle

variable {Event Key Item : Type} [DecidableEq Key] (c : Lifecycle Event Key Item)

/-- The item first opened under `key`. -/
def opened (events : List Event) (key : Key) : Option Item :=
  events.findSome? fun event => (c.opens event).filter fun item => c.key item = key

/-- Some event closes the item of `key`. -/
def closed (events : List Event) (key : Key) : Bool :=
  events.any fun event => c.closes event = some key

/-- Weight of the items that are opened and not closed later. -/
def outstanding (weight : Item → Nat) : List Event → Nat
  | [] => 0
  | event :: later =>
      (match c.opens event with
        | some item => if c.closed later (c.key item) then 0 else weight item
        | none => 0)
        + outstanding weight later

/-- No key is opened twice. -/
def OpensOnce (events : List Event) : Prop :=
  ((events.filterMap c.opens).map c.key).Nodup

section Lookups

variable {c} {events : List Event} {event : Event} {key : Key} {item : Item}

theorem opened_append (later : List Event)
    : c.opened (events ++ later) key = (c.opened events key).or (c.opened later key) :=
  List.findSome?_append

theorem closed_append (later : List Event)
    : c.closed (events ++ later) key = (c.closed events key || c.closed later key) :=
  List.any_append

theorem opened_cons_of_none (silent : c.opens event = none)
    : c.opened (event :: events) key = c.opened events key := by
  simp [opened, silent]

theorem opened_cons_of_some (opens : c.opens event = some item)
    : c.opened (event :: events) key
      = if c.key item = key then some item else c.opened events key := by
  by_cases same : c.key item = key
  · simp [opened, opens, Option.filter, same]
  · simp [opened, opens, Option.filter, same]

theorem opened_eq_none
    : c.opened events key = none ↔ key ∉ (events.filterMap c.opens).map c.key := by
  induction events with
  | nil => simp [opened]
  | cons event later ih =>
      cases opens : c.opens event with
      | none => rw [opened_cons_of_none opens, ih, List.filterMap_cons_none opens]
      | some item =>
          rw [opened_cons_of_some opens, List.filterMap_cons_some opens, List.map_cons,
            List.mem_cons, not_or]
          by_cases same : c.key item = key
          · simp [same]
          · simp [same, Ne.symm same, ih]

theorem opened_single (opens : c.opens event = some item) (key : Key)
    : c.opened [event] key = if c.key item = key then some item else none :=
  opened_cons_of_some opens

theorem closed_append_single
    : c.closed (events ++ [event]) key = true
      ↔ c.closed events key = true ∨ c.closes event = some key := by
  simp [closed]

/-- What was opened under a key stays so. -/
theorem opened_append_of_some (later : List Event) (there : c.opened events key = some item)
    : c.opened (events ++ later) key = some item := by
  rw [opened_append, there, Option.some_or]

omit [DecidableEq Key] in
theorem OpensOnce.append_silent (once : c.OpensOnce events) (silent : c.opens event = none)
    : c.OpensOnce (events ++ [event]) := by
  simpa [OpensOnce, silent] using once

theorem OpensOnce.append_open (once : c.OpensOnce events) (opens : c.opens event = some item)
    (unused : c.opened events (c.key item) = none)
    : c.OpensOnce (events ++ [event]) := by
  have absent := opened_eq_none.mp unused
  simp only [OpensOnce, List.filterMap_append, List.filterMap_cons_some opens,
    List.filterMap_nil, List.map_append, List.map_cons, List.map_nil]
  rw [List.nodup_append]
  refine ⟨once, List.nodup_singleton _, ?_⟩
  intro earlier mem last only same
  rw [List.mem_singleton] at only
  rw [same, only] at mem
  exact absent mem

end Lookups

section Outstanding

variable {c} {weight : Item → Nat} {events : List Event} {event : Event} {key : Key}
  {item : Item}

theorem outstanding_cons_of_none (silent : c.opens event = none)
    : c.outstanding weight (event :: events) = c.outstanding weight events := by
  simp [outstanding, silent]

theorem outstanding_cons_of_some (opens : c.opens event = some item)
    : c.outstanding weight (event :: events)
      = (if c.closed events (c.key item) then 0 else weight item)
        + c.outstanding weight events := by
  simp [outstanding, opens]

/-- An event that closes nothing adds what it opens. -/
theorem outstanding_append_open (stays : c.closes event = none)
    : c.outstanding weight (events ++ [event])
      = c.outstanding weight events + ((c.opens event).map weight).getD 0 := by
  have unclosed (key : Key) : c.closed [event] key = false := by simp [closed, stays]
  induction events with
  | nil => cases opens : c.opens event <;> simp [outstanding, opens, closed]
  | cons first later ih =>
      rw [List.cons_append]
      cases opens : c.opens first with
      | none => rw [outstanding_cons_of_none opens, outstanding_cons_of_none opens, ih]
      | some item =>
          rw [outstanding_cons_of_some opens, outstanding_cons_of_some opens, ih, closed_append,
            unclosed, Bool.or_false, Nat.add_assoc]

/-- Closing a key that was never opened changes nothing. -/
theorem outstanding_append_unopened (closes : c.closes event = some key)
    (silent : c.opens event = none) (unopened : c.opened events key = none)
    : c.outstanding weight (events ++ [event]) = c.outstanding weight events := by
  induction events with
  | nil => simp [outstanding, silent]
  | cons first later ih =>
      rw [List.cons_append]
      cases opens : c.opens first with
      | none =>
          rw [opened_cons_of_none opens] at unopened
          rw [outstanding_cons_of_none opens, outstanding_cons_of_none opens, ih unopened]
      | some item =>
          rw [opened_cons_of_some opens] at unopened
          have other : c.key item ≠ key := fun same => by simp [same] at unopened
          rw [if_neg other] at unopened
          have elsewhere : c.closed [event] (c.key item) = false := by
            simp [closed, closes, Ne.symm other]
          rw [outstanding_cons_of_some opens, outstanding_cons_of_some opens, ih unopened,
            closed_append, elsewhere, Bool.or_false]

/-- Closing an open item takes its weight away. Witness: the item is opened once, and before
that event nothing else depends on its key.
-/
theorem outstanding_append_close (closes : c.closes event = some key)
    (silent : c.opens event = none) (once : c.OpensOnce events)
    (there : c.opened events key = some item) (isOpen : c.closed events key = false)
    : c.outstanding weight (events ++ [event]) + weight item = c.outstanding weight events := by
  induction events with
  | nil => cases there
  | cons first later ih =>
      have stillOpen : c.closed later key = false := by
        simp only [closed, List.any_cons, Bool.or_eq_false_iff] at isOpen
        exact isOpen.2
      rw [List.cons_append]
      cases opens : c.opens first with
      | none =>
          rw [opened_cons_of_none opens] at there
          rw [OpensOnce, List.filterMap_cons_none opens] at once
          rw [outstanding_cons_of_none opens, outstanding_cons_of_none opens]
          exact ih once there stillOpen
      | some opening =>
          rw [opened_cons_of_some opens] at there
          rw [OpensOnce, List.filterMap_cons_some opens, List.map_cons, List.nodup_cons] at once
          rw [outstanding_cons_of_some opens, outstanding_cons_of_some opens, closed_append]
          by_cases same : c.key opening = key
          · -- the item itself: nothing later opens its key again
            rw [if_pos same] at there
            cases there
            have unopened : c.opened later key = none := opened_eq_none.mpr (same ▸ once.1)
            have closesIt : c.closed [event] (c.key item) = true := by simp [closed, closes, same]
            rw [outstanding_append_unopened closes silent unopened, closesIt, same, stillOpen]
            simp [Nat.add_comm]
          · rw [if_neg same] at there
            have elsewhere : c.closed [event] (c.key opening) = false := by
              simp [closed, closes, Ne.symm same]
            rw [elsewhere, Bool.or_false, Nat.add_assoc, ih once.2 there stillOpen]

end Outstanding

end Lifecycle

end Foundation
