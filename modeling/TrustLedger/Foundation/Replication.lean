import Mathlib

/-! Replicated deterministic machines. Every replica applies one sequence of entries, in portions of
any size, and may at any time take over the state another replica had at some position. Replicas at
one position have the same view, and an entry is answered alike wherever it is applied, as long as a
transfer restores the view it was taken from.
-/

namespace Foundation

/-- A machine that answers entries. Its answers and its next view depend on the view only: the rest
of the state is local to a replica.
-/
structure Replication (S E A V : Type) where
  step : E → S → A × S
  view : S → V
  step_answer : ∀ entry {s s' : S}, view s = view s' → (step entry s).1 = (step entry s').1
  step_view : ∀ entry {s s' : S}, view s = view s' →
    view (step entry s).2 = view (step entry s').2

namespace Replication

variable {S E A V : Type} (m : Replication S E A V)

/-- The answers to entries applied in order, and the state after them. -/
def run : List E → S → List A × S
  | [], s => ([], s)
  | entry :: rest, s =>
      ((m.step entry s).1 :: (run rest (m.step entry s).2).1, (run rest (m.step entry s).2).2)

theorem run_append (first second : List E) (s : S)
    : m.run (first ++ second) s
      = ((m.run first s).1 ++ (m.run second (m.run first s).2).1,
          (m.run second (m.run first s).2).2) := by
  induction first generalizing s with
  | nil => rfl
  | cons entry rest ih => simp only [List.cons_append, run, ih]

theorem length_run (entries : List E) (s : S) : (m.run entries s).1.length = entries.length := by
  induction entries generalizing s with
  | nil => rfl
  | cons entry rest ih => simp only [run, List.length_cons, ih]

/-- States with one view answer alike and keep one view. -/
theorem run_congr (entries : List E) {s s' : S} (same : m.view s = m.view s')
    : (m.run entries s).1 = (m.run entries s').1
      ∧ m.view (m.run entries s).2 = m.view (m.run entries s').2 := by
  induction entries generalizing s s' with
  | nil => exact ⟨rfl, same⟩
  | cons entry rest ih =>
      obtain ⟨answers, view⟩ := ih (m.step_view entry same)
      simp only [run, m.step_answer entry same, answers, view, true_and]

theorem run_preserves {P : V → Prop}
    (kept : ∀ entry s, P (m.view s) → P (m.view (m.step entry s).2)) (entries : List E) {s : S}
    (holds : P (m.view s))
    : P (m.view (m.run entries s).2) := by
  induction entries generalizing s with
  | nil => exact holds
  | cons entry rest ih => exact ih (kept entry s holds)

/-- The states a replica can be in after the first `n` entries, with the answers it has given and
the positions of the answered entries. A transfer relates the source's state to the replica's states
before and after it; a replica may also begin in an unrelated state with a transfer.
-/
inductive Replica (start : S) (transfer : S → S → S → Prop) (entries : List E)
    : Nat → S → List (A × Nat) → Prop where
  | start : Replica start transfer entries 0 start []
  | apply {n : Nat} {s : S} {answers : List (A × Nat)}
    (replica : Replica start transfer entries n s answers) (portion : List E)
    (next : portion <+: entries.drop n)
    : Replica start transfer entries (n + portion.length) (m.run portion s).2
        (answers ++ (m.run portion s).1.zipIdx n)
  | restore {n k : Nat} {s source s' : S} {answers others : List (A × Nat)}
    (replica : Replica start transfer entries n s answers)
    (other : Replica start transfer entries k source others) (moved : transfer source s s')
    : Replica start transfer entries k s' answers
  | join {k : Nat} {source s' : S} {others : List (A × Nat)} (s : S)
    (other : Replica start transfer entries k source others) (moved : transfer source s s')
    : Replica start transfer entries k s' []

/-- What a replica at position `n` has in common with the run of the whole sequence. -/
structure Follows (start : S) (entries : List E) (n : Nat) (s : S) (answers : List (A × Nat))
    : Prop where
  bound : n ≤ entries.length
  view : m.view s = m.view (m.run (entries.take n) start).2
  answered : ∀ answer ∈ answers, (m.run entries start).1[answer.2]? = some answer.1

section Following

variable {m} {start : S} {entries : List E} {n : Nat} {s : S} {answers : List (A × Nat)}

/-- A portion of the next entries is answered as in the run of the whole sequence. -/
theorem Follows.apply (follows : m.Follows start entries n s answers) {portion : List E}
    (next : portion <+: entries.drop n)
    : m.Follows start entries (n + portion.length) (m.run portion s).2
        (answers ++ (m.run portion s).1.zipIdx n) := by
  obtain ⟨later, split⟩ := next
  have whole : entries = entries.take n ++ (portion ++ later) := by
    rw [split, List.take_append_drop]
  have count : (entries.take n).length = n := by
    rw [List.length_take, Nat.min_eq_left follows.bound]
  have taken : entries.take (n + portion.length) = entries.take n ++ portion := by
    rw [List.take_add, ← split, List.take_left]
  obtain ⟨sameAnswers, sameView⟩ := m.run_congr portion follows.view
  constructor
  case bound =>
    have := congrArg List.length whole
    simp only [List.length_append, count] at this
    omega
  case view => rw [taken, m.run_append, sameView]
  case answered =>
    intro answer mem
    rcases List.mem_append.mp mem with old | new
    · exact follows.answered answer old
    · obtain ⟨low, there⟩ := List.mem_zipIdx_iff_le_and_getElem?_sub.mp new
      rw [sameAnswers] at there
      have inPortion := (List.getElem?_eq_some_iff.mp there).1
      have skip : (m.run (entries.take n) start).1.length = n := by rw [m.length_run, count]
      rw [whole, m.run_append, m.run_append, List.getElem?_append_right (by rw [skip]; exact low),
        skip, List.getElem?_append_left inPortion, there]

variable {transfer : S → S → S → Prop} {P : V → Prop}

theorem Follows.holds (follows : m.Follows start entries n s answers) (initial : P (m.view start))
    (kept : ∀ entry s, P (m.view s) → P (m.view (m.step entry s).2))
    : P (m.view s) := by
  rw [follows.view]
  exact m.run_preserves kept _ initial

/-- Every replica follows the run of the whole sequence, if transfers restore the view of states
that satisfy an invariant.
-/
theorem Replica.follows (initial : P (m.view start))
    (kept : ∀ entry s, P (m.view s) → P (m.view (m.step entry s).2))
    (restores : ∀ {source s s'}, P (m.view source) → transfer source s s' →
      m.view s' = m.view source) (replica : m.Replica start transfer entries n s answers)
    : m.Follows start entries n s answers := by
  induction replica with
  | start => exact ⟨Nat.zero_le _, rfl, fun _ mem => absurd mem List.not_mem_nil⟩
  | apply replica portion next ih => exact ih.apply next
  | restore replica other moved ih otherIh =>
      have restored := restores (otherIh.holds initial kept) moved
      exact ⟨otherIh.bound, restored.trans otherIh.view, ih.answered⟩
  | join s other moved otherIh =>
      have restored := restores (otherIh.holds initial kept) moved
      exact ⟨otherIh.bound, restored.trans otherIh.view,
        fun _ mem => absurd mem List.not_mem_nil⟩

theorem Follows.view_eq {s' : S} {answers' : List (A × Nat)}
    (follows : m.Follows start entries n s answers)
    (follows' : m.Follows start entries n s' answers')
    : m.view s = m.view s' :=
  follows.view.trans follows'.view.symm

/-- An entry that two replicas have answered has one answer. -/
theorem Follows.answer_eq {n' i : Nat} {s' : S} {answers' : List (A × Nat)} {a b : A}
    (follows : m.Follows start entries n s answers)
    (follows' : m.Follows start entries n' s' answers')
    (mem : (a, i) ∈ answers) (mem' : (b, i) ∈ answers')
    : a = b :=
  Option.some.inj ((follows.answered _ mem).symm.trans (follows'.answered _ mem'))

end Following

end Replication

end Foundation
