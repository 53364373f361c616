import Mathlib

/-! Logs of concatenated frames, cut at an arbitrary byte. What is left is a number of whole
frames followed by a strict prefix of the next one.
-/

namespace Foundation.TornLog

variable {α β : Type} (encode : α → List β)

/-- How many of the leading frames lie wholly inside the first `cut` bytes. -/
def wholeWithin : (cut : Nat) → List α → Nat
  | _, [] => 0
  | cut, item :: rest =>
      if (encode item).length ≤ cut then wholeWithin (cut - (encode item).length) rest + 1 else 0

/-- `tail` is what a cut leaves of the frame it hits: nothing, or a strict prefix. -/
def Torn (items : List α) (tail : List β) : Prop :=
  tail = [] ∨ ∃ item ∈ items, ∃ cut < (encode item).length, tail = (encode item).take cut

/-- A cut log is its whole frames followed by a torn one. The induction is on the frames; a
frame is either kept and the cut moves on behind it, or it is the one the cut hits.
-/
theorem take_flatMap (items : List α) (cut : Nat)
    : ∃ tail,
        Torn encode items tail
        ∧ (items.flatMap encode).take cut
          = (items.take (wholeWithin encode cut items)).flatMap encode ++ tail := by
  induction items generalizing cut with
  | nil => exact ⟨[], .inl rfl, by simp⟩
  | cons item rest ih =>
      simp only [wholeWithin]
      split
      · rename_i whole
        obtain ⟨tail, torn, kept⟩ := ih (cut - (encode item).length)
        refine ⟨tail, ?_, ?_⟩
        · rcases torn with empty | ⟨hit, member, shorter⟩
          · exact .inl empty
          · exact .inr ⟨hit, List.mem_cons_of_mem _ member, shorter⟩
        · rw [List.flatMap_cons, List.take_append, List.take_of_length_le whole, kept,
            List.take_succ_cons, List.flatMap_cons, List.append_assoc]
      · rename_i hit
        refine ⟨(encode item).take cut,
          .inr ⟨item, List.mem_cons_self, cut, Nat.lt_of_not_le hit, rfl⟩, ?_⟩
        rw [List.flatMap_cons, List.take_append_of_le_length (Nat.le_of_not_le hit)]
        simp

/-- Frames that end before the cut are kept. -/
theorem length_le_wholeWithin {first : List α} (second : List α) {cut : Nat}
    (before : (first.flatMap encode).length ≤ cut)
    : first.length ≤ wholeWithin encode cut (first ++ second) := by
  induction first generalizing cut with
  | nil => exact Nat.zero_le _
  | cons item rest ih =>
      rw [List.flatMap_cons, List.length_append] at before
      have whole : (encode item).length ≤ cut := by omega
      rw [List.cons_append, wholeWithin, if_pos whole]
      exact Nat.succ_le_succ (ih (by omega))

/-- The frame that holds a byte is the one behind the frames that end before it. -/
theorem locate_flatMap {items : List α} {position : Nat}
    (inside : position < (items.flatMap encode).length)
    : ∃ item rest,
        items.drop (wholeWithin encode position items) = item :: rest
        ∧ ((items.take (wholeWithin encode position items)).flatMap encode).length ≤ position
        ∧ position < ((items.take (wholeWithin encode position items)).flatMap encode).length
            + (encode item).length := by
  induction items generalizing position with
  | nil => exact absurd inside (Nat.not_lt_zero _)
  | cons item rest ih =>
      simp only [wholeWithin]
      split
      · rename_i whole
        rw [List.flatMap_cons, List.length_append] at inside
        obtain ⟨hit, later, behind, start, stop⟩ :=
          ih (show position - (encode item).length < (rest.flatMap encode).length by omega)
        refine ⟨hit, later, behind, ?_⟩
        rw [List.take_succ_cons, List.flatMap_cons, List.length_append]
        omega
      · rename_i hit
        exact ⟨item, rest, rfl, Nat.zero_le _, by simpa using Nat.lt_of_not_le hit⟩

end Foundation.TornLog
