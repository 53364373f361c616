import TrustLedger.Foundation.Bytes
import TrustLedger.Foundation.Fallible

/-! A byte source that may deliver less than asked for, be interrupted, or fail. How each call
goes is a schedule fixed in advance; a source whose schedule is used up delivers all it has.
-/

namespace Foundation

/-- How one call to a byte source goes. -/
inductive ReadStep (ε : Type) where
  /-- Deliver at most one byte more than `more`; nothing is delivered only at the end. -/
  | upto (more : Nat)
  | interrupted
  | failed (err : ε)
  deriving DecidableEq, Repr

/-- What a byte source still holds, and how its next calls go. -/
structure Reader (ε : Type) where
  bytes : Bytes
  schedule : List (ReadStep ε)
  deriving DecidableEq, Repr

namespace Reader

variable {ε : Type}

/-- No scheduled call fails; short reads and interruptions are allowed. -/
def Reliable (r : Reader ε) : Prop :=
  ∀ step ∈ r.schedule, ∀ err, step ≠ .failed err

/-- Fill a buffer of `want` bytes: a short read is topped up, an interrupted one repeated, and
a result shorter than `want` means the end. One scheduled call is one round of the loop; the
last round finds the schedule used up.
-/
def fill : List (ReadStep ε) → Bytes → Nat → EStateM.Result ε (Reader ε) Bytes
  | [], bytes, want => .ok (bytes.take want) ⟨bytes.drop want, []⟩
  | step :: later, bytes, want =>
      if want = 0 then .ok [] ⟨bytes, step :: later⟩
      else
        match step with
        | .failed err => .error err ⟨bytes, later⟩
        | .interrupted => fill later bytes want
        | .upto more =>
            let got := bytes.take (min want (more + 1))
            if got = [] then .ok [] ⟨bytes, later⟩
            else
              match fill later (bytes.drop got.length) (want - got.length) with
              | .ok filled r => .ok (got ++ filled) r
              | .error err r => .error err r

/-- A reliable source fills the buffer as far as its bytes reach. Witness: each round moves
the delivered bytes from the source to the buffer and leaves the rest of the schedule.
-/
theorem fill_reliable (schedule : List (ReadStep ε)) (bytes : Bytes) (want : Nat)
    (reliable : Reliable ⟨bytes, schedule⟩)
    : ∃ later, Reliable ⟨bytes.drop want, later⟩
        ∧ fill schedule bytes want = .ok (bytes.take want) ⟨bytes.drop want, later⟩ := by
  induction schedule generalizing bytes want with
  | nil => exact ⟨[], reliable, rfl⟩
  | cons step later ih =>
      have rest (left : Bytes) : Reliable ⟨left, later⟩ :=
        fun step there => reliable step (List.mem_cons_of_mem _ there)
      unfold fill
      by_cases none : want = 0
      · subst none
        exact ⟨step :: later, reliable, by simp⟩
      rw [if_neg none]
      cases step with
      | failed err => exact absurd rfl (reliable _ List.mem_cons_self err)
      | interrupted => exact ih bytes want (rest bytes)
      | upto more =>
          simp only
          split
          · -- an empty delivery is the end: the buffer asked for at least one byte
            rename_i empty
            obtain rfl : bytes = [] := by
              rcases List.take_eq_nil_iff.mp empty with zero | ended
              · omega
              · exact ended
            exact ⟨later, by simpa using rest [], by simp⟩
          · have short : (bytes.take (min want (more + 1))).length ≤ want := by
              rw [List.length_take]
              omega
            have sofar : bytes.take (min want (more + 1))
                = bytes.take (bytes.take (min want (more + 1))).length := by
              rw [List.length_take, List.take_eq_take_iff]
              omega
            -- from here on only the length of the delivery matters, not how it was cut
            generalize bytes.take (min want (more + 1)) = got at *
            obtain ⟨later', reliable', filled⟩ :=
              ih (bytes.drop got.length) (want - got.length) (rest _)
            have joined : got ++ (bytes.drop got.length).take (want - got.length)
                = bytes.take want := by
              refine (congrArg (· ++ _) sofar).trans ?_
              rw [← List.take_add, Nat.add_sub_cancel' short]
            rw [List.drop_drop, Nat.add_sub_cancel' short] at filled reliable'
            exact ⟨later', reliable', by simp only [filled, joined]⟩

end Reader

end Foundation
