import TrustLedger.Foundation.Machine

/-! Computations that draw random numbers and may stop without a result. The numbers are given
in advance, so what holds for every list of draws holds for every generator.
-/

namespace Foundation

/-- A computation that draws 64-bit numbers. -/
abbrev Chance := StateT (List U64) Option

namespace Chance

variable {α β σ : Type}

/-- The next draw; a source whose draws are used up gives zero. -/
def draw : Chance U64
  | [] => some (0, [])
  | next :: rest => some (next, rest)

def ofOption (value : Option α) : Chance α :=
  fun draws => value.map fun value => (value, draws)

/-- Whatever is drawn, the computation returns a value with `P`, or it stops, and that only if
it may.
-/
def Ends (may : Prop) (x : Chance α) (P : α → Prop) : Prop :=
  ∀ draws, (∃ value rest, x draws = some (value, rest) ∧ P value) ∨ x draws = none ∧ may

variable {may : Prop} {P Q : α → Prop} {value : α} {x : Chance α} {draws : List U64}

theorem ends_pure (holds : P value) : Ends may (pure value) P :=
  fun draws => .inl ⟨value, draws, rfl, holds⟩

theorem ends_draw {P : U64 → Prop} (holds : ∀ value, P value) : Ends may draw P := by
  intro draws
  cases draws with
  | nil => exact .inl ⟨0, [], rfl, holds 0⟩
  | cons next rest => exact .inl ⟨next, rest, rfl, holds next⟩

theorem ends_ofOption {value : Option α} (returned : ∀ a, value = some a → P a)
    (stopped : value = none → may)
    : Ends may (ofOption value) P := by
  intro draws
  cases value with
  | none => exact .inr ⟨rfl, stopped rfl⟩
  | some a => exact .inl ⟨a, draws, rfl, returned a rfl⟩

/-- A computation that may stop more often, with less known of what it returns. -/
theorem Ends.weaken {may' : Prop} (ends : Ends may x P) (stops : may → may')
    (weaker : ∀ value, P value → Q value)
    : Ends may' x Q := by
  intro draws
  rcases ends draws with ⟨value, rest, ran, holds⟩ | ⟨stopped, allowed⟩
  · exact .inl ⟨value, rest, ran, weaker value holds⟩
  · exact .inr ⟨stopped, stops allowed⟩

theorem Ends.mono (ends : Ends may x P) (weaker : ∀ value, P value → Q value) : Ends may x Q :=
  ends.weaken (fun allowed => allowed) weaker

theorem Ends.bind {f : α → Chance β} {Q : β → Prop} (first : Ends may x P)
    (later : ∀ value, P value → Ends may (f value) Q)
    : Ends may (x >>= f) Q := by
  intro draws
  rcases first draws with ⟨value, rest, ran, holds⟩ | ⟨stopped, allowed⟩
  · have continued : (x >>= f) draws = f value rest := by
      change Option.bind (x draws) _ = _
      rw [ran, Option.bind_some]
    rw [continued]
    exact later value holds rest
  · refine .inr ⟨?_, allowed⟩
    change Option.bind (x draws) _ = _
    rw [stopped, Option.bind_none]

/-- A loop keeps what each round keeps; the invariant may depend on what is still to do. -/
theorem ends_foldlM {step : σ → α → Chance σ} {I : List α → σ → Prop}
    (round : ∀ item rest s, I (item :: rest) s → Ends may (step s item) (I rest))
    {items : List α} {s : σ} (holds : I items s)
    : Ends may (items.foldlM step s) (I []) := by
  induction items generalizing s with
  | nil => exact ends_pure holds
  | cons item rest ih =>
      rw [List.foldlM_cons]
      exact (round item rest s holds).bind fun _ kept => ih kept

theorem Ends.returned (ends : Ends may x P) {rest : List U64} (ran : x draws = some (value, rest))
    : P value := by
  rcases ends draws with ⟨other, left, same, holds⟩ | ⟨stopped, -⟩
  · rw [ran] at same
    cases same
    exact holds
  · rw [ran] at stopped
    cases stopped

theorem Ends.stopped (ends : Ends may x P) (ran : x draws = none) : may := by
  rcases ends draws with ⟨value, rest, same, -⟩ | ⟨-, allowed⟩
  · rw [ran] at same
    cases same
  · exact allowed

end Chance

end Foundation
