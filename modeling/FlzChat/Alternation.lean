/-
Sequences of two events in turn.
-/
import Mathlib.Data.List.Chain

namespace FlzChat

/-- `true` and `false` in turn, starting with `true`. -/
structure Alternates (l : List Bool) : Prop where
  starts : l.head? ≠ some false
  turns : l.IsChain (· ≠ ·)

instance : DecidablePred Alternates := fun l =>
  decidable_of_iff (l.head? ≠ some false ∧ l.IsChain (· ≠ ·))
    ⟨fun h => ⟨h.1, h.2⟩, fun h => ⟨h.starts, h.turns⟩⟩

theorem alternates_nil : Alternates [] :=
  ⟨by simp, List.isChain_nil⟩

/-- The next event is `true` unless `true` came last. -/
theorem Alternates.append_one {l : List Bool} (hl : Alternates l) {b : Bool}
    (hb : b = true ↔ l.getLast? ≠ some true) : Alternates (l ++ [b]) := by
  refine ⟨?_, hl.turns.append (List.isChain_singleton b) ?_⟩
  · cases l with
    | nil =>
        have : b = true := hb.mpr (by simp)
        simp [this]
    | cons x l => exact hl.starts
  · intro x hx y hy hxy
    rw [List.head?_singleton, Option.mem_some_iff] at hy
    subst hxy hy
    cases b with
    | true => exact hb.mp rfl hx
    | false =>
        have hnot : l.getLast? ≠ some true := by
          rw [Option.mem_def.mp hx]
          simp
        exact absurd (hb.mpr hnot) (by simp)

end FlzChat
