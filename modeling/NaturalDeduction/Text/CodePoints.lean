/-
  NaturalDeduction.Text.CodePoints
  ────────────────────────────────
  Sets of characters given as tables of code-point ranges in ascending order.

  A look-up stops at the first range that lies above the code point, so the
  answer for a character of the basic alphabet takes a few steps whatever the
  size of the table.
-/

namespace NaturalDeduction

/-- Is the code point in one of the ranges?  The ranges are inclusive at both
ends and ascending. -/
def inRanges (code : Nat) : List (Nat × Nat) → Bool
  | [] => false
  | (low, high) :: rest =>
      if code < low then false else code ≤ high || inRanges code rest

/-- A code point that is found lies in a range of the table. -/
theorem exists_of_inRanges {code : Nat} :
    ∀ {ranges : List (Nat × Nat)}, inRanges code ranges = true →
      ∃ r ∈ ranges, r.1 ≤ code ∧ code ≤ r.2
  | [], h => by simp [inRanges] at h
  | (low, high) :: rest, h => by
      rw [inRanges] at h
      split at h
      · simp at h
      · next hlow =>
          simp only [Bool.or_eq_true, decide_eq_true_eq] at h
          rcases h with h | h
          · exact ⟨(low, high), by simp, by omega, h⟩
          · obtain ⟨r, hr, hin⟩ := exists_of_inRanges h
            exact ⟨r, by simp [hr], hin⟩

end NaturalDeduction
