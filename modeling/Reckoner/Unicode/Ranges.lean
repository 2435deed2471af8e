/-!
# Sets of characters given by ranges of code points

A character class of the Unicode standard is written as a list of ranges, first and last code
point included.
-/

namespace Reckoner.Unicode

/-- Ranges of code points, both ends included. -/
abbrev Ranges := List (Nat × Nat)

/-- The character lies in one of the ranges. -/
def Ranges.contains (ranges : Ranges) (c : Char) : Bool :=
  ranges.any fun r => r.1 ≤ c.toNat && c.toNat ≤ r.2

/-- No range of the one list meets a range of the other. -/
def Ranges.disjoint (rs ss : Ranges) : Bool :=
  rs.all fun r => ss.all fun s => r.2 < s.1 || s.2 < r.1

theorem Ranges.contains_iff {rs : Ranges} {c : Char} :
    rs.contains c = true ↔ ∃ r ∈ rs, r.1 ≤ c.toNat ∧ c.toNat ≤ r.2 := by
  simp [contains]

/-- A character is in at most one of two sets whose ranges do not meet. -/
theorem Ranges.not_contains_of_disjoint {rs ss : Ranges} (h : rs.disjoint ss = true) {c : Char}
    (hc : rs.contains c = true) : ss.contains c = false := by
  obtain ⟨r, hr, h1, h2⟩ := contains_iff.mp hc
  rw [← Bool.not_eq_true]
  intro hs
  obtain ⟨s, hs, h3, h4⟩ := contains_iff.mp hs
  simp only [disjoint, List.all_eq_true, Bool.or_eq_true, decide_eq_true_eq] at h
  have := h r hr s hs
  omega

end Reckoner.Unicode
