/-!
# Code point ranges

A character class given as a table of code point ranges `(first, last)`, both ends included,
in increasing order. A code point is in the class when some range holds it.
-/

namespace QueryFilters.Text

/-- Some range of the table holds the code point. -/
def inRanges (ranges : List (Nat × Nat)) (n : Nat) : Bool :=
  ranges.any fun r => r.1 ≤ n && n ≤ r.2

theorem inRanges_iff (ranges : List (Nat × Nat)) (n : Nat) :
    inRanges ranges n = true ↔ ∃ r ∈ ranges, r.1 ≤ n ∧ n ≤ r.2 := by
  simp [inRanges]

@[simp] theorem inRanges_nil (n : Nat) : inRanges [] n = false := rfl

theorem inRanges_cons (r : Nat × Nat) (rest : List (Nat × Nat)) (n : Nat) :
    inRanges (r :: rest) n = ((r.1 ≤ n && n ≤ r.2) || inRanges rest n) := rfl

end QueryFilters.Text
