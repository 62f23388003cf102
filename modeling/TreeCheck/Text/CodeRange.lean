/-!
# Sets of code points

A set of characters is a list of inclusive ranges of code points.
-/

namespace TreeCheck
namespace Text

/-- An inclusive range of code points, as its ends. -/
abbrev CodeRange := Nat × Nat

/-- Some range of `rs` holds the code point of `c`. -/
def inRanges (rs : List CodeRange) (c : Char) : Bool :=
  rs.any fun r => decide (r.1 ≤ c.toNat) && decide (c.toNat ≤ r.2)

theorem inRanges_iff {rs : List CodeRange} {c : Char} :
    inRanges rs c = true ↔ ∃ r ∈ rs, r.1 ≤ c.toNat ∧ c.toNat ≤ r.2 := by
  simp [inRanges]

end Text
end TreeCheck
