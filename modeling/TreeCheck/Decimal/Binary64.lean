/-!
# Binary64 numbers

A double is kept as its 64 bits: a sign, eleven bits of exponent and 52 bits of
fraction.  A finite one is `significand * 2 ^ exponent` up to its sign.  The bits
tell apart what comparison does not (the two zeros), and comparison tells apart
what the bits do not (a NaN from itself), so both relations are given: `=` and
`ieeeEq`.
-/

namespace TreeCheck

/-- A double, by its bits. -/
structure Binary64 where
  bits : UInt64
  deriving DecidableEq, Repr, Inhabited

namespace Binary64

def isNegative (x : Binary64) : Bool := x.bits.toNat.testBit 63

def biasedExponent (x : Binary64) : Nat := (x.bits.toNat >>> 52) % (1 <<< 11)

def fraction (x : Binary64) : Nat := x.bits.toNat % (1 <<< 52)

def isNaN (x : Binary64) : Bool := x.biasedExponent == 2047 && x.fraction != 0

def isInfinite (x : Binary64) : Bool := x.biasedExponent == 2047 && x.fraction == 0

def isZero (x : Binary64) : Bool := x.biasedExponent == 0 && x.fraction == 0

/-- The integer significand.  A normal number has a leading one that its bits do
not show. -/
def significand (x : Binary64) : Nat :=
  if x.biasedExponent = 0 then x.fraction else (1 <<< 52) + x.fraction

/-- The power of two that scales the significand.  Subnormal numbers share the
least one with the smallest normal numbers. -/
def exponent (x : Binary64) : Int := (max x.biasedExponent 1 : Nat) - 1075

/-- Comparison of doubles: a NaN equals nothing, the two zeros are equal, and
otherwise numbers are equal when their bits are. -/
def ieeeEq (x y : Binary64) : Bool :=
  !x.isNaN && !y.isNaN && (x == y || x.isZero && y.isZero)

theorem ieeeEq_self (x : Binary64) : x.ieeeEq x = !x.isNaN := by
  simp [ieeeEq]

theorem ieeeEq_symm (x y : Binary64) : x.ieeeEq y = y.ieeeEq x := by
  simp only [ieeeEq, Bool.and_comm x.isZero, BEq.comm (a := x)]
  cases x.isNaN <;> cases y.isNaN <;> rfl

theorem ieeeEq_trans {x y z : Binary64} (hxy : x.ieeeEq y = true) (hyz : y.ieeeEq z = true) :
    x.ieeeEq z = true := by
  simp only [ieeeEq, Bool.and_eq_true, Bool.or_eq_true, beq_iff_eq] at *
  obtain ⟨⟨hx, _⟩, rfl | ⟨hx0, _⟩⟩ := hxy
  · exact hyz
  · obtain ⟨⟨_, hz⟩, rfl | ⟨_, hz0⟩⟩ := hyz
    · exact ⟨⟨hx, hz⟩, Or.inr ⟨hx0, by assumption⟩⟩
    · exact ⟨⟨hx, hz⟩, Or.inr ⟨hx0, hz0⟩⟩

end Binary64
end TreeCheck
