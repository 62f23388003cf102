import TreeCheck.Decimal.Binary64

/-!
# The shortest decimal of a double

The decimals that read back as a double `x` are those in an interval around `x`.
Among them the ones on the coarsest grid of multiples of a power of ten have the
fewest digits, and on that grid the nearest to `x` is taken.  All comparisons
are between natural numbers: both sides are multiplied until no power has a
negative exponent.
-/

namespace TreeCheck

/-- The number `coefficient * 10 ^ exponent`. -/
structure Decimal where
  coefficient : Nat
  exponent : Int
  deriving DecidableEq, Repr

/-- An interval of positive reals around a middle, in units of `2 ^ scale`. -/
structure RoundingInterval where
  low : Nat
  mid : Nat
  high : Nat
  scale : Int
  /-- The ends belong to the interval. -/
  closed : Bool
  deriving DecidableEq, Repr

/-- The magnitudes that round to the magnitude of `x`.  They end half way to its
neighbours.  Below a power of two the neighbour is at half the distance, except
below the least normal number.  An end rounds to the even significand. -/
def Binary64.roundingInterval (x : Binary64) : RoundingInterval :=
  { low := 4 * x.significand - (if x.fraction = 0 ∧ 1 < x.biasedExponent then 1 else 2)
    mid := 4 * x.significand
    high := 4 * x.significand + 2
    scale := x.exponent - 2
    closed := x.significand % 2 == 0 }

namespace RoundingInterval

/-- `n * 2 ^ scale` counted in multiples of `10 ^ k`, up to the factor `step`. -/
def stretch (i : RoundingInterval) (k : Int) (n : Nat) : Nat :=
  (n <<< i.scale.toNat) * Nat.pow 10 (-k).toNat

/-- The factor that keeps `stretch` a natural number. -/
def step (i : RoundingInterval) (k : Int) : Nat :=
  (1 <<< (-i.scale).toNat) * Nat.pow 10 k.toNat

/-- The interval holds `d * 10 ^ k`. -/
def holds (i : RoundingInterval) (k : Int) (d : Nat) : Bool :=
  let x := d * i.step k
  if i.closed then decide (i.stretch k i.low ≤ x) && decide (x ≤ i.stretch k i.high)
  else decide (i.stretch k i.low < x) && decide (x < i.stretch k i.high)

/-- The multiple of `10 ^ k` in the interval that is nearest to its middle.  Only
the two neighbours of the middle have to be tried.  Half way between them the
upper one is taken. -/
def nearest? (i : RoundingInterval) (k : Int) : Option Nat :=
  let below := i.stretch k i.mid / i.step k
  let excess := i.stretch k i.mid % i.step k
  match i.holds k below, i.holds k (below + 1) with
  | true, true => some (if 2 * excess < i.step k then below else below + 1)
  | true, false => some below
  | false, true => some (below + 1)
  | false, false => none

/-- The nearest point on the coarsest grid that has one in the interval.  The
`n` grids tried start with the multiples of `10 ^ k`, and each is ten times finer
than the one before. -/
def coarsest (i : RoundingInterval) : Nat → Int → Decimal
  | 0, k => ⟨i.stretch k i.mid / i.step k, k⟩
  | n + 1, k =>
    match i.nearest? k with
    | some d => ⟨d, k⟩
    | none => i.coarsest n (k - 1)

/-! ## The search finds a decimal that reads back -/

/-- The nearest point of a grid is in the interval. -/
theorem holds_of_nearest? {i : RoundingInterval} {k : Int} {d : Nat}
    (h : i.nearest? k = some d) : i.holds k d = true := by
  simp only [nearest?] at h
  split at h
  · next h₀ h₁ => split at h <;> (cases h; assumption)
  · next h₀ h₁ => cases h; exact h₀
  · next h₀ h₁ => cases h; exact h₁
  · cases h

/-- A grid on which the lower neighbour of the middle is in the interval has a
nearest point. -/
theorem nearest?_isSome {i : RoundingInterval} {k : Int}
    (h : i.holds k (i.stretch k i.mid / i.step k) = true) : (i.nearest? k).isSome = true := by
  simp only [nearest?, h]
  cases i.holds k (i.stretch k i.mid / i.step k + 1) <;> rfl

/-- The search ends in the interval if one of the grids that it tries has a point
there. -/
theorem coarsest_holds {i : RoundingInterval} {n j : Nat} {k : Int} (hj : j < n)
    (h : (i.nearest? (k - j)).isSome = true) :
    i.holds (i.coarsest n k).exponent (i.coarsest n k).coefficient = true := by
  induction n generalizing j k with
  | zero => cases hj
  | succ n ih =>
    unfold coarsest
    cases hk : i.nearest? k with
    | some d => exact holds_of_nearest? hk
    | none =>
      cases j with
      | zero =>
        have hz : k - ((0 : Nat) : Int) = k := by omega
        rw [hz, hk] at h
        cases h
      | succ j =>
        have hs : k - 1 - (j : Int) = k - ((j + 1 : Nat) : Int) := by omega
        exact ih (Nat.lt_of_succ_lt_succ hj) (hs ▸ h)

/-- A grid is dense enough when its step is not larger than one unit of the
interval. -/
theorem nearest?_isSome_of_step_le {i : RoundingInterval} {k : Int} (hlow : i.low < i.mid)
    (hhigh : i.mid < i.high) (hstep : i.step k ≤ Nat.pow 10 (-k).toNat) :
    (i.nearest? k).isSome = true := by
  have hstretch : ∀ n, i.stretch k n = n * (2 ^ i.scale.toNat * Nat.pow 10 (-k).toNat) :=
    fun n => by rw [stretch, Nat.shiftLeft_eq, Nat.mul_assoc]
  have htwo : 0 < 2 ^ i.scale.toNat := Nat.two_pow_pos _
  have hunit := Nat.le_trans hstep (Nat.le_mul_of_pos_left (Nat.pow 10 (-k).toNat) htwo)
  have hpos : 0 < i.step k :=
    Nat.mul_pos (Nat.one_shiftLeft _ ▸ Nat.two_pow_pos _) (Nat.pow_pos (by decide))
  have hbelow : i.stretch k i.low + i.step k ≤ i.stretch k i.mid := by
    have h := Nat.mul_le_mul_right (2 ^ i.scale.toNat * Nat.pow 10 (-k).toNat) hlow
    rw [Nat.succ_mul] at h
    rw [hstretch, hstretch]
    exact Nat.le_trans (Nat.add_le_add_left hunit _) h
  have habove : i.stretch k i.mid < i.stretch k i.high := by
    rw [hstretch, hstretch]
    exact Nat.mul_lt_mul_of_pos_right hhigh (Nat.lt_of_lt_of_le hpos hunit)
  have hmod := Nat.mod_lt (i.stretch k i.mid) hpos
  have hdiv := Nat.div_add_mod (i.stretch k i.mid) (i.step k)
  rw [Nat.mul_comm] at hdiv
  have hlt : i.stretch k i.low < i.stretch k i.mid / i.step k * i.step k := by omega
  have hle : i.stretch k i.mid / i.step k * i.step k < i.stretch k i.high := by omega
  apply nearest?_isSome
  unfold holds
  cases i.closed <;> simp [hlt, hle, Nat.le_of_lt hlt, Nat.le_of_lt hle]

end RoundingInterval

/-- The decimal with the fewest digits that reads back as the magnitude of a
finite double other than zero, and of those the nearest.  No double reaches
`10 ^ 309`, and the multiples of `10 ^ -324` lie densely enough for all. -/
def Binary64.shortest (x : Binary64) : Decimal :=
  x.roundingInterval.coarsest 634 309

/-- The shortest decimal of a double rounds to the double. -/
theorem Binary64.shortest_holds (x : Binary64) (h : x.significand ≠ 0) :
    x.roundingInterval.holds x.shortest.exponent x.shortest.coefficient = true := by
  have hlast : (309 : Int) - ((633 : Nat) : Int) = -324 := by decide
  have hcoarse : (-324 : Int).toNat = 0 := by decide
  have hscale : (-x.roundingInterval.scale).toNat ≤ 1076 := by
    simp only [roundingInterval, exponent]
    omega
  have hlow : x.roundingInterval.low < x.roundingInterval.mid := by
    simp only [roundingInterval]
    split <;> omega
  have hhigh : x.roundingInterval.mid < x.roundingInterval.high := by
    simp only [roundingInterval]
    omega
  refine RoundingInterval.coarsest_holds (j := 633) (by decide) ?_
  rw [hlast]
  refine RoundingInterval.nearest?_isSome_of_step_le hlow hhigh ?_
  rw [RoundingInterval.step, hcoarse, Nat.one_shiftLeft]
  exact Nat.le_trans (Nat.mul_le_mul_right _ (Nat.pow_le_pow_right (by decide) hscale))
    (by decide +kernel)

end TreeCheck
