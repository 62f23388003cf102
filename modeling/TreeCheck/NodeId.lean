/-!
# Node identifiers

A node of a tree carries a 32-bit number.  The number serves diagnostics and
associations between nodes; nothing here requires it to be unique.  Identifiers
are ordered as their numbers are, which `le_iff` and `lt_iff` state in `Nat`.
-/

namespace TreeCheck

/-- The identifier of a node. -/
structure NodeId where
  raw : UInt32
  deriving DecidableEq, Hashable, Repr, Inhabited

namespace NodeId

def toNat (x : NodeId) : Nat := x.raw.toNat

/-- The identifier with the number `n`, when `n` fits into 32 bits. -/
def ofNat? (n : Nat) : Option NodeId :=
  if n < UInt32.size then some ⟨UInt32.ofNat n⟩ else none

instance : LE NodeId := ⟨fun x y => x.toNat ≤ y.toNat⟩

instance : LT NodeId := ⟨fun x y => x.toNat < y.toNat⟩

instance (x y : NodeId) : Decidable (x ≤ y) := inferInstanceAs (Decidable (x.toNat ≤ y.toNat))

instance (x y : NodeId) : Decidable (x < y) := inferInstanceAs (Decidable (x.toNat < y.toNat))

theorem le_iff {x y : NodeId} : x ≤ y ↔ x.toNat ≤ y.toNat := Iff.rfl

theorem lt_iff {x y : NodeId} : x < y ↔ x.toNat < y.toNat := Iff.rfl

theorem toNat_lt (x : NodeId) : x.toNat < UInt32.size := x.raw.toNat_lt

theorem toNat_inj {x y : NodeId} : x.toNat = y.toNat ↔ x = y := by
  cases x; cases y; simp [toNat, UInt32.toNat_inj]

/-- Every identifier is recovered from its number. -/
theorem ofNat?_toNat (x : NodeId) : ofNat? x.toNat = some x := by
  rw [ofNat?, if_pos x.toNat_lt]
  simp [toNat]

theorem toNat_of_ofNat? {n : Nat} {x : NodeId} (h : ofNat? n = some x) : x.toNat = n := by
  unfold ofNat? at h
  split at h
  · next hn => cases h; simpa [toNat] using Nat.mod_eq_of_lt hn
  · cases h

/-- The identifier that follows `x`; the greatest one has no successor. -/
def succ? (x : NodeId) : Option NodeId := ofNat? (x.toNat + 1)

/-- An identifier is written as its decimal number. -/
def text (x : NodeId) : String := x.toNat.repr

/-! ## Collections of identifiers -/

/-- The identifiers in ascending order, repetitions kept. -/
def sorted (xs : List NodeId) : List NodeId := xs.mergeSort fun x y => decide (x ≤ y)

/-- Sorting loses no identifier and adds none. -/
theorem sorted_perm (xs : List NodeId) : (sorted xs).Perm xs := List.mergeSort_perm xs _

/-- The sorted identifiers ascend. -/
theorem sorted_pairwise (xs : List NodeId) : (sorted xs).Pairwise (· ≤ ·) := by
  have trans : ∀ x y z : NodeId, decide (x ≤ y) = true → decide (y ≤ z) = true →
      decide (x ≤ z) = true := fun x y z hxy hyz =>
    decide_eq_true (Nat.le_trans (of_decide_eq_true hxy) (of_decide_eq_true hyz))
  have total : ∀ x y : NodeId, (decide (x ≤ y) || decide (y ≤ x)) = true := fun x y => by
    rw [Bool.or_eq_true, decide_eq_true_eq, decide_eq_true_eq]
    exact Nat.le_total x.toNat y.toNat
  exact (List.pairwise_mergeSort trans total xs).imp of_decide_eq_true

/-- The number of different identifiers in a list. -/
def distinctCount (xs : List NodeId) : Nat := xs.eraseDups.length

def least? (xs : List NodeId) : Option NodeId := (sorted xs).head?

def greatest? (xs : List NodeId) : Option NodeId := (sorted xs).getLast?

end NodeId
end TreeCheck
