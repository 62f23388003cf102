import TreeCheck.Tree.Fold
import TreeCheck.Tree.Line

/-!
# Equality of trees

Two trees are equal as values when they agree in kind, identifier and slots at
every position.  Doubles are compared as numbers, so a tree that holds a NaN
differs from itself, and trees that differ in the sign of a zero are equal.
-/

namespace TreeCheck

def LiteralValue.ieeeEq : LiteralValue → LiteralValue → Bool
  | .float x, .float y => x.ieeeEq y
  | v, w => v == w

def SlotValue.ieeeEq : SlotValue → SlotValue → Bool
  | .literal v, .literal w => v.ieeeEq w
  | v, w => v == w

def Slot.ieeeEq (s t : Slot) : Bool := s.label == t.label && s.value.ieeeEq t.value

/-- The lists have one length and are related entry by entry. -/
def allPairs {α γ : Type} (r : α → γ → Bool) : List α → List γ → Bool
  | [], [] => true
  | a :: as, c :: cs => r a c && allPairs r as cs
  | _, _ => false

/-- The nodes agree in all but what lies below them. -/
def Node.rootEq (n m : Node) : Bool :=
  n.kind == m.kind && n.id == m.id && allPairs Slot.ieeeEq n.slots m.slots

/-- Equality of trees with doubles compared as numbers. -/
def Node.ieeeEq : Node → Node → Bool :=
  Node.fold fun n below m => n.rootEq m && allPairs (fun test c => test c) below m.children

theorem allPairs_map {α γ δ : Type} (r : δ → γ → Bool) (f : α → δ) (as : List α)
    (cs : List γ) : allPairs r (as.map f) cs = allPairs (fun a c => r (f a) c) as cs := by
  induction as generalizing cs with
  | nil => cases cs <;> rfl
  | cons a as ih => cases cs <;> simp [allPairs, ih]

theorem Node.ieeeEq_eq (n m : Node) :
    n.ieeeEq m = (n.rootEq m && allPairs Node.ieeeEq n.children m.children) := by
  unfold Node.ieeeEq
  rw [Node.fold_eq, allPairs_map]

end TreeCheck
