/-!
# The rules of a check

A check applies five rules to a tree, each of which can be switched off, and
stops reporting after a number of errors if a cap is set.  The cap in force is at
least one, so a tree with errors is never reported as clean.
-/

namespace TreeCheck
namespace Check

/-- What a check can object to. -/
inductive Rule where
  | variadicWithoutParameters
  | duplicateParameter
  | duplicateFunction
  | duplicateImport
  | duplicateNodeId
  deriving DecidableEq, Repr

/-- The rules that are on, and the number of errors to stop at as it was asked
for. -/
structure Options where
  variadicWithoutParameters : Bool := true
  duplicateParameters : Bool := true
  duplicateFunctions : Bool := true
  duplicateImports : Bool := true
  duplicateNodeIds : Bool := true
  maxErrors : Option Nat := none
  deriving DecidableEq, Repr

namespace Options

/-- All rules, without a cap. -/
def all : Options := {}

/-- No rule. -/
def permissive : Options :=
  { variadicWithoutParameters := false
    duplicateParameters := false
    duplicateFunctions := false
    duplicateImports := false
    duplicateNodeIds := false }

def isOn (o : Options) : Rule → Bool
  | .variadicWithoutParameters => o.variadicWithoutParameters
  | .duplicateParameter => o.duplicateParameters
  | .duplicateFunction => o.duplicateFunctions
  | .duplicateImport => o.duplicateImports
  | .duplicateNodeId => o.duplicateNodeIds

/-- Asks for a cap of `n` errors, of one when `n` is zero. -/
def withMaxErrors (o : Options) (n : Nat) : Options := { o with maxErrors := some (max n 1) }

/-- The cap in force. -/
def errorLimit (o : Options) : Option Nat := o.maxErrors.map (max · 1)

theorem isOn_all (r : Rule) : all.isOn r = true := by
  cases r <;> rfl

theorem isOn_permissive (r : Rule) : permissive.isOn r = false := by
  cases r <;> rfl

theorem errorLimit_pos {o : Options} {n : Nat} (h : o.errorLimit = some n) : 0 < n := by
  obtain ⟨m, _, rfl⟩ := Option.map_eq_some_iff.mp h
  exact Nat.le_max_right m 1

theorem errorLimit_eq_none {o : Options} (h : o.maxErrors = none) : o.errorLimit = none := by
  rw [errorLimit, h, Option.map_none]

theorem errorLimit_withMaxErrors (o : Options) (n : Nat) :
    (o.withMaxErrors n).errorLimit = some (max n 1) := by
  simp [withMaxErrors, errorLimit]

end Options
end Check
end TreeCheck
