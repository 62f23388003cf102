import TreeCheck.Check.SemanticError

/-!
# Failures

The reasons for which a run fails, and how each is reported.  Units are told
apart by their position among the units of the run, since the roots of different
units may have one identifier.
-/

namespace TreeCheck

/-- A unit with errors. -/
structure FailedUnit where
  /-- The position of the unit. -/
  index : Nat
  root : NodeId
  errors : List Check.SemanticError
  deriving DecidableEq, Repr

/-- The reason for which a run fails. -/
inductive Failure where
  /-- Some units have errors. -/
  | semantic (units : List FailedUnit)
  /-- There is no unit. -/
  | noInput
  /-- The log could not be set up. -/
  | logging (reason : String)
  deriving DecidableEq, Repr

/-- An error with the unit that holds it. -/
structure Diagnostic where
  index : Nat
  root : NodeId
  error : Check.SemanticError
  deriving DecidableEq, Repr

def Diagnostic.line (d : Diagnostic) : String :=
  "in unit " ++ d.index.repr ++ " (root #" ++ d.root.text ++ "): " ++ d.error.diagnostic ++ "\n"

def FailedUnit.diagnostics (u : FailedUnit) : List Diagnostic :=
  u.errors.map fun e => ⟨u.index, u.root, e⟩

namespace Failure

def message : Failure → String
  | semantic units => "semantic errors in " ++ units.length.repr ++ " compilation unit(s)"
  | noInput => "no compilation unit to check"
  | logging reason => "failed to install tracing subscriber: " ++ reason

/-- The semantic errors of all units, in the order of the units. -/
def semanticErrors : Failure → List Check.SemanticError
  | semantic units => units.flatMap FailedUnit.errors
  | noInput | logging _ => []

/-- The text that tells a user about the failure: a line for every semantic
error, or one line in general. -/
def report : Failure → String
  | semantic units => String.join ((units.flatMap FailedUnit.diagnostics).map Diagnostic.line)
  | f => "Error: " ++ f.message ++ "\n"

end Failure
end TreeCheck
