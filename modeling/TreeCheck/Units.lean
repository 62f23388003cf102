import TreeCheck.Check.Session
import TreeCheck.Failure
import TreeCheck.Settings

/-!
# Checking the units of a run

Every unit is checked on its own, whatever names and identifiers it shares with
others.  A run fails if there is no unit, or if a unit has errors; it then tells
which units these are.
-/

namespace TreeCheck

/-- The name of the unit in the log. -/
def CompilationUnit.moduleName (u : CompilationUnit) : String :=
  match u.module with
  | some m => m.name
  | none => "<anonymous>"

/-- A result with the log of what led to it. -/
structure Outcome (α : Type) where
  result : α
  log : List Log.Entry

namespace Units

def span (index : Nat) (u : CompilationUnit) : Log.Span := ⟨index, u.id, u.moduleName⟩

/-- Checks the unit at a position. -/
def examine (o : Check.Options) (index : Nat) (u : CompilationUnit) :
    Outcome (Option FailedUnit) :=
  let session := Check.Session.fresh.run o (.compilationUnit u)
  let errors := session.errors.toList
  let events := session.log.toList ++ if errors.isEmpty then [.clean] else []
  { result := if errors.isEmpty then none else some ⟨index, u.id, errors⟩
    log := .opened (span index u) :: .entered (span index u) ::
      (events.map .event ++ [.exited (span index u)]) }

/-- Checks units one after another, the first of them at position `start`. -/
def examineFrom (o : Check.Options) (start : Nat) :
    List CompilationUnit → Outcome (List FailedUnit)
  | [] => ⟨[], []⟩
  | u :: us =>
    let first := examine o start u
    let others := examineFrom o (start + 1) us
    ⟨first.result.toList ++ others.result, first.log ++ others.log⟩

end Units

/-- Checks all units of a run. -/
def checkUnits (settings : Settings) (units : List CompilationUnit) :
    Outcome (Except Failure Unit) :=
  match units with
  | [] => ⟨.error .noInput, []⟩
  | us =>
    let outcome := Units.examineFrom settings.check 0 us
    ⟨if outcome.result.isEmpty then .ok () else .error (.semantic outcome.result), outcome.log⟩

/-- Checks a run of one unit. -/
def checkUnit (settings : Settings) (u : CompilationUnit) : Outcome (Except Failure Unit) :=
  checkUnits settings [u]

end TreeCheck
