import TreeCheck.Failure
import TreeCheck.Log.Line
import TreeCheck.Settings

/-!
# Setting up a log

A process has at most one subscriber to its log.  The filter comes from the
environment if one is set there, also to nothing, and can be read, and from the
settings otherwise.  What is set up once stays.
-/

namespace TreeCheck
namespace Log

/-- The subscriber of a process, once there is one. -/
structure Subscriber where
  filter? : Option Filter

namespace Subscriber

def absent : Subscriber := ⟨none⟩

/-- The filter that a set-up asks for.  That of the environment is read strictly, and
that of the settings leniently. -/
def requestedFilter (environment : Option String) (settings : Settings) : Filter :=
  (environment.bind Filter.ofText?).getD (Filter.ofText settings.logFilter)

/-- Sets up a subscriber, which fails where there is one. -/
def install (environment : Option String) (settings : Settings) (s : Subscriber) :
    Except Failure Unit × Subscriber :=
  match s.filter? with
  | none => (.ok (), ⟨some (requestedFilter environment settings)⟩)
  | some _ =>
    (.error (.logging "a global default trace dispatcher has already been set"), s)

/-- Tries to set up a subscriber a number of times. -/
def installTimes (environment : Option String) (settings : Settings) :
    Nat → Subscriber → List (Except Failure Unit) × Subscriber
  | 0, s => ([], s)
  | n + 1, s =>
    let first := install environment settings s
    let others := installTimes environment settings n first.2
    (first.1 :: others.1, others.2)

/-- The lines that the subscriber writes of a log. -/
def written (s : Subscriber) (entries : List Entry) : List String :=
  match s.filter? with
  | some f => lines f none entries
  | none => []

end Subscriber
end Log
end TreeCheck
