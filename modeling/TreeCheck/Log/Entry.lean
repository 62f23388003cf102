import TreeCheck.Check.SemanticError
import TreeCheck.Log.Level

/-!
# Log entries

While units are checked, a log tells what happens: a span is opened and entered
for every unit, events occur inside it, and it is left at the end of the unit.
What can occur is a closed list; level, target and fields of each entry follow
from what it is.
-/

namespace TreeCheck
namespace Log

/-- The value of a field of a span or event. -/
inductive Value where
  /-- A text that is data, such as a name. -/
  | text (s : String)
  /-- A number. -/
  | number (n : Nat)

/-- The value as it is, without quotes. -/
def Value.plain : Value → String
  | .text s => s
  | .number n => n.repr

/-- A field of a span or event. -/
structure Field where
  label : String
  value : Value

/-- The part of the program that checks units. -/
def unitsTarget : String := "golo_front::analyzing"

/-- The part of the program that checks one tree. -/
def checkTarget : String := "analyzer::checker"

/-- The span of one unit: its position, the identifier of its root and the name
of its module. -/
structure Span where
  index : Nat
  root : NodeId
  module : String
  deriving DecidableEq, Repr

namespace Span

def name : String := "check_unit"

def level : Level := .info

def target : String := unitsTarget

def fields (s : Span) : List Field :=
  [⟨"index", .number s.index⟩, ⟨"root", .number s.root.toNat⟩, ⟨"module", .text s.module⟩]

end Span

/-- What can happen during a check. -/
inductive Event where
  /-- An error was recorded. -/
  | recorded (error : Check.SemanticError)
  /-- A tree was checked, with this number of errors. -/
  | finished (root : NodeId) (errors : Nat)
  /-- A unit has no errors. -/
  | clean
  deriving DecidableEq, Repr

namespace Event

def level : Event → Level
  | recorded _ => .warn
  | finished _ _ => .debug
  | clean => .info

def target : Event → String
  | recorded _ => checkTarget
  | finished _ _ => checkTarget
  | clean => unitsTarget

def message : Event → String
  | recorded error => error.message
  | finished _ _ => "semantic check finished"
  | clean => "unit is clean"

/-- The fields besides the message. -/
def fields : Event → List Field
  | recorded error => [⟨"node", .number error.node.toNat⟩]
  | finished root errors => [⟨"root", .number root.toNat⟩, ⟨"errors", .number errors⟩]
  | clean => []

end Event

/-- An entry of a log. -/
inductive Entry where
  | opened (s : Span)
  | entered (s : Span)
  | event (e : Event)
  | exited (s : Span)
  deriving DecidableEq, Repr

/-- All entries of a span have the level of the span. -/
def Entry.level : Entry → Level
  | .opened _ => Span.level
  | .entered _ => Span.level
  | .event e => e.level
  | .exited _ => Span.level

/-- What a subscriber is told when it takes an entry: what a span is called and
carries when it is made, its name alone when it is entered or left, and all of an
event. -/
inductive Seen where
  | span (name : String) (level : Level) (target : String) (fields : List (String × String))
  | enter (name : String)
  | event (level : Level) (target message : String) (fields : List (String × String))
  | exit (name : String)
  deriving DecidableEq, Repr

def Field.seen (f : Field) : String × String := (f.label, f.value.plain)

def Entry.seen : Entry → Seen
  | .opened s => .span Span.name Span.level Span.target (s.fields.map Field.seen)
  | .entered _ => .enter Span.name
  | .event e => .event e.level e.target e.message (e.fields.map Field.seen)
  | .exited _ => .exit Span.name

/-- The entries that a limit takes. -/
def visible (limit : Level) (entries : List Entry) : List Entry :=
  entries.filter fun e => limit.takes e.level

end Log
end TreeCheck
