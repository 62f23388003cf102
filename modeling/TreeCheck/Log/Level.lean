/-!
# Levels of log entries

Five levels from the most to the least severe.  A limit takes a level and all
that are more severe.
-/

namespace TreeCheck
namespace Log

/-- The severity of a log entry. -/
inductive Level where
  | error
  | warn
  | info
  | debug
  | trace
  deriving DecidableEq, Repr

namespace Level

/-- All levels, the most severe first. -/
def all : List Level := [error, warn, info, debug, trace]

/-- The place of a level, the most severe first. -/
def rank : Level → Nat
  | error => 0
  | warn => 1
  | info => 2
  | debug => 3
  | trace => 4

def name : Level → String
  | error => "ERROR"
  | warn => "WARN"
  | info => "INFO"
  | debug => "DEBUG"
  | trace => "TRACE"

/-- The level of this name, in letters of either case. -/
def ofName? (s : String) : Option Level :=
  all.find? fun l => l.name == s.toUpper

/-- A limit of `limit` takes entries of level `l`. -/
def takes (limit l : Level) : Bool := decide (l.rank ≤ limit.rank)

theorem takes_self (l : Level) : l.takes l = true := by
  cases l <;> rfl

theorem takes_trans {a b c : Level} (hab : a.takes b = true) (hbc : b.takes c = true) :
    a.takes c = true := by
  simp only [takes, decide_eq_true_eq] at *
  exact Nat.le_trans hbc hab

end Level
end Log
end TreeCheck
