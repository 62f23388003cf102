import TreeCheck.Check.Options

/-!
# Settings

What a run is configured with: the options of the checks, and the filter of the
log where the environment gives none that can be read.
-/

namespace TreeCheck

structure Settings where
  check : Check.Options := .all
  logFilter : String := "warn"
  deriving DecidableEq, Repr

namespace Settings

/-- All rules without a cap, and a log of warnings and errors. -/
def standard : Settings := {}

def withCheck (s : Settings) (o : Check.Options) : Settings := { s with check := o }

def withLogFilter (s : Settings) (filter : String) : Settings := { s with logFilter := filter }

end Settings
end TreeCheck
