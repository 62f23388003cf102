import TreeCheck.Log.Level

/-!
# Filters of a log

A filter is a list of directives separated by commas.  A directive is a level, a
target, or a target and a level with `=` between them.  It concerns the targets that
start with its own, and a level alone concerns all.  A target alone takes every level.
Of the directives that concern a target the one with the longest target decides, and of
two with the same target the later.

A filter is read strictly, so that a part which is no directive spoils it, or leniently,
so that such a part is passed over.  Directives that name spans in brackets, and blanks
around a directive, are not read.
-/

namespace TreeCheck
namespace Log

/-- The levels that are taken of some targets. -/
structure Directive where
  /-- The start of the targets that are meant; empty for all targets. -/
  target : String
  /-- The least severe level that is taken; absent if none is. -/
  limit : Option Level
  deriving DecidableEq, Repr

namespace Directive

/-- The number that is written by these digits. -/
def numberOfDigits? (cs : List Char) : Option Nat :=
  if cs ≠ [] ∧ cs.all Char.isDigit then
    some (cs.foldl (fun n c => 10 * n + (c.toNat - '0'.toNat)) 0)
  else none

/-- The number that a text is; a plus sign may stand before it. -/
def number? (s : String) : Option Nat :=
  match s.toList with
  | '+' :: cs => numberOfDigits? cs
  | cs => numberOfDigits? cs

/-- Zero takes no level, and from one on the levels are counted from the most severe. -/
def limitOfNumber? : Nat → Option (Option Level)
  | 0 => some none
  | n + 1 => (Level.all[n]?).map some

/-- A level by its name or its number; `off` takes no level. -/
def limitOfName? (s : String) : Option (Option Level) :=
  if s.toUpper == "OFF" then some none
  else ((Level.ofName? s).map some).or ((number? s).bind limitOfNumber?)

/-- The limit after an equals sign.  If there is none, every level is taken. -/
def limitAfterTarget? (s : String) : Option (Option Level) :=
  if s = "" then some (some .trace) else limitOfName? s

/-- A directive starts with a letter, a digit or one of three marks.  Characters outside
ASCII count as letters. -/
def mayStart (c : Char) : Bool :=
  c.isAlphanum || c == '-' || c == ':' || c == '_' || decide (0x80 ≤ c.toNat)

/-- Reads a directive. -/
def ofText? (s : String) : Option Directive :=
  if s.toList.head?.any mayStart && !s.toList.contains '[' then
    match (s.toList.splitOn '=').map String.ofList with
    | [part] =>
      match limitOfName? part with
      | some limit => some ⟨"", limit⟩
      | none => some ⟨part, some .trace⟩
    | [target, level] => (limitAfterTarget? level).map (⟨target, ·⟩)
    | _ => none
  else none

def appliesTo (d : Directive) (target : String) : Bool :=
  d.target.toList.isPrefixOf target.toList

end Directive

/-- A filter is its directives. -/
structure Filter where
  directives : List Directive
  deriving DecidableEq, Repr

namespace Filter

/-- A filter without directives takes errors. -/
def ofDirectives : List Directive → Filter
  | [] => ⟨[⟨"", some .error⟩]⟩
  | ds => ⟨ds⟩

/-- The parts between commas.  Empty parts mean nothing. -/
def parts (s : String) : List String :=
  ((s.toList.splitOn ',').map String.ofList).filter (· ≠ "")

/-- Reads a filter strictly. -/
def ofText? (s : String) : Option Filter :=
  ((parts s).mapM Directive.ofText?).map ofDirectives

/-- Reads a filter leniently. -/
def ofText (s : String) : Filter := ofDirectives ((parts s).filterMap Directive.ofText?)

/-- The directive that decides about a target. -/
def directive? (f : Filter) (target : String) : Option Directive :=
  (f.directives.filter (·.appliesTo target)).foldl
    (fun best d =>
      match best with
      | some b => if b.target.length ≤ d.target.length then some d else some b
      | none => some d)
    none

/-- The filter takes entries with this target and level.  A target without a
directive is off. -/
def takes (f : Filter) (target : String) (l : Level) : Bool :=
  match (f.directive? target).bind Directive.limit with
  | some limit => limit.takes l
  | none => false

end Filter
end Log
end TreeCheck
