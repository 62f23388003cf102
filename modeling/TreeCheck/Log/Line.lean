import TreeCheck.Log.Entry
import TreeCheck.Log.Filter
import TreeCheck.Text.Quoted

/-!
# A log as lines of text

Each event that a filter takes is a line: its level, the span it occurs in, its
target, its message and its fields.  A span that the filter does not take is not
shown.  In messages the characters that could steer a terminal are escaped.
-/

namespace TreeCheck
namespace Log

/-- A value in a line: names are quoted. -/
def Value.shown : Value → String
  | .text s => Text.quote s
  | .number n => n.repr

def Field.shown (f : Field) : String := f.label ++ "=" ++ f.value.shown

/-- Bell, backspace, form feed, escape and delete are written by two hexadecimal
digits, and the controls from U+0080 to U+009F by their number in braces. -/
def terminalSafe (c : Char) : List Char :=
  match c with
  | '\x07' => ['\\', 'x', '0', '7']
  | '\x08' => ['\\', 'x', '0', '8']
  | '\x0c' => ['\\', 'x', '0', 'c']
  | '\x1b' => ['\\', 'x', '1', 'b']
  | '\x7f' => ['\\', 'x', '7', 'f']
  | c => if 0x80 ≤ c.toNat ∧ c.toNat ≤ 0x9f then Text.numericEscape c else [c]

def Span.shown (s : Span) : String :=
  Span.name ++ "\x7b" ++ String.intercalate " " (s.fields.map Field.shown) ++ "\x7d: "

def Event.shown (e : Event) : String :=
  e.target ++ ": " ++ String.ofList (e.message.toList.flatMap terminalSafe) ++
    String.join (e.fields.map fun f => " " ++ f.shown)

/-- The line of an event inside a span. -/
def line (inside : Option Span) (e : Event) : String :=
  e.level.name ++ " " ++ (inside.map Span.shown).getD "" ++ e.shown

/-- The lines of a log under a filter, from inside a span that is taken, or from
outside. -/
def lines (f : Filter) : Option Span → List Entry → List String
  | _, [] => []
  | inside, .opened _ :: es => lines f inside es
  | _, .entered s :: es => lines f (if f.takes Span.target Span.level then some s else none) es
  | inside, .event e :: es =>
    if f.takes e.target e.level then line inside e :: lines f inside es
    else lines f inside es
  | _, .exited _ :: es => lines f none es

end Log
end TreeCheck
