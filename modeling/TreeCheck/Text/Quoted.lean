import TreeCheck.Text.DefaultIgnorable
import TreeCheck.Text.GraphemeExtend
import TreeCheck.Text.Printable

/-!
# Quoted text

A text is shown between double quotes on one line.  A quote, a backslash and
every character that would not show as itself is written as an escape, so the
quoted form holds no line break, and every quote in it except the enclosing two
follows a backslash.
-/

namespace TreeCheck
namespace Text

/-- The code point of a character in braces after `\u`, in hexadecimal with small
letters and without leading zeros. -/
def numericEscape (c : Char) : List Char :=
  '\\' :: 'u' :: '{' :: (Nat.toDigits 16 c.toNat ++ ['}'])

/-- The character that stands after the backslash, for the characters that have
a short escape. -/
def shortEscape? : Char → Option Char
  | '"' => some '"'
  | '\\' => some '\\'
  | '\t' => some 't'
  | '\r' => some 'r'
  | '\n' => some 'n'
  | '\x00' => some '0'
  | _ => none

/-- The character is seen as itself wherever it stands. -/
def showsAsItself (c : Char) : Bool :=
  isPrintable c && !isCombining c && !isDefaultIgnorable c

/-- A character as it stands in a quoted text. -/
def escape (c : Char) : List Char :=
  match shortEscape? c with
  | some e => ['\\', e]
  | none => if showsAsItself c then [c] else numericEscape c

def escapeAll (cs : List Char) : List Char := cs.flatMap escape

/-- A text between double quotes. -/
def quote (s : String) : String :=
  String.ofList ('"' :: (escapeAll s.toList ++ ['"']))

/-- A list of texts, each quoted, in square brackets. -/
def quoteList (ss : List String) : String :=
  "[" ++ String.intercalate ", " (ss.map quote) ++ "]"

@[simp] theorem escapeAll_nil : escapeAll [] = [] := rfl

@[simp] theorem escapeAll_cons (c : Char) (cs : List Char) :
    escapeAll (c :: cs) = escape c ++ escapeAll cs := rfl

theorem escapeAll_append (cs ds : List Char) :
    escapeAll (cs ++ ds) = escapeAll cs ++ escapeAll ds := List.flatMap_append

end Text
end TreeCheck
