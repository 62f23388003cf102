import TreeCheck.Decimal.Layout
import TreeCheck.Text.Quoted
import TreeCheck.Tree.Basic

/-!
# A node on one line

A node is shown as its kind, its identifier and its slots; of a child only the
identifier is shown.  `Node.slots` is all that the line shows besides kind and
identifier, so whatever has to treat the slots of a node one after another goes
through it.
-/

namespace TreeCheck

/-- What a slot of a node holds. -/
inductive SlotValue where
  | name (s : String)
  | names (ss : List String)
  | flag (b : Bool)
  | binding (b : Binding)
  | literal (v : LiteralValue)
  | child (id : Option NodeId)
  | children (ids : List NodeId)
  deriving DecidableEq

/-- A slot of a node with its label. -/
structure Slot where
  label : String
  value : SlotValue
  deriving DecidableEq

/-- The slots of a node in the order of declaration. -/
def Node.slots : Node → List Slot
  | .compilationUnit u =>
    [⟨"module", .child (u.module.map (·.id))⟩,
     ⟨"imports", .children (u.imports.map (·.id))⟩,
     ⟨"functions", .children (u.functions.map (·.id))⟩]
  | .moduleDeclaration m => [⟨"name", .name m.name⟩]
  | .importDeclaration i => [⟨"name", .name i.name⟩]
  | .functionDeclaration d =>
    [⟨"name", .name d.name⟩, ⟨"is_local", .flag d.isLocal⟩,
     ⟨"function", .child (some d.function.id)⟩]
  | .function f =>
    [⟨"parameters", .names f.parameters⟩, ⟨"variadic", .flag f.variadic⟩,
     ⟨"body", .child (f.body.map (·.id))⟩]
  | .block b => [⟨"statements", .children (b.statements.map Node.id)⟩]
  | .returnStatement _ value => [⟨"value", .child (value.map Node.id)⟩]
  | .letOrVar _ binding name value =>
    [⟨"binding", .binding binding⟩, ⟨"name", .name name⟩, ⟨"value", .child (some value.id)⟩]
  | .reference _ name => [⟨"name", .name name⟩]
  | .literal _ value => [⟨"value", .literal value⟩]
  | .functionInvocation _ name arguments =>
    [⟨"name", .name name⟩, ⟨"arguments", .children (arguments.map Node.id)⟩]

/-! ## The texts of slots -/

/-- Doubles are written positionally from `0.0001` up to below `10 ^ 16`. -/
def LiteralValue.floatLayout : Layout :=
  { positionalFrom := -4, positionalTo := 15, nan := "NaN", infinity := "inf" }

def LiteralValue.text : LiteralValue → String
  | .null => "null"
  | .bool true => "true"
  | .bool false => "false"
  | .int i => i.toInt.repr
  | .float x => x.text floatLayout
  | .str s => Text.quote s

def Binding.text : Binding → String
  | .constant => "let"
  | .variable => "var"

/-- A reference to a node, by its identifier. -/
def NodeId.mark (x : NodeId) : String := "#" ++ x.text

def SlotValue.text : SlotValue → String
  | .name s => Text.quote s
  | .names ss => Text.quoteList ss
  | .flag true => "true"
  | .flag false => "false"
  | .binding b => b.text
  | .literal v => v.text
  | .child none => "none"
  | .child (some id) => id.mark
  | .children ids => "[" ++ String.intercalate ", " (ids.map NodeId.mark) ++ "]"

/-- A slot stands after a comma, its label before its value. -/
def Slot.text (s : Slot) : String := ", " ++ s.label ++ "=" ++ s.value.text

/-- The line that shows a node. -/
def Node.line (n : Node) : String :=
  n.kind.name ++ "\x7bid=" ++ n.id.text ++ String.join (n.slots.map Slot.text) ++ "\x7d"

/-- The identifiers in the slots of a node are those of its children. -/
theorem Node.children_ids (n : Node) :
    n.children.map Node.id = n.slots.flatMap fun s =>
      match s.value with
      | .child id => id.toList
      | .children ids => ids
      | _ => [] := by
  cases n with
  | compilationUnit u => cases h : u.module <;> simp [children, slots, h, Function.comp_def, id]
  | function f => cases h : f.body <;> simp [children, slots, h, id]
  | returnStatement _ value => cases value <;> simp [children, slots]
  | _ => simp [children, slots, id]

end TreeCheck
