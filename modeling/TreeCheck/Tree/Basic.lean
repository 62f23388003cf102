import TreeCheck.Decimal.Binary64
import TreeCheck.NodeId

/-!
# The tree of a source file

A tree is what a parser hands on, kept as it is: parameters may repeat, a
variadic function may have none, and identifiers may be used twice.  There are
eleven kinds of node.  The six that occur in a slot of their own have a type of
their own; `Node` is any of the eleven.  `Node.children` lists the nodes directly
below a node in the order in which they are declared.
-/

namespace TreeCheck

/-- The value of a literal. -/
inductive LiteralValue where
  | null
  | bool (b : Bool)
  | int (i : Int64)
  | float (x : Binary64)
  | str (s : String)
  deriving DecidableEq

/-- A name bound by `let` keeps its value, one bound by `var` may be assigned
again. -/
inductive Binding where
  | constant
  | variable
  deriving DecidableEq, Repr

structure ModuleDeclaration where
  id : NodeId
  name : String
  deriving DecidableEq, Repr

structure ImportDeclaration where
  id : NodeId
  name : String
  deriving DecidableEq, Repr

mutual

/-- One source file: its module declaration if it has one, its imports and its
functions. -/
structure CompilationUnit where
  id : NodeId
  module : Option ModuleDeclaration
  imports : List ImportDeclaration
  functions : List FunctionDeclaration

/-- A function with a name.  A local one is visible in its own file only. -/
structure FunctionDeclaration where
  id : NodeId
  name : String
  isLocal : Bool
  function : Function

/-- What a declared function and a closure have in common.  The last parameter
of a variadic function takes all further arguments. -/
structure Function where
  id : NodeId
  parameters : List String
  variadic : Bool
  body : Option Block

structure Block where
  id : NodeId
  statements : List Node

/-- Any node of a tree. -/
inductive Node where
  | compilationUnit (u : CompilationUnit)
  | moduleDeclaration (m : ModuleDeclaration)
  | importDeclaration (i : ImportDeclaration)
  | functionDeclaration (d : FunctionDeclaration)
  | function (f : Function)
  | block (b : Block)
  | returnStatement (id : NodeId) (value : Option Node)
  | letOrVar (id : NodeId) (binding : Binding) (name : String) (value : Node)
  | reference (id : NodeId) (name : String)
  | literal (id : NodeId) (value : LiteralValue)
  | functionInvocation (id : NodeId) (name : String) (arguments : List Node)

end

/-- The kind of a node. -/
inductive NodeKind where
  | compilationUnit
  | moduleDeclaration
  | importDeclaration
  | functionDeclaration
  | function
  | block
  | returnStatement
  | letOrVar
  | reference
  | literal
  | functionInvocation
  deriving DecidableEq, Repr

def NodeKind.name : NodeKind → String
  | .compilationUnit => "CompilationUnit"
  | .moduleDeclaration => "ModuleDeclaration"
  | .importDeclaration => "ImportDeclaration"
  | .functionDeclaration => "FunctionDeclaration"
  | .function => "Function"
  | .block => "Block"
  | .returnStatement => "ReturnStatement"
  | .letOrVar => "LetOrVar"
  | .reference => "Reference"
  | .literal => "Literal"
  | .functionInvocation => "FunctionInvocation"

/-- All kinds, in the order of the type. -/
def NodeKind.all : List NodeKind :=
  [.compilationUnit, .moduleDeclaration, .importDeclaration, .functionDeclaration,
   .function, .block, .returnStatement, .letOrVar, .reference, .literal,
   .functionInvocation]

theorem NodeKind.mem_all (k : NodeKind) : k ∈ all := by
  cases k <;> decide

/-- Functions of one name differ by the number of their parameters. -/
def FunctionDeclaration.arity (d : FunctionDeclaration) : Nat :=
  d.function.parameters.length

/-- The parameter that takes all further arguments. -/
def Function.variadicParameter? (f : Function) : Option String :=
  if f.variadic then f.parameters.getLast? else none

namespace Node

def id : Node → NodeId
  | compilationUnit u => u.id
  | moduleDeclaration m => m.id
  | importDeclaration i => i.id
  | functionDeclaration d => d.id
  | function f => f.id
  | block b => b.id
  | returnStatement id _ => id
  | letOrVar id _ _ _ => id
  | reference id _ => id
  | literal id _ => id
  | functionInvocation id _ _ => id

def kind : Node → NodeKind
  | compilationUnit _ => .compilationUnit
  | moduleDeclaration _ => .moduleDeclaration
  | importDeclaration _ => .importDeclaration
  | functionDeclaration _ => .functionDeclaration
  | function _ => .function
  | block _ => .block
  | returnStatement _ _ => .returnStatement
  | letOrVar _ _ _ _ => .letOrVar
  | reference _ _ => .reference
  | literal _ _ => .literal
  | functionInvocation _ _ _ => .functionInvocation

/-- The nodes directly below a node, in the order of its slots. -/
def children : Node → List Node
  | compilationUnit u =>
    u.module.toList.map moduleDeclaration ++ u.imports.map importDeclaration ++
      u.functions.map functionDeclaration
  | functionDeclaration d => [function d.function]
  | function f => f.body.toList.map block
  | block b => b.statements
  | returnStatement _ value => value.toList
  | letOrVar _ _ _ value => [value]
  | functionInvocation _ _ arguments => arguments
  | moduleDeclaration _ | importDeclaration _ | reference _ _ | literal _ _ => []

end Node
end TreeCheck
