import TreeCheck.Tree.Fold

/-!
# Visiting a tree

A visitor has one handler for every kind of node.  A handler receives its node
and the visits of the node's children, one for each child and not yet run, and
decides which of them it runs and in which order.  `visit_eq` states that a visit
runs the handler of the root's kind.
-/

namespace TreeCheck

/-- A visitor with results in `α` and effects in `m`. -/
structure Handlers (m : Type → Type) (α : Type) where
  compilationUnit : CompilationUnit → List (m α) → m α
  moduleDeclaration : ModuleDeclaration → List (m α) → m α
  importDeclaration : ImportDeclaration → List (m α) → m α
  functionDeclaration : FunctionDeclaration → List (m α) → m α
  function : Function → List (m α) → m α
  block : Block → List (m α) → m α
  returnStatement : NodeId → Option Node → List (m α) → m α
  letOrVar : NodeId → Binding → String → Node → List (m α) → m α
  reference : NodeId → String → List (m α) → m α
  literal : NodeId → LiteralValue → List (m α) → m α
  functionInvocation : NodeId → String → List Node → List (m α) → m α

variable {m : Type → Type} {α : Type}

/-- Gives a node to the handler of its kind. -/
def Handlers.handle (h : Handlers m α) : Node → List (m α) → m α
  | .compilationUnit u => h.compilationUnit u
  | .moduleDeclaration d => h.moduleDeclaration d
  | .importDeclaration d => h.importDeclaration d
  | .functionDeclaration d => h.functionDeclaration d
  | .function f => h.function f
  | .block b => h.block b
  | .returnStatement id value => h.returnStatement id value
  | .letOrVar id binding name value => h.letOrVar id binding name value
  | .reference id name => h.reference id name
  | .literal id value => h.literal id value
  | .functionInvocation id name arguments => h.functionInvocation id name arguments

/-- Visits a tree from its root. -/
def Node.visit (h : Handlers m α) : Node → m α := Node.fold h.handle

/-- The visits of the children of a node, in the order of declaration. -/
def Node.visits (h : Handlers m α) (n : Node) : List (m α) := n.children.map (Node.visit h)

theorem Node.visit_eq (h : Handlers m α) (n : Node) : n.visit h = h.handle n (n.visits h) :=
  Node.fold_eq h.handle n

/-- Runs visits one after another and keeps their results. -/
def runAll [Monad m] : List (m α) → m (List α)
  | [] => pure []
  | v :: vs => do
    let result ← v
    let results ← runAll vs
    pure (result :: results)

end TreeCheck
