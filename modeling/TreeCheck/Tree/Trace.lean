import TreeCheck.Tree.Visit

/-!
# A visitor that records itself

The handlers of this visitor note which of them ran, on what node and how deep
in the visit.  A plan says which kinds of node are not entered and from which end
the children of a node are visited.  A handler counts itself and all that ran
below it.
-/

namespace TreeCheck

/-- How a recording visit goes on below a node. -/
structure VisitPlan where
  /-- The kinds of node whose children are not visited. -/
  stops : List NodeKind
  /-- The last child is visited first. -/
  backwards : Bool

/-- One run of a handler. -/
structure Firing where
  /-- The kind of node that the handler is for. -/
  handler : NodeKind
  kind : NodeKind
  node : NodeId
  depth : Nat
  deriving DecidableEq, Repr

/-- The state of a recording visit. -/
structure Recording where
  firings : Array Firing
  depth : Nat

namespace Recording

def empty : Recording := ⟨#[], 0⟩

def note (handler : NodeKind) (n : Node) (r : Recording) : Recording :=
  { r with firings := r.firings.push ⟨handler, n.kind, n.id, r.depth⟩ }

def descend (r : Recording) : Recording := { r with depth := r.depth + 1 }

def ascend (r : Recording) : Recording := { r with depth := r.depth - 1 }

end Recording

namespace VisitPlan

/-- The visits of the children in the order of the plan. -/
def arrange {α : Type} (p : VisitPlan) (visits : List α) : List α :=
  if p.backwards then visits.reverse else visits

/-- What the handler for nodes of kind `handler` does. -/
def record (p : VisitPlan) (handler : NodeKind) (n : Node)
    (visits : List (StateM Recording Nat)) : StateM Recording Nat := do
  modify (Recording.note handler n)
  if n.kind ∈ p.stops then
    pure 1
  else
    modify Recording.descend
    let results ← runAll (p.arrange visits)
    modify Recording.ascend
    pure (1 + total results)

def handlers (p : VisitPlan) : Handlers (StateM Recording) Nat where
  compilationUnit u := p.record .compilationUnit (.compilationUnit u)
  moduleDeclaration d := p.record .moduleDeclaration (.moduleDeclaration d)
  importDeclaration d := p.record .importDeclaration (.importDeclaration d)
  functionDeclaration d := p.record .functionDeclaration (.functionDeclaration d)
  function f := p.record .function (.function f)
  block b := p.record .block (.block b)
  returnStatement id value := p.record .returnStatement (.returnStatement id value)
  letOrVar id binding name value := p.record .letOrVar (.letOrVar id binding name value)
  reference id name := p.record .reference (.reference id name)
  literal id value := p.record .literal (.literal id value)
  functionInvocation id name arguments :=
    p.record .functionInvocation (.functionInvocation id name arguments)

/-- Every node goes to the handler of its own kind. -/
theorem handle_handlers (p : VisitPlan) (n : Node) :
    p.handlers.handle n = p.record n.kind n := by
  cases n <;> rfl

end VisitPlan

/-- Visits a tree and records it. -/
def Node.trace (p : VisitPlan) (n : Node) : Nat × Recording :=
  (n.visit p.handlers).run .empty

/-- Visits the children of a node, the first one first at the root itself. -/
def Node.traceChildren (p : VisitPlan) (n : Node) : List Nat × Recording :=
  (runAll (n.visits p.handlers)).run .empty

end TreeCheck
