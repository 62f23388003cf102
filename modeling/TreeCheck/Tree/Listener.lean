import TreeCheck.Tree.Visit
import TreeCheck.Tree.Walk

/-!
# Listeners

A listener has hooks for nodes of any kind and hooks for every single kind; those it
does not set do nothing.  It walks a tree as a visitor whose handlers call the hooks
before and after they visit all children.  What it is told in this way are the signals
of the tree.
-/

namespace TreeCheck

variable {σ : Type}

/-- One hook for every kind of node. -/
structure Hooks (σ : Type) where
  compilationUnit : CompilationUnit → σ → σ := fun _ s => s
  moduleDeclaration : ModuleDeclaration → σ → σ := fun _ s => s
  importDeclaration : ImportDeclaration → σ → σ := fun _ s => s
  functionDeclaration : FunctionDeclaration → σ → σ := fun _ s => s
  function : Function → σ → σ := fun _ s => s
  block : Block → σ → σ := fun _ s => s
  returnStatement : NodeId → Option Node → σ → σ := fun _ _ s => s
  letOrVar : NodeId → Binding → String → Node → σ → σ := fun _ _ _ _ s => s
  reference : NodeId → String → σ → σ := fun _ _ s => s
  literal : NodeId → LiteralValue → σ → σ := fun _ _ s => s
  functionInvocation : NodeId → String → List Node → σ → σ := fun _ _ _ s => s

/-- Calls the hook for the kind of the node. -/
def Hooks.call (h : Hooks σ) : Node → σ → σ
  | .compilationUnit u => h.compilationUnit u
  | .moduleDeclaration d => h.moduleDeclaration d
  | .importDeclaration d => h.importDeclaration d
  | .functionDeclaration d => h.functionDeclaration d
  | .function f => h.function f
  | .block b => h.block b
  | .returnStatement id value => h.returnStatement id value
  | .letOrVar id binding name value => h.letOrVar id binding name value
  | .reference id name => h.reference id name
  | .literal id value => h.literal id value
  | .functionInvocation id name arguments => h.functionInvocation id name arguments

/-- Hooks that do not look at the kind of the node. -/
def Hooks.alike (hook : Node → σ → σ) : Hooks σ where
  compilationUnit u := hook (.compilationUnit u)
  moduleDeclaration d := hook (.moduleDeclaration d)
  importDeclaration d := hook (.importDeclaration d)
  functionDeclaration d := hook (.functionDeclaration d)
  function f := hook (.function f)
  block b := hook (.block b)
  returnStatement id value := hook (.returnStatement id value)
  letOrVar id binding name value := hook (.letOrVar id binding name value)
  reference id name := hook (.reference id name)
  literal id value := hook (.literal id value)
  functionInvocation id name arguments := hook (.functionInvocation id name arguments)

/-- A listener with the state `σ`. -/
structure Listener (σ : Type) where
  arrive : Node → σ → σ := fun _ s => s
  enter : Hooks σ := {}
  leave : Hooks σ := {}
  depart : Node → σ → σ := fun _ s => s

namespace Listener

/-- Calls the hook for a signal. -/
def receive (l : Listener σ) (s : σ) (g : Signal) : σ :=
  match g.phase with
  | .arrive => l.arrive g.node s
  | .enter => l.enter.call g.node s
  | .leave => l.leave.call g.node s
  | .depart => l.depart g.node s

/-- The handler of a walk for one kind of node, given the two hooks of that kind. -/
def around (l : Listener σ) (n : Node) (enter leave : σ → σ) (visits : List (StateM σ Unit)) :
    StateM σ Unit := do
  modify (l.arrive n)
  modify enter
  let _ ← runAll visits
  modify leave
  modify (l.depart n)

def handlers (l : Listener σ) : Handlers (StateM σ) Unit where
  compilationUnit u :=
    l.around (.compilationUnit u) (l.enter.compilationUnit u) (l.leave.compilationUnit u)
  moduleDeclaration d :=
    l.around (.moduleDeclaration d) (l.enter.moduleDeclaration d) (l.leave.moduleDeclaration d)
  importDeclaration d :=
    l.around (.importDeclaration d) (l.enter.importDeclaration d) (l.leave.importDeclaration d)
  functionDeclaration d :=
    l.around (.functionDeclaration d) (l.enter.functionDeclaration d)
      (l.leave.functionDeclaration d)
  function f := l.around (.function f) (l.enter.function f) (l.leave.function f)
  block b := l.around (.block b) (l.enter.block b) (l.leave.block b)
  returnStatement id value :=
    l.around (.returnStatement id value) (l.enter.returnStatement id value)
      (l.leave.returnStatement id value)
  letOrVar id binding name value :=
    l.around (.letOrVar id binding name value) (l.enter.letOrVar id binding name value)
      (l.leave.letOrVar id binding name value)
  reference id name :=
    l.around (.reference id name) (l.enter.reference id name) (l.leave.reference id name)
  literal id value :=
    l.around (.literal id value) (l.enter.literal id value) (l.leave.literal id value)
  functionInvocation id name arguments :=
    l.around (.functionInvocation id name arguments)
      (l.enter.functionInvocation id name arguments) (l.leave.functionInvocation id name arguments)

/-- A walk calls the two hooks of the node's own kind. -/
theorem handle_handlers (l : Listener σ) (n : Node) :
    l.handlers.handle n = l.around n (l.enter.call n) (l.leave.call n) := by
  cases n <;> rfl

/-- Walks a tree. -/
def walk (l : Listener σ) (root : Node) : StateM σ Unit := root.visit l.handlers

/-- Every follower of a walk is a listener, whose hooks for the kinds are all alike. -/
def ofFollower (receive : σ → Signal → σ) : Listener σ where
  arrive n s := receive s ⟨.arrive, n⟩
  enter := .alike fun n s => receive s ⟨.enter, n⟩
  leave := .alike fun n s => receive s ⟨.leave, n⟩
  depart n s := receive s ⟨.depart, n⟩

theorem receive_ofFollower (receive : σ → Signal → σ) :
    (ofFollower receive).receive = receive := by
  funext s ⟨phase, n⟩
  cases phase with
  | arrive | depart => rfl
  | enter | leave => cases n <;> rfl

end Listener
end TreeCheck
