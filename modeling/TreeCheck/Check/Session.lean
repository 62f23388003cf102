import Std.Data.HashMap
import Std.Data.HashSet
import TreeCheck.Check.SemanticError
import TreeCheck.Log.Entry
import TreeCheck.Tree.Walk

/-!
# Checking a tree

A session follows a walk and remembers what it has met: identifiers, imports,
declared functions, and the name of a declaration whose function is still to
come.  It records an error where the node it comes to breaks a rule that is on.
Once the cap is reached further errors are dropped, but what is remembered stays
the same as without a cap.
-/

namespace TreeCheck
namespace Check

/-- The name that errors give to a function without a declaration. -/
def closureName : String := "<closure>"

/-- The state of a check. -/
structure Session where
  /-- The identifiers met so far. -/
  ids : Std.HashSet NodeId
  /-- The first import of every name. -/
  imports : Std.HashMap String NodeId
  /-- The first declaration of every name and number of parameters. -/
  functions : Std.HashMap (String × Nat) NodeId
  /-- The declaration that the next function belongs to. -/
  pendingName : Option String
  errors : Array SemanticError
  log : Array Log.Event

/-- The parameters that occur more than once, each once, in the order of their
second occurrences.  `seen` holds what stands before, `known` what is listed
already. -/
def repeatedAfter (seen known : Std.HashSet String) : List String → List String
  | [] => []
  | p :: ps =>
    if seen.contains p then
      if known.contains p then repeatedAfter seen known ps
      else p :: repeatedAfter seen (known.insert p) ps
    else repeatedAfter (seen.insert p) known ps

/-- The texts that occur more than once in a list, in the order of their second
occurrences. -/
def repeated (ps : List String) : List String := repeatedAfter ∅ ∅ ps

namespace Session

/-- Nothing has been met. -/
def fresh : Session := ⟨∅, ∅, ∅, none, #[], #[]⟩

def limitReached (o : Options) (s : Session) : Bool :=
  match o.errorLimit with
  | some limit => decide (limit ≤ s.errors.size)
  | none => false

/-- Records an error and logs it, unless the cap is reached. -/
def record (o : Options) (s : Session) (e : SemanticError) : Session :=
  if s.limitReached o then s
  else { s with errors := s.errors.push e, log := s.log.push (.recorded e) }

/-- Comes to a node of any kind. -/
def meetNode (o : Options) (s : Session) (id : NodeId) : Session :=
  if !o.duplicateNodeIds then s
  else if s.ids.contains id then s.record o (.duplicateNodeId id)
  else { s with ids := s.ids.insert id }

def meetImport (o : Options) (s : Session) (i : ImportDeclaration) : Session :=
  if !o.duplicateImports then s
  else
    match s.imports[i.name]? with
    | some previous => s.record o (.duplicateImport i.name i.id previous)
    | none => { s with imports := s.imports.insert i.name i.id }

/-- The name of a declaration is kept for its function in any case. -/
def meetDeclaration (o : Options) (s : Session) (d : FunctionDeclaration) : Session :=
  let s := { s with pendingName := some d.name }
  if !o.duplicateFunctions then s
  else
    match s.functions[(d.name, d.arity)]? with
    | some previous => s.record o (.duplicateFunction d.name d.arity d.id previous)
    | none => { s with functions := s.functions.insert (d.name, d.arity) d.id }

/-- What is wrong with the parameters of a function called `name`. -/
def parameterErrors (o : Options) (name : String) (f : Function) : List SemanticError :=
  (if o.variadicWithoutParameters && f.variadic && f.parameters.isEmpty then
    [.variadicWithoutParameters name f.id] else []) ++
  (if o.duplicateParameters then
    (repeated f.parameters).map fun p => .duplicateParameter name p f.id else [])

/-- A function takes the name that is kept; one that finds none is a closure. -/
def meetFunction (o : Options) (s : Session) (f : Function) : Session :=
  (parameterErrors o (s.pendingName.getD closureName) f).foldl (record o)
    { s with pendingName := none }

/-- Follows a walk by one signal. -/
def receive (o : Options) (s : Session) (g : Signal) : Session :=
  match g.phase, g.node with
  | .arrive, n => s.meetNode o n.id
  | .enter, .importDeclaration i => s.meetImport o i
  | .enter, .functionDeclaration d => s.meetDeclaration o d
  | .enter, .function f => s.meetFunction o f
  | _, _ => s

def follow (o : Options) (s : Session) (c : Call) : Session := c.signals.foldl (receive o) s

/-- Walks the tree and logs the end of the check. -/
def run (o : Options) (s : Session) (root : Node) : Session :=
  let s := s.follow o (.walk root)
  { s with log := s.log.push (.finished root.id s.errors.size) }

end Session

/-- The errors of a tree. -/
def errors (o : Options) (root : Node) : List SemanticError :=
  (Session.fresh.run o root).errors.toList

end Check
end TreeCheck
