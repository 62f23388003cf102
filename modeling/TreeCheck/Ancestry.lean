import Std.Data.HashMap
import TreeCheck.Tree.Walk

/-!
# Parents and ancestors

Nodes do not know their parents.  An ancestry is built by a walk and answers for
an identifier which node is above it.  Where an identifier is used more than
once, the last node that carries it counts; the parents may then form a cycle,
so a list of ancestors is cut after as many entries as there are identifiers
with a parent.
-/

namespace TreeCheck

/-- The parent of every identifier that has one, and the root. -/
structure Ancestry where
  parents : Std.HashMap NodeId NodeId
  root : Option NodeId

namespace Ancestry

/-- No tree has been walked. -/
def empty : Ancestry := ⟨∅, none⟩

def parent? (a : Ancestry) (x : NodeId) : Option NodeId := a.parents[x]?

/-- The number of identifiers with a parent. -/
def size (a : Ancestry) : Nat := a.parents.size

def isEmpty (a : Ancestry) : Bool := a.parents.isEmpty

/-- Follows parents from `x` on, `x` included, for at most `n` steps. -/
def chain (a : Ancestry) : Nat → Option NodeId → List NodeId
  | 0, _ => []
  | _, none => []
  | n + 1, some x => x :: a.chain n (a.parent? x)

/-- The ancestors of `x`, its parent first. -/
def ancestors (a : Ancestry) (x : NodeId) : List NodeId := a.chain a.size (a.parent? x)

/-! ## Building from a walk -/

/-- An ancestry in the making, with the nodes that the walk is below, the
nearest first. -/
structure Builder where
  ancestry : Ancestry
  above : List NodeId

namespace Builder

def empty : Builder := ⟨.empty, []⟩

/-- A node that has nothing above it is the root. -/
def arrive (b : Builder) (x : NodeId) : Builder :=
  match b.above with
  | [] => ⟨{ b.ancestry with root := some x }, [x]⟩
  | p :: ps => ⟨{ b.ancestry with parents := b.ancestry.parents.insert x p }, x :: p :: ps⟩

def receive (b : Builder) (s : Signal) : Builder :=
  match s.phase with
  | .arrive => b.arrive s.node.id
  | .depart => { b with above := b.above.tail }
  | .enter | .leave => b

end Builder

/-- The ancestry of a tree. -/
def ofTree (root : Node) : Ancestry := (root.signals.foldl Builder.receive .empty).ancestry

end Ancestry
end TreeCheck
