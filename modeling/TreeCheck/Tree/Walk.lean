import TreeCheck.Tree.Fold

/-!
# Walking a tree

A walk gives four signals for every node.  The first and the last are the same
for all kinds of node, the second and the third are those of the node's kind.
The signals of the children stand between the second and the third, in the order
of `Node.children`.  Whoever follows a walk is a function from a state and a
signal to a state.
-/

namespace TreeCheck

/-- The moment of a walk at a node. -/
inductive Phase where
  /-- The walk comes to a node of any kind. -/
  | arrive
  /-- The walk enters a node of this kind. -/
  | enter
  /-- The walk leaves a node of this kind. -/
  | leave
  /-- The walk is done with a node of any kind. -/
  | depart
  deriving DecidableEq, Repr

/-- What a follower of a walk is told. -/
structure Signal where
  phase : Phase
  node : Node

/-- The signals of a walk of the whole tree. -/
def Node.signals : Node → List Signal :=
  Node.fold fun n below =>
    ⟨.arrive, n⟩ :: ⟨.enter, n⟩ :: (below.flatten ++ [⟨.leave, n⟩, ⟨.depart, n⟩])

theorem Node.signals_eq (n : Node) :
    n.signals =
      ⟨.arrive, n⟩ :: ⟨.enter, n⟩ ::
        (n.children.flatMap Node.signals ++ [⟨.leave, n⟩, ⟨.depart, n⟩]) := by
  unfold Node.signals
  rw [Node.fold_eq, List.flatMap_def]

/-- What can be done to a follower: a single signal, or a walk. -/
inductive Call where
  | signal (s : Signal)
  | walk (root : Node)

def Call.signals : Call → List Signal
  | .signal s => [s]
  | .walk root => root.signals

end TreeCheck
