import TreeCheck.Tree.Line
import TreeCheck.Tree.Walk

/-!
# The outline of a tree

An outline has one line for every node, in the order in which a walk comes to
the nodes.  A node stands two spaces further to the right than its parent.
-/

namespace TreeCheck

/-- An outline in the making: the text so far, and the number of nodes that the
walk has come to and is not done with. -/
structure Outline where
  text : String
  depth : Nat

namespace Outline

def empty : Outline := ⟨"", 0⟩

/-- The space before the line of a node below `depth` others.  Libraries that format
text may limit the width of a field to 65535, which would be passed below 32768
nodes; there is no such limit here. -/
def indent (depth : Nat) : String := String.ofList (List.replicate (2 * depth) ' ')

def addLine (o : Outline) (line : String) : Outline :=
  { o with text := o.text ++ indent o.depth ++ line ++ "\n" }

/-- Follows a walk by one signal.  The signals of the kinds change nothing. -/
def receive (o : Outline) (s : Signal) : Outline :=
  match s.phase with
  | .arrive => { o.addLine s.node.line with depth := o.depth + 1 }
  | .depart => { o with depth := o.depth - 1 }
  | .enter | .leave => o

def follow (o : Outline) (c : Call) : Outline := c.signals.foldl receive o

end Outline

/-- The outline of a whole tree. -/
def Node.outline (n : Node) : String := (Outline.empty.follow (.walk n)).text

end TreeCheck
