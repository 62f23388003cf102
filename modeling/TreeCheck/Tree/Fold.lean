import TreeCheck.Tree.Basic

/-!
# Recursion over trees

`Node.fold f` combines a tree from below: `f` receives a node and the results of
its children, in the order of `Node.children`.  The equation `fold_eq` states
this for all kinds at once, and `Node.induction` is the matching principle of
proof, so no other definition or proof has to go through the kinds of node to
reach the children.
-/

namespace TreeCheck

variable {β : Type}

mutual

/-- Combines a tree from the results of its subtrees. -/
def Node.fold (f : Node → List β → β) : Node → β
  | .compilationUnit u => u.fold f
  | .moduleDeclaration m => f (.moduleDeclaration m) []
  | .importDeclaration i => f (.importDeclaration i) []
  | .functionDeclaration d => d.fold f
  | .function g => g.fold f
  | .block b => b.fold f
  | .returnStatement id value => f (.returnStatement id value) (Node.foldOption f value)
  | .letOrVar id binding name value => f (.letOrVar id binding name value) [value.fold f]
  | .reference id name => f (.reference id name) []
  | .literal id value => f (.literal id value) []
  | .functionInvocation id name arguments =>
    f (.functionInvocation id name arguments) (Node.foldList f arguments)

def Node.foldList (f : Node → List β → β) : List Node → List β
  | [] => []
  | n :: ns => n.fold f :: Node.foldList f ns

def Node.foldOption (f : Node → List β → β) : Option Node → List β
  | none => []
  | some n => [n.fold f]

def CompilationUnit.fold (f : Node → List β → β) : CompilationUnit → β
  | ⟨id, module, imports, functions⟩ =>
    f (.compilationUnit ⟨id, module, imports, functions⟩)
      (module.toList.map (fun m => f (.moduleDeclaration m) []) ++
        imports.map (fun i => f (.importDeclaration i) []) ++
        FunctionDeclaration.foldList f functions)

def FunctionDeclaration.foldList (f : Node → List β → β) : List FunctionDeclaration → List β
  | [] => []
  | d :: ds => d.fold f :: FunctionDeclaration.foldList f ds

def FunctionDeclaration.fold (f : Node → List β → β) : FunctionDeclaration → β
  | ⟨id, name, isLocal, function⟩ =>
    f (.functionDeclaration ⟨id, name, isLocal, function⟩) [function.fold f]

def Function.fold (f : Node → List β → β) : Function → β
  | ⟨id, parameters, variadic, body⟩ =>
    f (.function ⟨id, parameters, variadic, body⟩) (Block.foldOption f body)

def Block.foldOption (f : Node → List β → β) : Option Block → List β
  | none => []
  | some b => [b.fold f]

def Block.fold (f : Node → List β → β) : Block → β
  | ⟨id, statements⟩ => f (.block ⟨id, statements⟩) (Node.foldList f statements)

end

/-! ## The lists of results -/

theorem Node.foldList_eq (f : Node → List β → β) (ns : List Node) :
    Node.foldList f ns = ns.map (Node.fold f) := by
  induction ns with
  | nil => rfl
  | cons n ns ih => simp [Node.foldList, ih]

theorem Node.foldOption_eq (f : Node → List β → β) (n : Option Node) :
    Node.foldOption f n = n.toList.map (Node.fold f) := by
  cases n <;> rfl

theorem FunctionDeclaration.foldList_eq (f : Node → List β → β)
    (ds : List FunctionDeclaration) :
    FunctionDeclaration.foldList f ds = ds.map (FunctionDeclaration.fold f) := by
  induction ds with
  | nil => rfl
  | cons d ds ih => simp [FunctionDeclaration.foldList, ih]

theorem Block.foldOption_eq (f : Node → List β → β) (b : Option Block) :
    Block.foldOption f b = b.toList.map (Block.fold f) := by
  cases b <;> rfl

/-- A fold applies its function to the root and to the folds of the children. -/
theorem Node.fold_eq (f : Node → List β → β) (n : Node) :
    n.fold f = f n (n.children.map (Node.fold f)) := by
  cases n with
  | compilationUnit u =>
    obtain ⟨id, module, imports, functions⟩ := u
    simp only [Node.fold, CompilationUnit.fold, FunctionDeclaration.foldList_eq,
      Node.children, List.map_append, List.map_map]
    rfl
  | moduleDeclaration m => rfl
  | importDeclaration i => rfl
  | functionDeclaration d => obtain ⟨id, name, isLocal, function⟩ := d; rfl
  | function g =>
    obtain ⟨id, parameters, variadic, body⟩ := g
    simp only [Node.fold, Function.fold, Block.foldOption_eq, Node.children, List.map_map]
    rfl
  | block b =>
    obtain ⟨id, statements⟩ := b
    simp only [Node.fold, Block.fold, Node.foldList_eq, Node.children]
  | returnStatement id value =>
    simp only [Node.fold, Node.foldOption_eq, Node.children]
  | letOrVar id binding name value => rfl
  | reference id name => rfl
  | literal id value => rfl
  | functionInvocation id name arguments =>
    simp only [Node.fold, Node.foldList_eq, Node.children]

/-! ## Induction

The count of the nodes below and including a node is larger than the count of
each child, which carries every proof by induction over trees. -/

/-- The sum of a list of numbers. -/
def total (ns : List Nat) : Nat := ns.foldr (· + ·) 0

/-- The number of nodes of a tree. -/
def Node.count : Node → Nat := Node.fold fun _ counts => total counts + 1

@[simp] theorem total_cons (n : Nat) (ns : List Nat) : total (n :: ns) = n + total ns := rfl

theorem Node.count_eq (n : Node) : n.count = total (n.children.map Node.count) + 1 := by
  unfold Node.count
  rw [Node.fold_eq]

theorem Node.count_le_total {c : Node} {ns : List Node} (h : c ∈ ns) :
    c.count ≤ total (ns.map Node.count) := by
  induction ns with
  | nil => cases h
  | cons n ns ih =>
    rw [List.map_cons, total_cons]
    rcases List.mem_cons.mp h with rfl | h
    · exact Nat.le_add_right _ _
    · exact Nat.le_trans (ih h) (Nat.le_add_left _ _)

theorem Node.count_child_lt {n c : Node} (h : c ∈ n.children) : c.count < n.count := by
  rw [n.count_eq]
  exact Nat.lt_succ_of_le (Node.count_le_total h)

/-- A property holds of every tree if it passes from the children of a node to
the node. -/
theorem Node.induction {P : Node → Prop}
    (step : ∀ n : Node, (∀ c ∈ n.children, P c) → P n) (n : Node) : P n :=
  step n fun c _ => Node.induction step c
termination_by n.count
decreasing_by exact Node.count_child_lt (by assumption)

/-- The nodes of a tree, each before those below it. -/
def Node.preorder : Node → List Node := Node.fold fun n below => n :: below.flatten

theorem Node.preorder_eq (n : Node) :
    n.preorder = n :: n.children.flatMap Node.preorder := by
  unfold Node.preorder
  rw [Node.fold_eq, List.flatMap_def]

theorem Node.length_preorder (n : Node) : n.preorder.length = n.count := by
  induction n using Node.induction with
  | step n ih =>
    have below : ∀ ns : List Node, (∀ c ∈ ns, c.preorder.length = c.count) →
        (ns.flatMap Node.preorder).length = total (ns.map Node.count) := by
      intro ns h
      induction ns with
      | nil => rfl
      | cons c ns ihs =>
        rw [List.flatMap_cons, List.length_append, h c List.mem_cons_self,
          ihs fun d hd => h d (List.mem_cons_of_mem c hd), List.map_cons, total_cons]
    rw [n.preorder_eq, n.count_eq, List.length_cons, below n.children ih]

end TreeCheck
