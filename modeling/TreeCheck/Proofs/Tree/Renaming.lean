import Mathlib.Logic.Embedding.Basic
import TreeCheck.Check.Session
import TreeCheck.Proofs.Tree.Placement

/-!
# Renaming in a tree

A renaming gives other identifiers to the nodes of a tree, and other names to its imports,
to its declared functions and to their parameters.  Different ones stay different, and the
name under which closures are known stays that of closures.  All else in the tree is left as
it is: the names of modules, variables, references and calls, and the literals.

`Node.placements_rename` states that the nodes of the renamed tree are the renamed nodes at
the same places.
-/

namespace TreeCheck

/-- New identifiers and names for old ones. -/
structure Renaming where
  id : NodeId ↪ NodeId
  imported : String ↪ String
  declared : String ↪ String
  parameter : String ↪ String
  declared_closureName : declared Check.closureName = Check.closureName

def ModuleDeclaration.rename (f : Renaming) (m : ModuleDeclaration) : ModuleDeclaration :=
  { m with id := f.id m.id }

def ImportDeclaration.rename (f : Renaming) (i : ImportDeclaration) : ImportDeclaration :=
  ⟨f.id i.id, f.imported i.name⟩

mutual

def Node.rename (f : Renaming) : Node → Node
  | .compilationUnit u => .compilationUnit (u.rename f)
  | .moduleDeclaration m => .moduleDeclaration (m.rename f)
  | .importDeclaration i => .importDeclaration (i.rename f)
  | .functionDeclaration d => .functionDeclaration (d.rename f)
  | .function g => .function (g.rename f)
  | .block b => .block (b.rename f)
  | .returnStatement id value => .returnStatement (f.id id) (Node.renameOption f value)
  | .letOrVar id binding name value => .letOrVar (f.id id) binding name (value.rename f)
  | .reference id name => .reference (f.id id) name
  | .literal id value => .literal (f.id id) value
  | .functionInvocation id name arguments =>
    .functionInvocation (f.id id) name (Node.renameList f arguments)

def Node.renameList (f : Renaming) : List Node → List Node
  | [] => []
  | n :: ns => n.rename f :: Node.renameList f ns

def Node.renameOption (f : Renaming) : Option Node → Option Node
  | none => none
  | some n => some (n.rename f)

def CompilationUnit.rename (f : Renaming) : CompilationUnit → CompilationUnit
  | ⟨id, module, imports, functions⟩ =>
    ⟨f.id id, module.map (ModuleDeclaration.rename f), imports.map (ImportDeclaration.rename f),
      FunctionDeclaration.renameList f functions⟩

def FunctionDeclaration.renameList (f : Renaming) :
    List FunctionDeclaration → List FunctionDeclaration
  | [] => []
  | d :: ds => d.rename f :: FunctionDeclaration.renameList f ds

def FunctionDeclaration.rename (f : Renaming) : FunctionDeclaration → FunctionDeclaration
  | ⟨id, name, isLocal, function⟩ => ⟨f.id id, f.declared name, isLocal, function.rename f⟩

def Function.rename (f : Renaming) : Function → Function
  | ⟨id, parameters, variadic, body⟩ =>
    ⟨f.id id, parameters.map f.parameter, variadic, Block.renameOption f body⟩

def Block.renameOption (f : Renaming) : Option Block → Option Block
  | none => none
  | some b => some (b.rename f)

def Block.rename (f : Renaming) : Block → Block
  | ⟨id, statements⟩ => ⟨f.id id, Node.renameList f statements⟩

end

def Placement.rename (f : Renaming) (p : Placement) : Placement :=
  ⟨p.node.rename f, p.above.map (Node.rename f)⟩

variable (f : Renaming)

theorem Node.renameList_eq (ns : List Node) : Node.renameList f ns = ns.map (Node.rename f) := by
  induction ns with
  | nil => rfl
  | cons n ns ih => simp [Node.renameList, ih]

theorem Node.renameOption_eq (n : Option Node) :
    Node.renameOption f n = n.map (Node.rename f) := by
  cases n <;> rfl

theorem FunctionDeclaration.renameList_eq (ds : List FunctionDeclaration) :
    FunctionDeclaration.renameList f ds = ds.map (FunctionDeclaration.rename f) := by
  induction ds with
  | nil => rfl
  | cons d ds ih => simp [FunctionDeclaration.renameList, ih]

theorem Block.renameOption_eq (b : Option Block) :
    Block.renameOption f b = b.map (Block.rename f) := by
  cases b <;> rfl

/-! ## One node -/

theorem CompilationUnit.rename_eq (u : CompilationUnit) :
    u.rename f =
      ⟨f.id u.id, u.module.map (ModuleDeclaration.rename f),
        u.imports.map (ImportDeclaration.rename f),
        u.functions.map (FunctionDeclaration.rename f)⟩ := by
  obtain ⟨id, module, imports, functions⟩ := u
  rw [CompilationUnit.rename, FunctionDeclaration.renameList_eq]

theorem FunctionDeclaration.rename_eq (d : FunctionDeclaration) :
    d.rename f = ⟨f.id d.id, f.declared d.name, d.isLocal, d.function.rename f⟩ := by
  obtain ⟨id, name, isLocal, function⟩ := d
  rw [FunctionDeclaration.rename]

theorem Function.rename_eq (g : Function) :
    g.rename f =
      ⟨f.id g.id, g.parameters.map f.parameter, g.variadic, g.body.map (Block.rename f)⟩ := by
  obtain ⟨id, parameters, variadic, body⟩ := g
  rw [Function.rename, Block.renameOption_eq]

theorem Block.rename_eq (b : Block) :
    b.rename f = ⟨f.id b.id, b.statements.map (Node.rename f)⟩ := by
  obtain ⟨id, statements⟩ := b
  rw [Block.rename, Node.renameList_eq]

theorem FunctionDeclaration.arity_rename (d : FunctionDeclaration) :
    (d.rename f).arity = d.arity := by
  rw [d.rename_eq, FunctionDeclaration.arity, d.function.rename_eq]
  exact List.length_map _

theorem Node.id_rename (n : Node) : (n.rename f).id = f.id n.id := by
  cases n with
  | compilationUnit u => rw [Node.rename, u.rename_eq]; rfl
  | functionDeclaration d => rw [Node.rename, d.rename_eq]; rfl
  | function g => rw [Node.rename, g.rename_eq]; rfl
  | block b => rw [Node.rename, b.rename_eq]; rfl
  | _ => rfl

theorem Node.declaration?_rename (n : Node) :
    (n.rename f).declaration? = n.declaration?.map (FunctionDeclaration.rename f) := by
  cases n <;> rfl

theorem Node.children_rename (n : Node) :
    (n.rename f).children = n.children.map (Node.rename f) := by
  cases n with
  | compilationUnit u =>
    rw [Node.rename, u.rename_eq]
    simp only [Node.children, Option.toList_map, List.map_append, List.map_map]
    rfl
  | functionDeclaration d => rw [Node.rename, d.rename_eq]; rfl
  | function g =>
    rw [Node.rename, g.rename_eq]
    simp only [Node.children, Option.toList_map, List.map_map]
    rfl
  | block b => rw [Node.rename, b.rename_eq]; rfl
  | returnStatement id value =>
    rw [Node.rename, Node.renameOption_eq, Node.children, Node.children, Option.toList_map]
  | functionInvocation id name arguments =>
    rw [Node.rename, Node.renameList_eq, Node.children, Node.children]
  | _ => rfl

/-! ## The nodes at their places -/

theorem Node.placementsBelow_rename (t : Node) (above : List Node) :
    (t.rename f).placementsBelow (above.map (Node.rename f)) =
      (t.placementsBelow above).map (Placement.rename f) := by
  induction t using Node.induction generalizing above with
  | step t ih =>
    have below : ∀ c ∈ t.children,
        (c.rename f).placementsBelow (t.rename f :: above.map (Node.rename f)) =
          (c.placementsBelow (t :: above)).map (Placement.rename f) :=
      fun c hc => ih c hc (t :: above)
    rw [(t.rename f).placementsBelow_eq, t.placementsBelow_eq, t.children_rename,
      List.flatMap_map, List.map_cons, List.map_flatMap, List.flatMap_congr below]
    rfl

theorem Node.placements_rename (t : Node) :
    (t.rename f).placements = t.placements.map (Placement.rename f) :=
  t.placementsBelow_rename f []

theorem Placement.declaration?_rename (p : Placement) :
    (p.rename f).declaration? = p.declaration?.map (FunctionDeclaration.rename f) := by
  obtain ⟨node, above⟩ := p
  cases above with
  | nil => rfl
  | cons n rest => exact n.declaration?_rename f

end TreeCheck
