import TreeCheck.Proofs.Tree.Head

/-!
# The same tree

`Node.SameBy same` holds of two trees that are built alike: the constructors are the same, every
field that is no tree is equal, and the trees in one field are related in turn, where two doubles
count as one if they are related by `same`.  If only equal doubles are related, the trees are equal
(`Node.sameBy_eq_iff`).

`Node.AlikeBy` says the same through the slots of a line and the list of children, and
`Node.alikeBy_iff_sameBy` is that nothing is lost on the way: what belongs to the root is its head,
and the head tells where the children of a unit fall apart into its module, its imports and its
functions.
-/

namespace TreeCheck

variable {same : Binary64 → Binary64 → Prop}

/-- The trees are one, if doubles count as one that are related by `same`. -/
inductive Node.SameBy (same : Binary64 → Binary64 → Prop) : Node → Node → Prop
  | compilationUnit {id : NodeId} {module : Option ModuleDeclaration}
    {imports : List ImportDeclaration} {functions functions' : List FunctionDeclaration}
    (below : List.Forall₂ (fun d e => SameBy same (.functionDeclaration d) (.functionDeclaration e))
      functions functions') :
    SameBy same (.compilationUnit ⟨id, module, imports, functions⟩)
      (.compilationUnit ⟨id, module, imports, functions'⟩)
  | moduleDeclaration (m : ModuleDeclaration) :
    SameBy same (.moduleDeclaration m) (.moduleDeclaration m)
  | importDeclaration (i : ImportDeclaration) :
    SameBy same (.importDeclaration i) (.importDeclaration i)
  | functionDeclaration {id : NodeId} {name : String} {isLocal : Bool} {f g : Function}
    (below : SameBy same (.function f) (.function g)) :
    SameBy same (.functionDeclaration ⟨id, name, isLocal, f⟩)
      (.functionDeclaration ⟨id, name, isLocal, g⟩)
  | function {id : NodeId} {parameters : List String} {variadic : Bool} {body body' : Option Block}
    (below : Option.Rel (fun b c => SameBy same (.block b) (.block c)) body body') :
    SameBy same (.function ⟨id, parameters, variadic, body⟩)
      (.function ⟨id, parameters, variadic, body'⟩)
  | block {id : NodeId} {statements statements' : List Node}
    (below : List.Forall₂ (SameBy same) statements statements') :
    SameBy same (.block ⟨id, statements⟩) (.block ⟨id, statements'⟩)
  | returnStatement {id : NodeId} {value value' : Option Node}
    (below : Option.Rel (SameBy same) value value') :
    SameBy same (.returnStatement id value) (.returnStatement id value')
  | letOrVar {id : NodeId} {binding : Binding} {name : String} {value value' : Node}
    (below : SameBy same value value') :
    SameBy same (.letOrVar id binding name value) (.letOrVar id binding name value')
  | reference (id : NodeId) (name : String) : SameBy same (.reference id name) (.reference id name)
  | literal {id : NodeId} {v w : LiteralValue} (value : v.AlikeBy same w) :
    SameBy same (.literal id v) (.literal id w)
  | functionInvocation {id : NodeId} {name : String} {arguments arguments' : List Node}
    (below : List.Forall₂ (SameBy same) arguments arguments') :
    SameBy same (.functionInvocation id name arguments) (.functionInvocation id name arguments')

/-! ## Lists and options of related things -/

section

variable {α β : Type} {R : α → β → Prop}

theorem forall₂_append_iff {as bs : List α} {cs ds : List β} (h : as.length = cs.length) :
    List.Forall₂ R (as ++ bs) (cs ++ ds) ↔ List.Forall₂ R as cs ∧ List.Forall₂ R bs ds := by
  constructor
  · intro hall
    have front := List.forall₂_take as.length hall
    have back := List.forall₂_drop as.length hall
    rw [List.take_left, h, List.take_left] at front
    rw [List.drop_left, h, List.drop_left] at back
    exact ⟨front, back⟩
  · rintro ⟨hfront, hback⟩
    exact List.rel_append hfront hback

theorem forall₂_toList_iff {a : Option α} {b : Option β} :
    List.Forall₂ R a.toList b.toList ↔ Option.Rel R a b := by
  cases a <;> cases b <;> simp

theorem toList_injective : Function.Injective (Option.toList : Option α → List α) := by
  intro a b h
  cases a <;> cases b <;> simp_all

theorem map_eq_map_iff_forall₂ {γ : Type} {f : α → γ} {g : β → γ} {as : List α} {bs : List β} :
    as.map f = bs.map g ↔ List.Forall₂ (fun a b => f a = g b) as bs := by
  rw [← List.forall₂_eq_eq_eq, List.forall₂_map_left_iff, List.forall₂_map_right_iff]

end

/-! ## A root and its children -/

namespace Node

theorem SameBy.id_eq {a b : Node} (h : a.SameBy same b) : a.id = b.id := by
  cases h <;> rfl

@[simp] theorem sameBy_moduleDeclaration_iff {m k : ModuleDeclaration} :
    SameBy same (.moduleDeclaration m) (.moduleDeclaration k) ↔ m = k := by
  constructor
  · intro h
    cases h
    rfl
  · rintro rfl
    exact .moduleDeclaration m

@[simp] theorem sameBy_importDeclaration_iff {i j : ImportDeclaration} :
    SameBy same (.importDeclaration i) (.importDeclaration j) ↔ i = j := by
  constructor
  · intro h
    cases h
    rfl
  · rintro rfl
    exact .importDeclaration i

/-- The lengths tell the module, the imports and the functions of a unit apart in its list of
children. -/
theorem forall₂_children_compilationUnit_iff {id id' : NodeId}
    {module module' : Option ModuleDeclaration} {imports imports' : List ImportDeclaration}
    {functions functions' : List FunctionDeclaration}
    (hmodule : module.toList.length = module'.toList.length)
    (himports : imports.length = imports'.length) :
    List.Forall₂ (SameBy same) (compilationUnit ⟨id, module, imports, functions⟩).children
        (compilationUnit ⟨id', module', imports', functions'⟩).children ↔
      module = module' ∧ imports = imports' ∧
        List.Forall₂ (fun d e => SameBy same (functionDeclaration d) (functionDeclaration e))
          functions functions' := by
  rw [children, children, forall₂_append_iff (by simp [hmodule, himports]),
    forall₂_append_iff (by simp [hmodule])]
  simp only [List.forall₂_map_left_iff, List.forall₂_map_right_iff, sameBy_moduleDeclaration_iff,
    sameBy_importDeclaration_iff, List.forall₂_eq_eq_eq, toList_injective.eq_iff, and_assoc]

/-- The lists of children are compared as the slots that they come from, and the head brings what
stands beside them. -/
theorem sameBy_iff {a b : Node} :
    a.SameBy same b ↔
      a.SameHead same b ∧ List.Forall₂ (SameBy same) a.children b.children := by
  constructor
  · intro h
    cases h with
    | compilationUnit below =>
      exact ⟨⟨rfl, rfl, rfl, map_eq_map_iff_forall₂.mpr (below.imp fun d e h => h.id_eq)⟩,
        (forall₂_children_compilationUnit_iff rfl rfl).mpr ⟨rfl, rfl, below⟩⟩
    | moduleDeclaration m => exact ⟨⟨rfl, rfl⟩, .nil⟩
    | importDeclaration i => exact ⟨⟨rfl, rfl⟩, .nil⟩
    | functionDeclaration below => exact ⟨⟨rfl, rfl, rfl, below.id_eq⟩, .cons below .nil⟩
    | function below =>
      cases below with
      | none => exact ⟨⟨rfl, rfl, rfl, rfl⟩, .nil⟩
      | some h => exact ⟨⟨rfl, rfl, rfl, congrArg some h.id_eq⟩, .cons h .nil⟩
    | block below =>
      exact ⟨⟨rfl, map_eq_map_iff_forall₂.mpr (below.imp fun a b h => h.id_eq)⟩, below⟩
    | returnStatement below =>
      cases below with
      | none => exact ⟨⟨rfl, rfl⟩, .nil⟩
      | some h => exact ⟨⟨rfl, congrArg some h.id_eq⟩, .cons h .nil⟩
    | letOrVar below => exact ⟨⟨rfl, rfl, rfl, below.id_eq⟩, .cons below .nil⟩
    | reference id name => exact ⟨⟨rfl, rfl⟩, .nil⟩
    | literal value => exact ⟨⟨rfl, value⟩, .nil⟩
    | functionInvocation below =>
      exact ⟨⟨rfl, rfl, map_eq_map_iff_forall₂.mpr (below.imp fun a b h => h.id_eq)⟩, below⟩
  · rintro ⟨head, below⟩
    unfold SameHead at head
    split at head
    case h_1 u w =>
      obtain ⟨id, module, imports, functions⟩ := u
      obtain ⟨id', module', imports', functions'⟩ := w
      obtain ⟨rfl, hmodule, himports, -⟩ := head
      have hmodule : module.toList.length = module'.toList.length := by
        simpa [Option.toList_map] using congrArg (fun x => x.toList.length) hmodule
      have himports : imports.length = imports'.length := by
        simpa using congrArg List.length himports
      rw [forall₂_children_compilationUnit_iff hmodule himports] at below
      obtain ⟨rfl, rfl, hfunctions⟩ := below
      exact .compilationUnit hfunctions
    case h_2 m k =>
      obtain ⟨id, name⟩ := m
      obtain ⟨id', name'⟩ := k
      obtain ⟨rfl, rfl⟩ := head
      exact .moduleDeclaration _
    case h_3 i j =>
      obtain ⟨id, name⟩ := i
      obtain ⟨id', name'⟩ := j
      obtain ⟨rfl, rfl⟩ := head
      exact .importDeclaration _
    case h_4 d e =>
      obtain ⟨id, name, isLocal, f⟩ := d
      obtain ⟨id', name', isLocal', g⟩ := e
      obtain ⟨rfl, rfl, rfl, -⟩ := head
      cases below with
      | cons h _ => exact .functionDeclaration h
    case h_5 f g =>
      obtain ⟨id, parameters, variadic, body⟩ := f
      obtain ⟨id', parameters', variadic', body'⟩ := g
      obtain ⟨rfl, rfl, rfl, -⟩ := head
      rw [children, children, List.forall₂_map_left_iff, List.forall₂_map_right_iff,
        forall₂_toList_iff] at below
      exact .function below
    case h_6 b c =>
      obtain ⟨id, statements⟩ := b
      obtain ⟨id', statements'⟩ := c
      obtain ⟨rfl, -⟩ := head
      exact .block below
    case h_7 x value y value' =>
      obtain ⟨rfl, -⟩ := head
      exact .returnStatement (forall₂_toList_iff.mp below)
    case h_8 x binding name value y binding' name' value' =>
      obtain ⟨rfl, rfl, rfl, -⟩ := head
      cases below with
      | cons h _ => exact .letOrVar h
    case h_9 x name y name' =>
      obtain ⟨rfl, rfl⟩ := head
      exact .reference x name
    case h_10 x value y value' =>
      obtain ⟨rfl, hvalue⟩ := head
      exact .literal hvalue
    case h_11 x name arguments y name' arguments' =>
      obtain ⟨rfl, rfl, -⟩ := head
      exact .functionInvocation below
    case h_12 => exact head.elim

theorem SameHead.refl (a : Node) : a.SameHead (· = ·) a := by
  cases a <;> simp [SameHead, LiteralValue.alikeBy_eq_iff]

/-- Trees that agree in everything are equal. -/
theorem sameBy_eq_iff {a b : Node} : a.SameBy (· = ·) b ↔ a = b := by
  constructor
  · intro h
    induction a using Node.induction generalizing b with
    | step a ih =>
      have hchildren : a.children = b.children := by
        rw [← List.forall₂_eq_eq_eq]
        exact forall₂_imp_of_mem (sameBy_iff.mp h).2 fun c hc d => ih c hc
      cases h with
      | compilationUnit _ => simpa [children, List.map_inj_right] using hchildren
      | functionDeclaration _ => simpa [children] using hchildren
      | function _ => simpa [children, List.map_inj_right, toList_injective.eq_iff] using hchildren
      | block _ => simpa [children] using hchildren
      | returnStatement _ => simpa [children, toList_injective.eq_iff] using hchildren
      | letOrVar _ => simpa [children] using hchildren
      | literal value => rw [LiteralValue.alikeBy_eq_iff.mp value]
      | functionInvocation _ => simpa [children] using hchildren
      | moduleDeclaration _ | importDeclaration _ | reference _ _ => rfl
  · rintro rfl
    induction a using Node.induction with
    | step a ih => exact sameBy_iff.mpr ⟨.refl a, List.forall₂_same.mpr ih⟩

/-- A line and the list of children tell no less than the constructors do. -/
theorem alikeBy_iff_sameBy {a b : Node} : a.AlikeBy same b ↔ a.SameBy same b := by
  constructor
  · refine Node.AlikeBy.induction fun n m h below => ?_
    exact sameBy_iff.mpr ⟨rootAlikeBy_iff_sameHead.mp h.root, below⟩
  · intro h
    induction a using Node.induction generalizing b with
    | step a ih =>
      obtain ⟨head, children⟩ := sameBy_iff.mp h
      exact .intro (rootAlikeBy_iff_sameHead.mpr head)
        (forall₂_imp_of_mem children fun c hc d => ih c hc)

end Node
end TreeCheck
