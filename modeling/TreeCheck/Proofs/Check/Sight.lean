import TreeCheck.Proofs.Check.Reference

/-!
# What a check looks at

A check looks at the identifier of every node, at the names of imports, the signatures of
declarations and the parameters of functions, and it cannot tell other nodes apart.  It does
not look at how nodes are nested either.  The name that errors give to a function is that of
the declaration above it, but in the pre-order this is the declaration just before it
(`findings_eq_gather_preorder`).

So trees with pre-orders that look alike have the same errors, whatever their shapes are.
Whether a function belongs to a declaration need not be compared, since the pre-orders show
it (`map_isDeclared_placements`).
-/

namespace TreeCheck

open Check

/-- Of these nodes a check looks at the identifier only. -/
def Node.isPlain : Node → Bool
  | .importDeclaration _ | .functionDeclaration _ | .function _ => false
  | _ => true

/-- A check sees no difference between the nodes. -/
inductive Node.LooksLike : Node → Node → Prop
  | importDeclaration {i j : ImportDeclaration} (id : i.id = j.id) (name : i.name = j.name) :
      LooksLike (.importDeclaration i) (.importDeclaration j)
  | functionDeclaration {d e : FunctionDeclaration} (id : d.id = e.id) (name : d.name = e.name)
      (arity : d.arity = e.arity) : LooksLike (.functionDeclaration d) (.functionDeclaration e)
  | function {f g : Function} (id : f.id = g.id) (parameters : f.parameters = g.parameters)
      (variadic : f.variadic = g.variadic) : LooksLike (.function f) (.function g)
  | plain {n m : Node} (id : n.id = m.id) (left : n.isPlain = true) (right : m.isPlain = true) :
      LooksLike n m

/-- The node at this place is the function of a declaration. -/
def Placement.isDeclared (p : Placement) : Bool := p.declaration?.isSome

/-! ## One node -/

theorem Node.unnamed_of_isPlain {n : Node} (h : n.isPlain = true) :
    n.importedName? = none ∧ n.signature? = none ∧ n.handover? = none := by
  cases n with
  | importDeclaration | functionDeclaration | function => cases h
  | _ => exact ⟨rfl, rfl, rfl⟩

theorem Check.breaks_of_isPlain {n : Node} (h : n.isPlain = true) {r : Rule}
    (hr : r ≠ .duplicateNodeId) (met : List Node) (name : String) : breaks met name n r = [] := by
  cases n with
  | importDeclaration | functionDeclaration | function => cases h
  | _ =>
    cases r with
    | duplicateNodeId => exact absurd rfl hr
    | _ => rfl

namespace Node.LooksLike

variable {n m : Node}

theorem id_eq (h : n.LooksLike m) : n.id = m.id := by
  cases h <;> assumption

theorem importedName? (h : n.LooksLike m) : n.importedName? = m.importedName? := by
  cases h with
  | importDeclaration _ name => exact congrArg some name
  | functionDeclaration | function => rfl
  | plain _ left right => rw [(unnamed_of_isPlain left).1, (unnamed_of_isPlain right).1]

theorem signature? (h : n.LooksLike m) : n.signature? = m.signature? := by
  cases h with
  | functionDeclaration _ name arity => exact congrArg some (Prod.ext name arity)
  | importDeclaration | function => rfl
  | plain _ left right => rw [(unnamed_of_isPlain left).2.1, (unnamed_of_isPlain right).2.1]

theorem handover? (h : n.LooksLike m) : n.handover? = m.handover? := by
  cases h with
  | functionDeclaration _ name => exact congrArg (fun s => some (some s)) name
  | importDeclaration | function => rfl
  | plain _ left right => rw [(unnamed_of_isPlain left).2.2, (unnamed_of_isPlain right).2.2]

end Node.LooksLike

/-! ## The nodes before -/

theorem map_eq_of_forall₂ {α β κ : Type} {R : α → β → Prop} {f : α → κ} {g : β → κ}
    {xs : List α} {ys : List β} (hfg : ∀ {x y}, R x y → f x = g y)
    (h : List.Forall₂ R xs ys) : xs.map f = ys.map g := by
  rw [← List.forall₂_eq_eq_eq]
  exact List.rel_map (fun _ _ hxy => hfg hxy) h

section Met

variable {met met' : List Node}

theorem pendingName_of_looksLike (h : List.Forall₂ Node.LooksLike met met') :
    pendingName met = pendingName met' := by
  have names : met.map Node.handover? = met'.map Node.handover? :=
    map_eq_of_forall₂ Node.LooksLike.handover? h
  have handovers := congrArg (List.filterMap fun name => name) names
  rw [List.filterMap_map, List.filterMap_map] at handovers
  exact congrArg (fun names => names.getLast?.join) handovers

theorem Check.firstWith?_of_looksLike {κ : Type} [DecidableEq κ] {key : Node → Option κ}
    (hkey : ∀ {n m : Node}, n.LooksLike m → key n = key m)
    (h : List.Forall₂ Node.LooksLike met met') (k : κ) :
    firstWith? key met k = firstWith? key met' k := by
  induction h with
  | nil => rfl
  | @cons n m met met' hnm _ ih =>
    rw [← List.singleton_append, firstWith?_append, firstWith?_singleton, ih, hkey hnm, hnm.id_eq,
      ← firstWith?_singleton, ← firstWith?_append, List.singleton_append]

theorem Check.breaks_of_looksLike {n m : Node} (h : n.LooksLike m)
    (hmet : List.Forall₂ Node.LooksLike met met') (name : String) (r : Rule) :
    breaks met name n r = breaks met' name m r := by
  by_cases hr : r = .duplicateNodeId
  · have ids : met.map Node.id = met'.map Node.id := map_eq_of_forall₂ Node.LooksLike.id_eq hmet
    subst hr
    rw [breaks, breaks, ids, h.id_eq]
  · cases h with
    | @importDeclaration i j id name =>
      cases r with
      | duplicateImport =>
        have first := firstWith?_of_looksLike Node.LooksLike.importedName? hmet j.name
        rw [breaks, breaks, name, id, first]
      | duplicateNodeId => exact absurd rfl hr
      | _ => rfl
    | @functionDeclaration d e id name arity =>
      cases r with
      | duplicateFunction =>
        have first := firstWith?_of_looksLike Node.LooksLike.signature? hmet (e.name, e.arity)
        rw [breaks, breaks, name, arity, id, first]
      | duplicateNodeId => exact absurd rfl hr
      | _ => rfl
    | function id parameters variadic =>
      cases r with
      | variadicWithoutParameters => rw [breaks, breaks, variadic, parameters, id]
      | duplicateParameter => rw [breaks, breaks, parameters, id]
      | duplicateNodeId => exact absurd rfl hr
      | _ => rfl
    | plain _ left right => rw [breaks_of_isPlain left hr, breaks_of_isPlain right hr]

theorem Check.breaksOf_of_looksLike {n m : Node} (h : n.LooksLike m)
    (hmet : List.Forall₂ Node.LooksLike met met') (o : Options) (rules : List Rule)
    (name : String) : breaksOf o rules met name n = breaksOf o rules met' name m := by
  simp only [breaksOf, breaks_of_looksLike h hmet]

end Met

/-! ## Trees -/

namespace Check

/-- The errors of a tree are found in its pre-order, without the places of the nodes. -/
theorem findings_eq_gather_preorder (o : Options) (t : Node) :
    findings o t = gather (fun before n =>
      breaksOf o Rule.inOrder before ((pendingName before).getD closureName) n) t.preorder := by
  rw [← t.map_node_placements, gather_map]
  refine gather_congr fun before p after h => ?_
  rw [pendingName_before h]
  rfl

theorem findings_of_looksLike {a b : Node}
    (h : List.Forall₂ Node.LooksLike a.preorder b.preorder) (o : Options) :
    findings o a = findings o b := by
  rw [findings_eq_gather_preorder, findings_eq_gather_preorder]
  refine gatherFrom_eq_of_forall₂ (fun hmet hnm => ?_) .nil h
  rw [pendingName_of_looksLike hmet, breaksOf_of_looksLike hnm hmet]

end Check

theorem Node.map_isDeclared_placements (t : Node) :
    t.placements.map Placement.isDeclared =
      gather (fun before _ => [(pendingName before).isSome]) t.preorder := by
  rw [← t.map_node_placements, gather_map, List.map_eq_flatMap, ← gather_eq_flatMap]
  refine gather_congr fun before p after h => ?_
  rw [pendingName_before h, Option.isSome_map]
  rfl

namespace Check

/-- Trees whose pre-orders look alike have the same errors.  Their functions are declared at
the same places. -/
theorem errors_of_looksLike {a b : Node}
    (h : List.Forall₂ Node.LooksLike a.preorder b.preorder) :
    (∀ o : Options, errors o a = errors o b) ∧
      a.placements.map Placement.isDeclared = b.placements.map Placement.isDeclared := by
  constructor
  · intro o
    rw [errors_eq_cut, errors_eq_cut, findings_of_looksLike h]
  · rw [a.map_isDeclared_placements, b.map_isDeclared_placements]
    refine gatherFrom_eq_of_forall₂ (fun hmet _ => ?_) .nil h
    rw [pendingName_of_looksLike hmet]

/-- A file in which everything is below something else, and a call with the same nodes side by
side.  What is local, literals and the names of variables differ too. -/
theorem errors_of_looksLike_flat :
    let f (body : Option Block) : Function := ⟨⟨5⟩, ["a", "b", "a"], true, body⟩
    let closure (body : Option Block) : Node := .function ⟨⟨7⟩, [], true, body⟩
    let again (isLocal : Bool) : Node :=
      .functionDeclaration ⟨⟨4⟩, "f", isLocal, ⟨⟨8⟩, ["x", "y", "z"], false, none⟩⟩
    let deep : Node := .compilationUnit ⟨⟨1⟩, none, [⟨⟨2⟩, "io"⟩, ⟨⟨3⟩, "io"⟩],
      [⟨⟨4⟩, "f", true, f (some ⟨⟨6⟩, [closure (some ⟨⟨9⟩, [again false]⟩)]⟩)⟩]⟩
    let flat : Node := .functionInvocation ⟨1⟩ "call"
      [.importDeclaration ⟨⟨2⟩, "io"⟩, .importDeclaration ⟨⟨3⟩, "io"⟩,
       .functionDeclaration ⟨⟨4⟩, "f", false, f none⟩, .literal ⟨6⟩ (.str "<closure>"),
       closure none, .reference ⟨9⟩ "f", again true]
    List.Forall₂ Node.LooksLike deep.preorder flat.preorder ∧
      (∀ o, errors o deep = errors o flat) ∧
      errors .all flat =
        [.duplicateImport "io" ⟨3⟩ ⟨2⟩, .duplicateParameter "f" "a" ⟨5⟩,
         .variadicWithoutParameters "<closure>" ⟨7⟩, .duplicateNodeId ⟨4⟩,
         .duplicateFunction "f" 3 ⟨4⟩ ⟨4⟩] := by
  intro f closure again deep flat
  have h : List.Forall₂ Node.LooksLike deep.preorder flat.preorder :=
    .cons (.plain rfl rfl rfl) (.cons (.importDeclaration rfl rfl)
      (.cons (.importDeclaration rfl rfl) (.cons (.functionDeclaration rfl rfl rfl)
        (.cons (.function rfl rfl rfl) (.cons (.plain rfl rfl rfl)
          (.cons (.function rfl rfl rfl) (.cons (.plain rfl rfl rfl)
            (.cons (.functionDeclaration rfl rfl rfl) (.cons (.function rfl rfl rfl) .nil)))))))))
  refine ⟨h, (errors_of_looksLike h).1, ?_⟩
  rw [errors_all]
  decide

end Check
end TreeCheck
