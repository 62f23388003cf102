import Mathlib.Data.List.Forall2
import Mathlib.Data.Multiset.Bind
import TreeCheck.Tree.Fold
import TreeCheck.Tree.Line

/-!
# Trees in another order

`Node.Reordered` holds of two trees if one becomes the other when lists of nodes and lists
of parameters are put in another order, at any number of nodes.  Everything else agrees,
the identifiers included.

A walk then comes to the same nodes in another order, where a node and its counterpart are
again reordered trees.  `Node.Reordered.perm_map` states it for what is read off the nodes
one by one, if it does not depend on the order of what lies below them.
-/

namespace TreeCheck

/-- Lists of names and lists of nodes may differ in their order. -/
def SlotValue.Reordered : SlotValue → SlotValue → Prop
  | .names ss, .names ts => ss.Perm ts
  | .children xs, .children ys => xs.Perm ys
  | v, w => v = w

structure Slot.Reordered (s t : Slot) : Prop where
  label : s.label = t.label
  value : s.value.Reordered t.value

/-- The nodes agree in all but what lies below them and the order of their lists. -/
structure Node.RootReordered (n m : Node) : Prop where
  kind : n.kind = m.kind
  id : n.id = m.id
  slots : List.Forall₂ Slot.Reordered n.slots m.slots

/-- The children of the first node are reordered one by one, which gives `cs`, and then put
in the order that they have below the second node. -/
inductive Node.Reordered : Node → Node → Prop
  | intro {n m : Node} {cs : List Node} (root : n.RootReordered m)
    (each : List.Forall₂ Node.Reordered n.children cs) (order : cs.Perm m.children) :
    Node.Reordered n m

theorem rel_of_forall₂ {α β : Type} {R : α → β → Prop} {xs : List α} {ys : List β}
    (h : List.Forall₂ R xs ys) : Multiset.Rel R (xs : Multiset α) (ys : Multiset β) := by
  induction h with
  | nil => exact .zero
  | cons hxy _ ih => exact .cons hxy ih

/-! ## The root and the children -/

theorem SlotValue.Reordered.refl (v : SlotValue) : v.Reordered v := by
  cases v with
  | names ss => exact List.Perm.refl ss
  | children xs => exact List.Perm.refl xs
  | _ => rfl

theorem Node.RootReordered.refl (n : Node) : n.RootReordered n where
  kind := rfl
  id := rfl
  slots := List.forall₂_same.mpr fun s _ => ⟨rfl, .refl s.value⟩

namespace Node.Reordered

variable {a b : Node}

theorem refl (a : Node) : a.Reordered a := by
  induction a using Node.induction with
  | step a ih => exact .intro (.refl a) (List.forall₂_same.mpr ih) (List.Perm.refl _)

theorem root (h : a.Reordered b) : a.RootReordered b := by
  cases h with
  | intro root each order => exact root

theorem children (h : a.Reordered b) :
    Multiset.Rel Node.Reordered (a.children : Multiset Node) (b.children : Multiset Node) := by
  cases h with
  | intro root each order =>
    rw [← Multiset.coe_eq_coe.mpr order]
    exact rel_of_forall₂ each

theorem of_importDeclaration {i : ImportDeclaration}
    (h : (Node.importDeclaration i).Reordered b) :
    ∃ j, b = .importDeclaration j ∧ i.name = j.name := by
  cases b with
  | importDeclaration j =>
    have slots := h.root.slots
    simp only [Node.slots, List.forall₂_cons] at slots
    have hname : SlotValue.name i.name = .name j.name := slots.1.value
    exact ⟨j, rfl, SlotValue.name.inj hname⟩
  | _ => cases h.root.kind

theorem of_function {f : Function} (h : (Node.function f).Reordered b) :
    ∃ g, b = .function g ∧ f.id = g.id ∧ f.parameters.Perm g.parameters ∧
      f.variadic = g.variadic := by
  cases b with
  | function g =>
    have slots := h.root.slots
    simp only [Node.slots, List.forall₂_cons] at slots
    have hvariadic : SlotValue.flag f.variadic = .flag g.variadic := slots.2.1.value
    exact ⟨g, rfl, h.root.id, slots.1.value, SlotValue.flag.inj hvariadic⟩
  | _ => cases h.root.kind

theorem of_functionDeclaration {d : FunctionDeclaration}
    (h : (Node.functionDeclaration d).Reordered b) :
    ∃ e, b = .functionDeclaration e ∧ d.name = e.name ∧ d.arity = e.arity := by
  cases b with
  | functionDeclaration e =>
    have slots := h.root.slots
    simp only [Node.slots, List.forall₂_cons] at slots
    have hname : SlotValue.name d.name = .name e.name := slots.1.value
    have hfunction : (Node.function d.function).Reordered (.function e.function) := by
      obtain ⟨g, hg, hm⟩ := Multiset.exists_mem_of_rel_of_mem h.children
        (Multiset.mem_singleton_self (Node.function d.function))
      rw [Multiset.mem_coe, Node.children, List.mem_singleton] at hg
      rwa [hg] at hm
    obtain ⟨g, hg, -, hparameters, -⟩ := hfunction.of_function
    cases hg
    exact ⟨e, rfl, SlotValue.name.inj hname, hparameters.length_eq⟩
  | _ => cases h.root.kind

/-! ## The nodes of the trees -/

theorem preorder (h : a.Reordered b) :
    Multiset.Rel Node.Reordered (a.preorder : Multiset Node) (b.preorder : Multiset Node) := by
  induction a using Node.induction generalizing b with
  | step a ih =>
    have each : Multiset.Rel
        (fun c d => Multiset.Rel Node.Reordered (c.preorder : Multiset Node) d.preorder)
        (a.children : Multiset Node) (b.children : Multiset Node) :=
      h.children.mono fun c hc d _ hcd => ih c hc hcd
    have below := Multiset.rel_bind (fun _ _ hcd => hcd) each
    rw [Multiset.coe_bind, Multiset.coe_bind] at below
    rw [a.preorder_eq, b.preorder_eq, ← Multiset.cons_coe, ← Multiset.cons_coe]
    exact .cons h below

/-- What reordered nodes have in common is the same for the two trees, up to its order. -/
theorem perm_map {α : Type} {f : Node → α} (hf : ∀ n m : Node, n.Reordered m → f n = f m)
    (h : a.Reordered b) : (a.preorder.map f).Perm (b.preorder.map f) := by
  rw [← Multiset.coe_eq_coe, ← Multiset.map_coe, ← Multiset.map_coe, ← Multiset.rel_eq,
    Multiset.rel_map]
  exact h.preorder.mono fun n _ m _ hnm => hf n m hnm

theorem perm_filterMap {α : Type} {key : Node → Option α}
    (hkey : ∀ n m : Node, n.Reordered m → key n = key m) (h : a.Reordered b) :
    (a.preorder.filterMap key).Perm (b.preorder.filterMap key) := by
  have keys := (h.perm_map hkey).filterMap fun k => k
  rw [List.filterMap_map, List.filterMap_map] at keys
  exact keys

end Node.Reordered
end TreeCheck
