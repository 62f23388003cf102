import Mathlib.Data.List.Forall2
import TreeCheck.Tree.Fold
import TreeCheck.Tree.Line

/-!
# Trees that are alike

`Node.AlikeBy same` holds of two trees that agree at every position in kind, identifier
and slots, where two doubles count as one if they are related by `same`.

The slots of a node tell how many children it has.  So a tree can be recovered from its
pre-order alone, and `Node.alikeBy_of_preorder` does this for a list that goes on after
the tree.
-/

namespace TreeCheck

variable {same : Binary64 → Binary64 → Prop}

def LiteralValue.AlikeBy (same : Binary64 → Binary64 → Prop) : LiteralValue → LiteralValue → Prop
  | .float x, .float y => same x y
  | v, w => v = w

def SlotValue.AlikeBy (same : Binary64 → Binary64 → Prop) : SlotValue → SlotValue → Prop
  | .literal v, .literal w => v.AlikeBy same w
  | v, w => v = w

structure Slot.AlikeBy (same : Binary64 → Binary64 → Prop) (s t : Slot) : Prop where
  label : s.label = t.label
  value : s.value.AlikeBy same t.value

/-- The nodes agree in all but what lies below them. -/
structure Node.RootAlikeBy (same : Binary64 → Binary64 → Prop) (n m : Node) : Prop where
  kind : n.kind = m.kind
  id : n.id = m.id
  slots : List.Forall₂ (Slot.AlikeBy same) n.slots m.slots

inductive Node.AlikeBy (same : Binary64 → Binary64 → Prop) : Node → Node → Prop
  | intro {n m : Node} (root : n.RootAlikeBy same m)
    (children : List.Forall₂ (Node.AlikeBy same) n.children m.children) : Node.AlikeBy same n m

theorem Node.AlikeBy.root {n m : Node} (h : n.AlikeBy same m) : n.RootAlikeBy same m := by
  cases h with
  | intro root children => exact root

theorem Node.AlikeBy.children {n m : Node} (h : n.AlikeBy same m) :
    List.Forall₂ (Node.AlikeBy same) n.children m.children := by
  cases h with
  | intro root children => exact children

theorem forall₂_imp_of_mem {α β : Type} {R S : α → β → Prop} {as : List α} {bs : List β}
    (h : List.Forall₂ R as bs) (himp : ∀ a ∈ as, ∀ b, R a b → S a b) : List.Forall₂ S as bs := by
  have hboth := (List.forall₂_and_left as bs).mpr ⟨himp, h⟩
  exact hboth.imp fun a b hab => hab.1 b hab.2

/-- What alike nodes inherit from their children holds of alike trees. -/
@[elab_as_elim] theorem Node.AlikeBy.induction {P : Node → Node → Prop}
    (step : ∀ n m : Node, n.AlikeBy same m → List.Forall₂ P n.children m.children → P n m)
    {a b : Node} (h : a.AlikeBy same b) : P a b := by
  induction a using Node.induction generalizing b with
  | step a ih => exact step a b h (forall₂_imp_of_mem h.children fun c hc d => ih c hc)

/-! ## The slots of alike nodes -/

theorem LiteralValue.alikeBy_eq_iff {v w : LiteralValue} : v.AlikeBy (· = ·) w ↔ v = w := by
  cases v <;> cases w <;> simp [LiteralValue.AlikeBy]

def SlotValue.childIds : SlotValue → List NodeId
  | .child id => id.toList
  | .children ids => ids
  | _ => []

theorem SlotValue.AlikeBy.childIds {v w : SlotValue} (h : v.AlikeBy same w) :
    v.childIds = w.childIds := by
  cases v with
  | literal v =>
    cases w with
    | literal w => rfl
    | _ => cases h
  | _ => rw [show _ = w from h]

theorem Node.RootAlikeBy.length_children {n m : Node} (h : n.RootAlikeBy same m) :
    n.children.length = m.children.length := by
  have ids : ∀ {n : Node}, n.children.map Node.id = n.slots.flatMap fun s => s.value.childIds := by
    intro n
    rw [n.children_ids]
    apply List.flatMap_congr
    intro s _
    cases s.value <;> rfl
  have slots : (n.slots.flatMap fun s => s.value.childIds) =
      m.slots.flatMap fun s => s.value.childIds := by
    rw [← List.forall₂_eq_eq_eq]
    apply List.rel_flatMap h.slots
    intro s t hst
    rw [List.forall₂_eq_eq_eq]
    exact hst.value.childIds
  rw [← ids, ← ids] at slots
  simpa using congrArg List.length slots

/-! ## Trees from their pre-orders -/

theorem Node.alikeBy_of_preorder {a b : Node} {as bs : List Node}
    (h : List.Forall₂ (Node.RootAlikeBy same) (a.preorder ++ as) (b.preorder ++ bs)) :
    a.AlikeBy same b ∧ List.Forall₂ (Node.RootAlikeBy same) as bs := by
  induction a using Node.induction generalizing b as bs with
  | step a ih =>
    rw [a.preorder_eq, b.preorder_eq, List.cons_append, List.cons_append,
      List.forall₂_cons] at h
    obtain ⟨hroot, hbelow⟩ := h
    -- the roots agree in the number of their children, which are split off one by one
    have forest : ∀ cs ds : List Node, (∀ c ∈ cs, c ∈ a.children) → cs.length = ds.length →
        List.Forall₂ (Node.RootAlikeBy same) (cs.flatMap Node.preorder ++ as)
          (ds.flatMap Node.preorder ++ bs) →
        List.Forall₂ (Node.AlikeBy same) cs ds ∧ List.Forall₂ (Node.RootAlikeBy same) as bs := by
      intro cs ds hcs hlength h
      induction cs generalizing ds with
      | nil =>
        cases ds with
        | nil => exact ⟨.nil, h⟩
        | cons d ds => cases hlength
      | cons c cs ihcs =>
        cases ds with
        | nil => cases hlength
        | cons d ds =>
          rw [List.flatMap_cons, List.flatMap_cons, List.append_assoc, List.append_assoc] at h
          obtain ⟨hcd, hrest⟩ := ih c (hcs c List.mem_cons_self) h
          obtain ⟨hcsds, hasbs⟩ := ihcs ds (fun e he => hcs e (List.mem_cons_of_mem c he))
            (Nat.succ.inj hlength) hrest
          exact ⟨.cons hcd hcsds, hasbs⟩
    obtain ⟨hchildren, hasbs⟩ :=
      forest a.children b.children (fun c hc => hc) hroot.length_children hbelow
    exact ⟨.intro hroot hchildren, hasbs⟩

end TreeCheck
