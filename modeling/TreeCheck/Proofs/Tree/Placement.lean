import Mathlib.Data.List.Chain
import Mathlib.Data.List.Perm.Basic
import TreeCheck.Tree.Fold

/-!
# Nodes at their places

A placement is a node together with the nodes above it.  `Node.placements` lists
the placements of a tree in pre-order, so what stands before a placement in the
list is what a walk has come across before it, and what stands above it is read
off the placement itself.  `Node.postplacements` lists the same placements in
post-order.  `Node.placement_induction` goes down a tree from place to place, with what is
above at hand.

A function that belongs to a declaration is placed directly below it.  In the
pre-order this is the same as coming directly after it, which is what
`declaration?_eq_of_before` states.
-/

namespace TreeCheck

/-- A node with the nodes above it, the nearest first. -/
structure Placement where
  node : Node
  above : List Node

/-- The placements of a tree that stands below `above`, in pre-order. -/
def Node.placementsBelow : Node → List Node → List Placement :=
  Node.fold fun n below above => ⟨n, above⟩ :: below.flatMap fun place => place (n :: above)

def Node.placements (n : Node) : List Placement := n.placementsBelow []

theorem Node.placementsBelow_eq (n : Node) (above : List Node) :
    n.placementsBelow above =
      ⟨n, above⟩ :: n.children.flatMap fun c => c.placementsBelow (n :: above) := by
  unfold Node.placementsBelow
  rw [Node.fold_eq, List.flatMap_map]

theorem Node.placementsBelow_ne_nil (n : Node) (above : List Node) :
    n.placementsBelow above ≠ [] := by
  rw [n.placementsBelow_eq]
  exact List.cons_ne_nil _ _

theorem Node.head?_placementsBelow (n : Node) (above : List Node) :
    (n.placementsBelow above).head? = some ⟨n, above⟩ := by
  rw [n.placementsBelow_eq, List.head?_cons]

theorem Node.map_node_placementsBelow (n : Node) (above : List Node) :
    (n.placementsBelow above).map Placement.node = n.preorder := by
  induction n using Node.induction generalizing above with
  | step n ih =>
    rw [n.placementsBelow_eq, n.preorder_eq, List.map_cons, List.map_flatMap]
    have below : ∀ c ∈ n.children,
        (c.placementsBelow (n :: above)).map Placement.node = c.preorder :=
      fun c hc => ih c hc (n :: above)
    rw [List.flatMap_congr below]

theorem Node.map_node_placements (n : Node) : n.placements.map Placement.node = n.preorder :=
  n.map_node_placementsBelow []

theorem Node.map_id_preorder (t : Node) :
    t.preorder.map Node.id = t.id :: t.placements.tail.map fun p => p.node.id := by
  rw [← t.map_node_placements, List.map_map, Node.placements, t.placementsBelow_eq]
  rfl

theorem Node.mem_placementsBelow_self (t : Node) (above : List Node) :
    ⟨t, above⟩ ∈ t.placementsBelow above := by
  rw [t.placementsBelow_eq]
  exact List.mem_cons_self

theorem Node.mem_placementsBelow_of_mem_children {t c : Node} {above : List Node} {p : Placement}
    (hc : c ∈ t.children) (hp : p ∈ c.placementsBelow (t :: above)) :
    p ∈ t.placementsBelow above := by
  rw [t.placementsBelow_eq]
  exact List.mem_cons_of_mem _ (List.mem_flatMap.mpr ⟨c, hc, hp⟩)

theorem Node.mem_placementsBelow_child {t c : Node} {above : List Node} {q : Placement}
    (hq : q ∈ t.placementsBelow above) (hc : c ∈ q.node.children) :
    ⟨c, q.node :: q.above⟩ ∈ t.placementsBelow above := by
  induction t using Node.induction generalizing above with
  | step t ih =>
    rw [t.placementsBelow_eq, List.mem_cons, List.mem_flatMap] at hq
    rcases hq with rfl | ⟨d, hd, hq⟩
    · exact Node.mem_placementsBelow_of_mem_children hc (c.mem_placementsBelow_self _)
    · exact Node.mem_placementsBelow_of_mem_children hd (ih d hd hq)

/-- What holds at the root and passes from every place to the places of the children holds at
all places. -/
theorem Node.placement_induction {t : Node} {above : List Node}
    {P : ∀ p, p ∈ t.placementsBelow above → Prop}
    (root : P ⟨t, above⟩ (t.mem_placementsBelow_self above))
    (child : ∀ q (hq : q ∈ t.placementsBelow above) c (hc : c ∈ q.node.children), P q hq →
      P ⟨c, q.node :: q.above⟩ (Node.mem_placementsBelow_child hq hc))
    {p : Placement} (h : p ∈ t.placementsBelow above) : P p h := by
  induction t using Node.induction generalizing above with
  | step t ih =>
    have hp := h
    rw [t.placementsBelow_eq, List.mem_cons, List.mem_flatMap] at hp
    rcases hp with rfl | ⟨c, hc, hp⟩
    · exact root
    · have below : ∀ {q}, q ∈ c.placementsBelow (t :: above) → q ∈ t.placementsBelow above :=
        fun hq => Node.mem_placementsBelow_of_mem_children hc hq
      exact ih c hc (P := fun q hq => P q (below hq)) (child _ _ c hc root)
        (fun q hq => child q (below hq)) hp

theorem Node.mem_placementsBelow {t : Node} {above : List Node} {p : Placement}
    (h : p ∈ t.placementsBelow above) :
    p = ⟨t, above⟩ ∨ ∃ n rest, p.above = n :: rest ∧ p.node ∈ n.children := by
  induction h using Node.placement_induction with
  | root => exact Or.inl rfl
  | child q _ c hc _ => exact Or.inr ⟨q.node, q.above, rfl, hc⟩

theorem Node.suffix_above {t : Node} {above : List Node} {p : Placement}
    (h : p ∈ t.placementsBelow above) : above <:+ p.above := by
  induction h using Node.placement_induction with
  | root => exact List.suffix_refl above
  | child q _ c _ ih => exact ih.trans (List.suffix_cons q.node q.above)

/-- The nodes above a node lead from parent to parent up to the root. -/
theorem Node.isChain_above {t : Node} {p : Placement} (h : p ∈ t.placements) :
    (p.node :: p.above).IsChain (fun c n => c ∈ n.children) ∧
      (p.node :: p.above).getLast? = some t := by
  induction h using Node.placement_induction with
  | root => exact ⟨List.isChain_singleton t, rfl⟩
  | child q _ c hc ih => exact ⟨List.IsChain.cons_cons hc ih.1, ih.2⟩

/-- A node other than the root is a child of the node directly above it. -/
theorem Node.exists_parent {t : Node} {p : Placement} (h : p ∈ t.placements.tail) :
    ∃ n rest, p.above = n :: rest ∧ p.node ∈ n.children := by
  rw [Node.placements, t.placementsBelow_eq, List.tail_cons, List.mem_flatMap] at h
  obtain ⟨c, hc, hp⟩ := h
  rcases Node.mem_placementsBelow hp with rfl | deeper
  · exact ⟨t, [], rfl, hc⟩
  · exact deeper

theorem Node.tail_placements_eq_nil_iff {t : Node} : t.placements.tail = [] ↔ t.children = [] := by
  rw [Node.placements, t.placementsBelow_eq, List.tail_cons, List.flatMap_eq_nil_iff]
  constructor
  · intro h
    rw [List.eq_nil_iff_forall_not_mem]
    intro c hc
    exact c.placementsBelow_ne_nil [t] (h c hc)
  · intro h
    simp [h]

/-! ## Post-order -/

/-- The placements of a tree that stands below `above`, in post-order. -/
def Node.postplacementsBelow : Node → List Node → List Placement :=
  Node.fold fun n below above => (below.flatMap fun place => place (n :: above)) ++ [⟨n, above⟩]

def Node.postplacements (n : Node) : List Placement := n.postplacementsBelow []

/-- The nodes of a tree, each after those below it. -/
def Node.postorder (n : Node) : List Node := n.postplacements.map Placement.node

theorem Node.postplacementsBelow_eq (n : Node) (above : List Node) :
    n.postplacementsBelow above =
      (n.children.flatMap fun c => c.postplacementsBelow (n :: above)) ++ [⟨n, above⟩] := by
  unfold Node.postplacementsBelow
  rw [Node.fold_eq, List.flatMap_map]

theorem Node.postplacementsBelow_perm (n : Node) (above : List Node) :
    (n.postplacementsBelow above).Perm (n.placementsBelow above) := by
  induction n using Node.induction generalizing above with
  | step n ih =>
    have below : (n.children.flatMap fun c => c.postplacementsBelow (n :: above)).Perm
        (n.children.flatMap fun c => c.placementsBelow (n :: above)) :=
      List.Perm.flatMap_left _ fun c hc => ih c hc (n :: above)
    rw [n.postplacementsBelow_eq, n.placementsBelow_eq]
    exact (List.perm_append_singleton _ _).trans (below.cons _)

theorem Node.postorder_perm (n : Node) : n.postorder.Perm n.preorder := by
  rw [← n.map_node_placements]
  exact (n.postplacementsBelow_perm []).map Placement.node

/-! ## Declarations and their functions -/

def Node.declaration? : Node → Option FunctionDeclaration
  | .functionDeclaration d => some d
  | _ => none

/-- The declaration that a node is the function of. -/
def Placement.declaration? (p : Placement) : Option FunctionDeclaration :=
  p.above.head?.bind Node.declaration?

/-- What comes right after a declaration is its function, and what comes right after
another node belongs to no declaration. -/
def Placement.Precedes (p q : Placement) : Prop := q.declaration? = p.node.declaration?

theorem Node.eq_of_declaration? {n : Node} {d : FunctionDeclaration}
    (h : n.declaration? = some d) : n = .functionDeclaration d := by
  cases n <;> cases h
  rfl

theorem Placement.node_of_declaration? {t : Node} {p : Placement} {d : FunctionDeclaration}
    (hp : p ∈ t.placements) (hd : p.declaration? = some d) : p.node = .function d.function := by
  rcases Node.mem_placementsBelow hp with rfl | ⟨n, rest, habove, hchild⟩
  · cases hd
  · have hn : n = .functionDeclaration d := by
      rw [Placement.declaration?, habove] at hd
      exact Node.eq_of_declaration? hd
    rw [hn, Node.children, List.mem_singleton] at hchild
    exact hchild

/-- A walk of a tree does not end at a declaration, since its function is below it. -/
theorem Node.getLast?_placementsBelow {t : Node} {above : List Node} {p : Placement}
    (h : p ∈ (t.placementsBelow above).getLast?) : p.node.declaration? = none := by
  induction t using Node.induction generalizing above with
  | step t ih =>
    rw [t.placementsBelow_eq, List.getLast?_cons, Option.mem_def, Option.some.injEq] at h
    cases hlast : (t.children.flatMap fun c => c.placementsBelow (t :: above)).getLast? with
    | some q =>
      rw [hlast, Option.getD_some] at h
      rw [List.getLast?_flatMap] at hlast
      obtain ⟨c, hc, hq⟩ := List.exists_of_findSome?_eq_some hlast
      rw [h] at hq
      exact ih c (List.mem_reverse.mp hc) hq
    | none =>
      rw [hlast, Option.getD_none] at h
      rw [List.getLast?_eq_none_iff, List.flatMap_eq_nil_iff] at hlast
      rw [← h]
      cases t with
      | functionDeclaration d =>
        exact absurd (hlast (.function d.function) List.mem_cons_self)
          (Node.placementsBelow_ne_nil _ _)
      | _ => rfl

theorem Placement.declaration?_of_head? {c t : Node} {above : List Node} {q : Placement}
    (h : q ∈ (c.placementsBelow (t :: above)).head?) : q.declaration? = t.declaration? := by
  rw [c.head?_placementsBelow, Option.mem_def, Option.some.injEq] at h
  rw [← h]
  rfl

theorem Node.isChain_flatMap_placementsBelow {t : Node} {above cs : List Node}
    (ht : t.declaration? = none)
    (h : ∀ c ∈ cs, (c.placementsBelow (t :: above)).IsChain Placement.Precedes) :
    (cs.flatMap fun c => c.placementsBelow (t :: above)).IsChain Placement.Precedes := by
  have nonempty : [] ∉ cs.map fun c => c.placementsBelow (t :: above) := by
    intro hmem
    obtain ⟨c, -, hc⟩ := List.mem_map.mp hmem
    exact c.placementsBelow_ne_nil _ hc
  rw [List.flatMap_def, List.isChain_flatten nonempty, List.forall_mem_map]
  refine ⟨h, List.Pairwise.isChain (List.pairwise_of_forall_mem_list ?_)⟩
  intro front hfront back hback p hp q hq
  obtain ⟨c, -, rfl⟩ := List.mem_map.mp hfront
  obtain ⟨d, -, rfl⟩ := List.mem_map.mp hback
  show q.declaration? = p.node.declaration?
  rw [Node.getLast?_placementsBelow hp, Placement.declaration?_of_head? hq, ht]

theorem Node.isChain_placementsBelow (t : Node) (above : List Node) :
    (t.placementsBelow above).IsChain Placement.Precedes := by
  induction t using Node.induction generalizing above with
  | step t ih =>
    have below : (t.children.flatMap fun c => c.placementsBelow (t :: above)).IsChain
        Placement.Precedes := by
      cases hd : t.declaration? with
      | none => exact Node.isChain_flatMap_placementsBelow hd fun c hc => ih c hc (t :: above)
      | some d =>
        have hchildren : t.children = [.function d.function] := by
          rw [Node.eq_of_declaration? hd, Node.children]
        have hmem : Node.function d.function ∈ t.children := by
          rw [hchildren]
          exact List.mem_singleton_self _
        rw [hchildren, List.flatMap_singleton]
        exact ih (.function d.function) hmem (t :: above)
    rw [t.placementsBelow_eq, List.isChain_cons]
    refine ⟨fun q hq => ?_, below⟩
    rw [List.head?_flatMap] at hq
    obtain ⟨c, -, hc⟩ := List.exists_of_findSome?_eq_some hq
    exact Placement.declaration?_of_head? hc

/-- The declaration of a node is the node before it, if that is a declaration. -/
theorem Placement.declaration?_eq_of_before {t : Node} {before after : List Placement}
    {p : Placement} (h : t.placements = before ++ p :: after) :
    p.declaration? = before.getLast?.bind fun q => q.node.declaration? := by
  rcases List.eq_nil_or_concat before with rfl | ⟨front, q, rfl⟩
  · rw [List.nil_append] at h
    have first : t.placements.head? = some p := by
      rw [h, List.head?_cons]
    rw [Node.placements, Node.head?_placementsBelow, Option.some.injEq] at first
    rw [← first]
    rfl
  · have chain := t.isChain_placementsBelow []
    rw [← Node.placements, h, List.concat_eq_append, List.append_assoc, List.singleton_append,
      List.isChain_append_cons_cons] at chain
    rw [List.concat_eq_append, List.getLast?_concat]
    exact chain.2.1

end TreeCheck
