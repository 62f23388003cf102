import Mathlib.Data.List.Induction
import TreeCheck.Ancestry
import TreeCheck.Proofs.Tree.Walk

/-!
# The ancestry of a tree

While an ancestry is built, the identifiers in the builder are those of the nodes that the
walk is below.  So the walk enters the placements of the tree one after another
(`ofTree_eq_foldl`), each under the node directly above it, and a later placement replaces
an earlier one with the same identifier.

Identifiers may repeat in any way: a node may have the identifier of the node above it or
of the root, and the root then has a parent.
-/

namespace TreeCheck

theorem NodeId.distinctCount_concat (xs : List NodeId) (x : NodeId) :
    distinctCount (xs ++ [x]) = if x ∈ xs then distinctCount xs else distinctCount xs + 1 := by
  rw [distinctCount, distinctCount, List.eraseDups_append, List.length_append]
  by_cases hx : x ∈ xs
  · simp [List.removeAll, hx]
  · simp [List.removeAll, hx, List.eraseDups_cons]

namespace Ancestry

/-- Enters a node at its place. -/
def place (a : Ancestry) (p : Placement) : Ancestry :=
  match p.above with
  | [] => { a with root := some p.node.id }
  | n :: _ => { a with parents := a.parents.insert p.node.id n.id }

theorem ofTree_eq_foldl (t : Node) : ofTree t = t.placements.foldl place .empty := by
  have walked := Node.foldl_signals Builder.receive (fun above a => ⟨a, above.map Node.id⟩) place
    (fun n above a => by cases above <;> rfl) (fun _ _ _ => rfl) t [] .empty
  rw [ofTree]
  exact congrArg Builder.ancestry walked

/-- The node above the last of these placements that has the identifier `x`. -/
def lastParent? (ps : List Placement) (x : NodeId) : Option NodeId :=
  (ps.filter fun p => decide (p.node.id = x)).getLast?.bind fun p => p.above.head?.map Node.id

theorem lastParent?_concat (ps : List Placement) (p : Placement) (x : NodeId) :
    lastParent? (ps ++ [p]) x =
      if p.node.id = x then p.above.head?.map Node.id else lastParent? ps x := by
  by_cases hx : p.node.id = x <;> simp [lastParent?, hx]

/-- The tree's root and the nodes of the placements `ps` have been entered.  No other root
is among them. -/
structure Records (a : Ancestry) (t : Node) (ps : List Placement) : Prop where
  root : a.root = some t.id
  mem : ∀ x, x ∈ a.parents ↔ x ∈ ps.map fun p => p.node.id
  parent? : ∀ x, a.parent? x = lastParent? ps x
  size : a.size = NodeId.distinctCount (ps.map fun p => p.node.id)

namespace Records

variable {a : Ancestry} {t : Node} {ps : List Placement}

theorem start (t : Node) : ((Ancestry.empty).place ⟨t, []⟩).Records t [] where
  root := rfl
  mem x := by simp [place, empty]
  parent? x := by simp [place, empty, Ancestry.parent?, lastParent?]
  size := rfl

theorem place {p : Placement} (h : a.Records t ps) (hp : p.above ≠ []) :
    (a.place p).Records t (ps ++ [p]) := by
  obtain ⟨node, above⟩ := p
  cases above with
  | nil => exact absurd rfl hp
  | cons n rest =>
    constructor
    · exact h.root
    · intro x
      show x ∈ a.parents.insert node.id n.id ↔ _
      rw [Std.HashMap.mem_insert, beq_iff_eq, h.mem, List.map_append, List.mem_append,
        List.map_singleton, List.mem_singleton, or_comm, eq_comm]
    · intro x
      show (a.parents.insert node.id n.id)[x]? = _
      rw [Std.HashMap.getElem?_insert, lastParent?_concat, ← h.parent?]
      simp only [beq_iff_eq]
      rfl
    · show (a.parents.insert node.id n.id).size = _
      have size : a.parents.size = NodeId.distinctCount (ps.map fun p => p.node.id) := h.size
      rw [Std.HashMap.size_insert, List.map_append, List.map_singleton,
        NodeId.distinctCount_concat, size]
      simp only [h.mem]

theorem parent?_eq_none_iff (h : a.Records t ps) (x : NodeId) :
    a.parent? x = none ↔ x ∉ ps.map fun p => p.node.id := by
  rw [Ancestry.parent?, ← Option.not_isSome_iff_eq_none, ← Std.HashMap.mem_iff_isSome_getElem?,
    h.mem]

theorem foldl (h : a.Records t ps) (qs : List Placement) (hqs : ∀ q ∈ qs, q.above ≠ []) :
    (qs.foldl Ancestry.place a).Records t (ps ++ qs) := by
  induction qs generalizing a ps with
  | nil => rw [List.append_nil]; exact h
  | cons q qs ih =>
    rw [List.append_cons]
    exact ih (h.place (hqs q List.mem_cons_self)) fun r hr => hqs r (List.mem_cons_of_mem q hr)

end Records

theorem records_ofTree (t : Node) : (ofTree t).Records t t.placements.tail := by
  have first : t.placements = ⟨t, []⟩ :: t.placements.tail := by
    rw [Node.placements, t.placementsBelow_eq, List.tail_cons]
  have below : ∀ p ∈ t.placements.tail, p.above ≠ [] := by
    intro p hp
    obtain ⟨n, rest, habove, -⟩ := Node.exists_parent hp
    rw [habove]
    exact List.cons_ne_nil n rest
  have h := (Records.start t).foldl t.placements.tail below
  rw [ofTree_eq_foldl, first, List.foldl_cons, List.tail_cons]
  exact h

/-! ## The last node with an identifier -/

theorem lastParent?_of_last {before after : List Placement} {p : Placement}
    (h : ∀ q ∈ after, q.node.id ≠ p.node.id) :
    lastParent? (before ++ p :: after) p.node.id = p.above.head?.map Node.id := by
  have none_left : after.filter (fun q => decide (q.node.id = p.node.id)) = [] := by
    simpa using h
  simp [lastParent?, none_left]

/-- The parent of an identifier is that of the last node with the identifier, of all nodes
other than the root. -/
theorem ofTree_parents (t : Node) :
    let a := ofTree t
    let below := t.placements.tail
    a.root = some t.id ∧
      (∀ x, a.parent? x = none ↔ ∀ p ∈ below, p.node.id ≠ x) ∧
      (∀ before p after, below = before ++ p :: after → (∀ q ∈ after, q.node.id ≠ p.node.id) →
        ∃ n rest, p.above = n :: rest ∧ p.node ∈ n.children ∧ a.parent? p.node.id = some n.id) ∧
      a.size = NodeId.distinctCount (below.map fun p => p.node.id) ∧
      (a.isEmpty = true ↔ t.children = []) := by
  intro a below
  have h : a.Records t below := records_ofTree t
  refine ⟨h.root, ?_, ?_, h.size, ?_⟩
  · intro x
    rw [h.parent?_eq_none_iff]
    simp only [List.mem_map, not_exists, not_and, below, ne_eq]
  · intro before p after hbelow hafter
    have hp : p ∈ below := by
      rw [hbelow]
      exact List.mem_append_right _ List.mem_cons_self
    obtain ⟨n, rest, habove, hchild⟩ := Node.exists_parent hp
    refine ⟨n, rest, habove, hchild, ?_⟩
    rw [h.parent?, hbelow, lastParent?_of_last hafter, habove]
    rfl
  · rw [← Node.tail_placements_eq_nil_iff, isEmpty, Std.HashMap.isEmpty_iff_forall_not_mem]
    simp only [h.mem, ← List.eq_nil_iff_forall_not_mem, List.map_eq_nil_iff]
    rfl

/-- A node with the identifier of the root, and two nodes with one identifier of which the
later one counts. -/
theorem ofTree_parents_repeated :
    let first : Node := .block ⟨⟨2⟩, [.reference ⟨1⟩ "x"]⟩
    let second : Node := .block ⟨⟨3⟩, [.reference ⟨2⟩ "y"]⟩
    let t : Node := .block ⟨⟨1⟩, [first, second]⟩
    let a := ofTree t
    t.placements.tail = [⟨first, [t]⟩, ⟨.reference ⟨1⟩ "x", [first, t]⟩, ⟨second, [t]⟩] ++
        [⟨.reference ⟨2⟩ "y", [second, t]⟩] ∧
      a.parent? ⟨2⟩ = some ⟨3⟩ ∧ a.parent? ⟨1⟩ = some ⟨2⟩ ∧ a.parent? ⟨4⟩ = none ∧ a.size = 3 := by
  intro first second t a
  obtain ⟨-, hnone, hlast, hsize, -⟩ := ofTree_parents t
  obtain ⟨n, rest, hn, -, htwo⟩ :=
    hlast [⟨first, [t]⟩, ⟨.reference ⟨1⟩ "x", [first, t]⟩, ⟨second, [t]⟩]
      ⟨.reference ⟨2⟩ "y", [second, t]⟩ [] rfl (by decide)
  obtain ⟨m, rest', hm, -, hone⟩ :=
    hlast [⟨first, [t]⟩] ⟨.reference ⟨1⟩ "x", [first, t]⟩ _ rfl (by decide)
  cases hn
  cases hm
  refine ⟨rfl, htwo, hone, (hnone ⟨4⟩).mpr (by decide), hsize.trans (by decide)⟩

end Ancestry
end TreeCheck
