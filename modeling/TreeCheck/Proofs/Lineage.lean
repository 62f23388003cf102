import TreeCheck.Proofs.Ancestors
import TreeCheck.Proofs.Indentation

/-!
# Ancestors in a tree without repeated identifiers

Where no identifier is repeated, an ancestry has for every node the node directly above it
(`parent?_of_nodup`), and no parent for the root.  Steps from parent to parent therefore lead
up to the root, and the cut of a list of ancestors is not reached.  Two complete chains from
one identifier are the same (`eq_of_isChain_up`), so the ancestors of a node are its parent and
the ancestors of that, and going down the tree they are the nodes above the node.

Their number is the depth of the node, which an outline shows by its indentation.
-/

namespace TreeCheck

namespace Ancestry

open Relation

variable {a : Ancestry} {x y : NodeId} {t : Node}

/-! ## Complete chains -/

/-- Chains that go on until there is no parent cannot part. -/
theorem eq_of_isChain_up {as bs : List NodeId} (has : (x :: as).IsChain a.Up)
    (hbs : (x :: bs).IsChain a.Up)
    (has' : ∃ y, (x :: as).getLast? = some y ∧ a.parent? y = none)
    (hbs' : ∃ y, (x :: bs).getLast? = some y ∧ a.parent? y = none) : as = bs := by
  induction as generalizing x bs with
  | nil =>
    obtain ⟨y, hy, hnone⟩ := has'
    cases hy
    cases bs with
    | nil => rfl
    | cons b bs => exact absurd (List.isChain_cons_cons.mp hbs).1 (not_up_of_none hnone)
  | cons c as ih =>
    rw [List.isChain_cons_cons] at has
    cases bs with
    | nil =>
      obtain ⟨y, hy, hnone⟩ := hbs'
      cases hy
      exact absurd has.1 (not_up_of_none hnone)
    | cons b bs =>
      rw [List.isChain_cons_cons] at hbs
      obtain rfl : c = b := has.1.eq hbs.1
      rw [List.getLast?_cons_cons] at has' hbs'
      rw [ih has.2 hbs.2 has' hbs']

theorem Ends.of_up (hxy : a.Up x y) (h : a.Ends y) : a.Ends x := by
  obtain ⟨z, hyz, hz⟩ := h
  exact ⟨z, .head hxy hyz, hz⟩

theorem stops_of_ends (h : a.Ends x) :
    ∃ y, (x :: a.ancestors x).getLast? = some y ∧ a.parent? y = none :=
  stops_of_nodup (nodup_of_ends (a.isChain_ancestors x) h)

theorem ancestors_of_up (hxy : a.Up x y) (h : a.Ends y) :
    a.ancestors x = y :: a.ancestors y := by
  refine eq_of_isChain_up (a.isChain_ancestors x) ((a.isChain_ancestors y).cons_cons hxy)
    (stops_of_ends (h.of_up hxy)) ?_
  rw [List.getLast?_cons_cons]
  exact stops_of_ends h

theorem ancestors_of_none (h : a.parent? x = none) : a.ancestors x = [] := by
  rw [ancestors, h]
  cases a.size <;> rfl

/-! ## Trees without repeated identifiers -/

theorem parent?_root_of_nodup (h : (t.preorder.map Node.id).Nodup) :
    (ofTree t).parent? t.id = none := by
  rw [t.map_id_preorder, List.nodup_cons] at h
  rw [(records_ofTree t).parent?_eq_none_iff]
  exact h.1

theorem parent?_of_nodup (h : (t.preorder.map Node.id).Nodup) {p : Placement}
    (hp : p ∈ t.placements) : (ofTree t).parent? p.node.id = p.above.head?.map Node.id := by
  rw [Node.placements, t.placementsBelow_eq, List.mem_cons] at hp
  rcases hp with rfl | hp
  · exact parent?_root_of_nodup h
  · have htail : p ∈ t.placements.tail := by
      rw [Node.placements, t.placementsBelow_eq]
      exact hp
    obtain ⟨before, after, hbelow⟩ := List.append_of_mem htail
    rw [t.map_id_preorder, List.nodup_cons, hbelow, List.map_append, List.map_cons] at h
    have hafter : ∀ q ∈ after, q.node.id ≠ p.node.id := by
      intro q hq hid
      have hfresh := (List.nodup_cons.mp h.2.of_append_right).1
      exact hfresh (hid ▸ List.mem_map_of_mem hq)
    rw [(records_ofTree t).parent?, hbelow, lastParent?_of_last hafter]

theorem ancestors_of_nodup (h : (t.preorder.map Node.id).Nodup) {p : Placement}
    (hp : p ∈ t.placements) :
    (ofTree t).Ends p.node.id ∧ (ofTree t).ancestors p.node.id = p.above.map Node.id := by
  induction hp using Node.placement_induction with
  | root =>
    have hroot : (ofTree t).parent? t.id = none := parent?_root_of_nodup h
    exact ⟨⟨t.id, .refl, hroot⟩, ancestors_of_none hroot⟩
  | child q hq c hc ih =>
    have hup : (ofTree t).Up c.id q.node.id :=
      parent?_of_nodup h (Node.mem_placementsBelow_child hq hc)
    exact ⟨ih.1.of_up hup, by rw [ancestors_of_up hup ih.1, ih.2, List.map_cons]⟩

theorem unknown_of_notMem (hx : x ∉ t.preorder.map Node.id) :
    (ofTree t).parent? x = none ∧ (ofTree t).ancestors x = [] := by
  rw [t.map_id_preorder, List.mem_cons, not_or] at hx
  have hparent : (ofTree t).parent? x = none := by
    rw [(records_ofTree t).parent?_eq_none_iff]
    exact hx.2
  exact ⟨hparent, ancestors_of_none hparent⟩

/-- The answers of an ancestry for the node at a place of the tree are what stands above it. -/
structure Answers (a : Ancestry) (t : Node) (p : Placement) : Prop where
  /-- What stands above a node leads from parent to parent and ends at the root. -/
  path : (p.node :: p.above).IsChain fun c n => c ∈ n.children
  top : (p.node :: p.above).getLast? = some t
  parent? : a.parent? p.node.id = p.above.head?.map Node.id
  parent?_eq_none_iff : a.parent? p.node.id = none ↔ p = ⟨t, []⟩
  ancestors : a.ancestors p.node.id = p.above.map Node.id
  nodup : (a.ancestors p.node.id).Nodup
  getLast? : p ≠ ⟨t, []⟩ → (a.ancestors p.node.id).getLast? = a.root

theorem answers_of_nodup (h : (t.preorder.map Node.id).Nodup) {p : Placement}
    (hp : p ∈ t.placements) : (ofTree t).Answers t p := by
  obtain ⟨hpath, htop⟩ := Node.isChain_above hp
  obtain ⟨hends, hancestors⟩ := ancestors_of_nodup h hp
  have hparent := parent?_of_nodup h hp
  have hroot : (ofTree t).root = some t.id := (records_ofTree t).root
  obtain ⟨n, above⟩ := p
  have hempty : above = [] ↔ (⟨n, above⟩ : Placement) = ⟨t, []⟩ := by
    constructor
    · rintro rfl
      cases htop
      rfl
    · intro hp
      cases hp
      rfl
  refine ⟨hpath, htop, hparent, ?_, hancestors, ?_, ?_⟩
  · rw [hparent, Option.map_eq_none_iff, List.head?_eq_none_iff]
    exact hempty
  · exact (List.nodup_cons.mp (nodup_of_ends (isChain_ancestors _ _) hends)).2
  · intro hne
    obtain ⟨m, rest, rfl⟩ := List.exists_cons_of_ne_nil (mt hempty.mp hne)
    rw [List.getLast?_cons_cons] at htop
    rw [hancestors, List.getLast?_map, htop, hroot]
    rfl

/-- Where no identifier is repeated, an ancestry tells of every node what is above it, and of
no other identifier anything.  The indentation of an outline is the number of ancestors. -/
theorem ofTree_of_nodup (h : (t.preorder.map Node.id).Nodup) :
    let a := ofTree t
    (∀ p ∈ t.placements, a.Answers t p) ∧
      Text.lines t.outline =
        t.preorder.map (fun n => Outline.indent (a.ancestors n.id).length ++ n.line) ∧
      ∀ x, x ∉ t.preorder.map Node.id → a.parent? x = none ∧ a.ancestors x = [] := by
  intro a
  refine ⟨fun p hp => answers_of_nodup h hp, ?_, fun x hx => unknown_of_notMem hx⟩
  rw [t.lines_outline, Node.indentedLines, ← t.map_node_placements, List.map_map]
  refine List.map_congr_left fun p hp => ?_
  have hlength : (a.ancestors p.node.id).length = p.above.length := by
    rw [(answers_of_nodup h hp).ancestors, List.length_map]
  rw [Function.comp_apply, hlength, Placement.indentedLine, Nat.zero_add]

/-- A name deep in a file, and an identifier that no node has. -/
theorem ofTree_of_nodup_deep :
    let value : Node := .reference ⟨7⟩ "a"
    let result : Node := .returnStatement ⟨6⟩ (some value)
    let body : Block := ⟨⟨5⟩, [result]⟩
    let f : Function := ⟨⟨4⟩, ["a"], false, some body⟩
    let d : FunctionDeclaration := ⟨⟨3⟩, "run", false, f⟩
    let t : Node := .compilationUnit ⟨⟨1⟩, some ⟨⟨2⟩, "m"⟩, [], [d]⟩
    let p : Placement := ⟨value, [result, .block body, .function f, .functionDeclaration d, t]⟩
    let a := ofTree t
    (t.preorder.map Node.id).Nodup ∧ p ∈ t.placements ∧ a.parent? ⟨7⟩ = some ⟨6⟩ ∧
      a.ancestors ⟨7⟩ = [⟨6⟩, ⟨5⟩, ⟨4⟩, ⟨3⟩, ⟨1⟩] ∧
      (⟨9⟩ : NodeId) ∉ t.preorder.map Node.id ∧ a.parent? ⟨9⟩ = none := by
  intro value result body f d t p a
  have hids : (t.preorder.map Node.id).Nodup := by decide
  have hp : p ∈ t.placements := List.mem_of_getElem? (i := 6) rfl
  have hunknown : (⟨9⟩ : NodeId) ∉ t.preorder.map Node.id := by decide
  obtain ⟨hanswers, -, hother⟩ := ofTree_of_nodup hids
  have hvalue : a.Answers t p := hanswers p hp
  exact ⟨hids, hp, hvalue.parent?, hvalue.ancestors, hunknown, (hother ⟨9⟩ hunknown).1⟩

end Ancestry
end TreeCheck
