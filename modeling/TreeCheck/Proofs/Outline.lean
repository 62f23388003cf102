import TreeCheck.Outline
import TreeCheck.Proofs.Tree.Same
import TreeCheck.Proofs.Tree.Walk

/-!
# The outline of a tree can be read back

A walk adds one row for every node to an outline, in pre-order, and leaves the depth as it
was (`Outline.foldl_signals`).  A reader of a row sees where its spaces end, because no
line starts with one, and where its line ends, because lines can be read back.  So the rows
of an outline can be told apart, and they are the pre-order of the tree, from which the tree
itself comes back, constructor by constructor (`Node.SameBy`).

The indentation is not needed for this: the slots on the line of a node tell how many
children follow.
-/

namespace TreeCheck

open Text (MadeOf StopsAt)

variable {same : Binary64 → Binary64 → Prop}

/-! ## The rows of an outline -/

/-- The row of a node in the outline of a tree that stands below `d` nodes. -/
def Placement.row (d : Nat) (p : Placement) : String :=
  Outline.indent (d + p.above.length) ++ p.node.line ++ "\n"

namespace Outline

theorem foldl_row (d : Nat) (ps : List Placement) (text : String) :
    (ps.foldl (fun text p => text ++ p.row d) text) =
      text ++ String.join (ps.map (Placement.row d)) := by
  induction ps generalizing text with
  | nil => simp
  | cons p ps ih => rw [List.foldl_cons, ih, List.map_cons, String.join_cons, String.append_assoc]

theorem foldl_signals (d : Nat) (t : Node) (text : String) :
    t.signals.foldl receive ⟨text, d⟩ =
      ⟨text ++ String.join (t.placements.map (Placement.row d)), d⟩ := by
  have walked := Node.foldl_signals receive (fun above text => ⟨text, d + above.length⟩)
    (fun text p => text ++ p.row d)
    (fun _ _ _ => by simp [receive, addLine, Placement.row, String.append_assoc, Nat.add_assoc])
    (fun _ _ _ => by simp [receive]) t [] text
  rw [← foldl_row]
  exact walked

end Outline

theorem Node.toList_outline (t : Node) :
    t.outline.toList = t.placements.flatMap fun p => (p.row 0).toList := by
  rw [outline, Outline.follow, Call.signals, Outline.empty, Outline.foldl_signals,
    String.toList_append, String.toList_join, List.flatMap_map]
  rfl

/-! ## Reading rows -/

theorem Node.stopsAt_line (n : Node) (r : List Char) :
    StopsAt (· == ' ') (n.line.toList ++ r) := by
  rw [n.toList_line_append]
  have hword := n.kind.word_name
  cases hname : n.kind.name.toList with
  | nil => exact Text.stopsAt_cons (by decide) _
  | cons c cs =>
    have hc : (c == ' ') = false := by
      rw [beq_eq_false_iff_ne]
      rintro rfl
      rw [hname] at hword
      cases hword ' ' List.mem_cons_self
    rw [List.cons_append]
    exact Text.stopsAt_cons (p := (· == ' ')) hc _

/-- The nodes stand equally deep and agree in all but what lies below them. -/
structure Placement.AlikeBy (same : Binary64 → Binary64 → Prop) (p q : Placement) : Prop where
  depth : p.above.length = q.above.length
  node : p.node.RootAlikeBy same q.node

theorem Placement.toList_row_append (p : Placement) (d : Nat) (r : List Char) :
    (p.row d).toList ++ r =
      List.replicate (2 * (d + p.above.length)) ' ' ++ (p.node.line.toList ++ '\n' :: r) := by
  simp [row, Outline.indent]

theorem Placement.row_append_inj {p q : Placement} {d : Nat} {r s : List Char}
    (h : (p.row d).toList ++ r = (q.row d).toList ++ s) :
    p.AlikeBy Binary64.SameText q ∧ r = s := by
  have spaces : ∀ n, MadeOf (· == ' ') (List.replicate n ' ') := by
    intro n c hc
    rw [List.eq_of_mem_replicate hc]
    rfl
  rw [toList_row_append, toList_row_append] at h
  obtain ⟨hindent, hline⟩ := Text.append_inj_of_stopsAt (spaces _) (spaces _)
    (p.node.stopsAt_line _) (q.node.stopsAt_line _) h
  obtain ⟨hnode, hrest⟩ := Node.line_append_inj hline
  have hlength := congrArg List.length hindent
  simp only [List.length_replicate] at hlength
  exact ⟨⟨by omega, hnode⟩, (List.cons.inj hrest).2⟩

theorem Placement.alikeBy_of_rows {d : Nat} {ps qs : List Placement}
    (h : (ps.flatMap fun p => (p.row d).toList) = qs.flatMap fun q => (q.row d).toList) :
    List.Forall₂ (Placement.AlikeBy Binary64.SameText) ps qs := by
  have nonempty : ∀ (p : Placement) (r : List Char), [] ≠ (p.row d).toList ++ r := by
    intro p r
    rw [toList_row_append]
    simp
  induction ps generalizing qs with
  | nil =>
    cases qs with
    | nil => exact .nil
    | cons q qs => exact absurd h (nonempty q _)
  | cons p ps ih =>
    cases qs with
    | nil => exact absurd h.symm (nonempty p _)
    | cons q qs =>
      rw [List.flatMap_cons, List.flatMap_cons] at h
      obtain ⟨hpq, hrest⟩ := row_append_inj h
      exact .cons hpq (ih hrest)

theorem Node.alikeBy_of_outline_eq {a b : Node} (h : a.outline = b.outline) :
    a.AlikeBy Binary64.SameText b := by
  have hrows : List.Forall₂ (Placement.AlikeBy Binary64.SameText) a.placements b.placements := by
    apply Placement.alikeBy_of_rows (d := 0)
    rw [← a.toList_outline, ← b.toList_outline, h]
  have hnodes : List.Forall₂ (Node.RootAlikeBy Binary64.SameText) a.preorder b.preorder := by
    rw [← a.map_node_placements, ← b.map_node_placements, List.forall₂_map_left_iff,
      List.forall₂_map_right_iff]
    exact hrows.imp fun p q hpq => hpq.node
  rw [← List.append_nil a.preorder, ← List.append_nil b.preorder] at hnodes
  exact (alikeBy_of_preorder hnodes).1

/-! ## Writing alike trees -/

theorem Node.AlikeBy.placementsBelow {a b : Node} {above above' : List Node}
    (h : a.AlikeBy same b) (hdepth : above.length = above'.length) :
    List.Forall₂ (Placement.AlikeBy same) (a.placementsBelow above) (b.placementsBelow above') := by
  induction a using Node.induction generalizing b above above' with
  | step a ih =>
    rw [a.placementsBelow_eq, b.placementsBelow_eq]
    refine .cons ⟨hdepth, h.root⟩ ?_
    apply List.rel_flatMap ((List.forall₂_and_left _ _).mpr ⟨@ih, h.children⟩)
    intro c d hcd
    exact hcd.1 hcd.2 (congrArg Nat.succ hdepth)

theorem Placement.AlikeBy.row_eq {p q : Placement} (h : p.AlikeBy Binary64.SameText q) (d : Nat) :
    p.row d = q.row d := by
  rw [row, row, h.depth, Node.line_eq_iff.mpr h.node]

theorem Node.AlikeBy.outline_eq {a b : Node} (h : a.AlikeBy Binary64.SameText b) :
    a.outline = b.outline := by
  have hplacements : List.Forall₂ (Placement.AlikeBy Binary64.SameText) a.placements b.placements :=
    h.placementsBelow rfl
  rw [← String.toList_inj, a.toList_outline, b.toList_outline, ← List.forall₂_eq_eq_eq]
  apply List.rel_flatMap hplacements
  intro p q hpq
  rw [List.forall₂_eq_eq_eq]
  exact congrArg String.toList (hpq.row_eq 0)

/-! ## Rows are lines -/

theorem Placement.count_row (p : Placement) (d : Nat) : (p.row d).toList.count '\n' = 1 := by
  have line : p.node.line.toList.count '\n' = 0 := by
    rw [List.count_eq_zero]
    intro h
    cases p.node.inline_line _ h
  rw [← List.append_nil (p.row d).toList, toList_row_append, List.count_append, List.count_append,
    line, List.count_replicate]
  rfl

theorem Node.count_outline (t : Node) : t.outline.toList.count '\n' = t.count := by
  have rows : (List.count '\n' ∘ fun p : Placement => (p.row 0).toList) = fun _ => 1 := by
    funext p
    exact p.count_row 0
  have placements : t.placements.length = t.count := by
    rw [← t.length_preorder, ← t.map_node_placements, List.length_map]
  rw [t.toList_outline, List.count_flatMap, rows]
  simp [placements]

/-- An outline tells all of its tree but the bits of the doubles that are written alike:
trees have one outline if and only if they are built alike, and trees that are built alike
with equal doubles are equal.  The sorts of literals are told apart by the text of a literal
alone, and no text in a tree makes a line of its own. -/
theorem outline_loses_nothing :
    (∀ a b : Node, a.outline = b.outline ↔ a.SameBy Binary64.SameText b) ∧
    (∀ a b : Node, a.SameBy (· = ·) b ↔ a = b) ∧
    (∀ v w : LiteralValue, v.text = w.text → v.sort = w.sort) ∧
    ∀ t : Node, t.outline.toList.count '\n' = t.count := by
  refine ⟨fun a b => ?_, fun a b => Node.sameBy_eq_iff, ?_, Node.count_outline⟩
  · rw [← Node.alikeBy_iff_sameBy]
    exact ⟨Node.alikeBy_of_outline_eq, Node.AlikeBy.outline_eq⟩
  · exact fun v w => LiteralValue.sort_eq_of_text_eq

/-- Two NaNs with different bits stand in one outline. -/
theorem outline_of_nans :
    let x : Binary64 := ⟨0x7FF8000000000000⟩
    let y : Binary64 := ⟨0x7FF8000000000001⟩
    x ≠ y ∧ (LiteralValue.float x).text = (LiteralValue.float y).text ∧
      (LiteralValue.float x).sort = (LiteralValue.float y).sort ∧
      (Node.literal ⟨1⟩ (.float x)).outline = (Node.literal ⟨1⟩ (.float y)).outline := by
  intro x y
  have htext : (LiteralValue.float x).text = (LiteralValue.float y).text := by
    have hx : x.isNaN = true := by decide
    have hy : y.isNaN = true := by decide
    show x.text LiteralValue.floatLayout = y.text LiteralValue.floatLayout
    rw [Binary64.text, Binary64.text, if_pos hx, if_pos hy]
  have hsame : (Node.literal ⟨1⟩ (.float x)).SameBy Binary64.SameText (.literal ⟨1⟩ (.float y)) :=
    .literal htext
  obtain ⟨houtline, _, hsort, _⟩ := outline_loses_nothing
  exact ⟨by decide, htext, hsort _ _ htext, (houtline _ _).mpr hsame⟩

end TreeCheck
