import Mathlib.Data.List.Induction
import Mathlib.Data.List.Infix
import TreeCheck.Proofs.Outline
import TreeCheck.Proofs.Text.Lines
import TreeCheck.Proofs.Tree.Traversal

/-!
# Outlines that are already begun

An outline need not begin with a walk.  Nodes can be told to it one by one, and the walk of a
whole tree then goes on below those that are still open.  As long as no more nodes are left
than have been come to, the depth is the number of open ones, and a walk gives it back as it
was, since it leaves what it enters (`depth_follow`).

No name and no literal breaks a line, so the lines of an outline are those of its nodes.  The
lines that a walk adds are therefore the lines of the tree's own outline, moved to the right.
-/

namespace TreeCheck

/-- How often these calls signal one moment of a walk. -/
def Call.times (phase : Phase) (calls : List Call) : Nat :=
  (nodesAt phase (calls.flatMap Call.signals)).length

theorem Call.times_concat (phase : Phase) (calls : List Call) (c : Call) :
    times phase (calls ++ [c]) = times phase calls + (nodesAt phase c.signals).length := by
  rw [times, List.flatMap_append, List.flatMap_singleton, nodesAt_append, List.length_append]
  rfl

theorem Node.length_nodesAt_depart (t : Node) :
    (nodesAt .arrive t.signals).length = (nodesAt .depart t.signals).length := by
  have hperm := t.nested_signals.perm.length_eq
  rwa [List.append_nil] at hperm

namespace Outline

/-! ## The depth -/

theorem depth_follow (o : Outline) (c : Call) :
    (o.follow c).depth =
      o.depth + (nodesAt .arrive c.signals).length - (nodesAt .depart c.signals).length := by
  cases c with
  | signal g =>
    obtain ⟨phase, n⟩ := g
    cases phase <;> simp [follow, Call.signals, receive]
  | walk t =>
    have hwalk : (o.follow (.walk t)).depth = o.depth := by
      rw [follow, Call.signals, foldl_signals o.depth t o.text]
    rw [hwalk, Call.signals, t.length_nodesAt_depart, Nat.add_sub_cancel]

theorem depth_foldl {calls : List Call}
    (h : ∀ front, front <+: calls → Call.times .depart front ≤ Call.times .arrive front) :
    (calls.foldl follow empty).depth = Call.times .arrive calls - Call.times .depart calls := by
  induction calls using List.reverseRecOn with
  | nil => rfl
  | append_singleton calls c ih =>
    have earlier := ih fun front hfront => h front (hfront.trans (List.prefix_append calls [c]))
    have open_left := h calls (List.prefix_append calls [c])
    rw [List.foldl_append, List.foldl_cons, List.foldl_nil, depth_follow, earlier,
      Call.times_concat, Call.times_concat]
    omega

/-! ## The lines -/

theorem indent_add (d e : Nat) : indent (d + e) = indent d ++ indent e := by
  rw [indent, Nat.mul_add, List.replicate_add, String.ofList_append]
  rfl

end Outline

/-- A row without its line feed. -/
def Placement.indentedLine (d : Nat) (p : Placement) : String :=
  Outline.indent (d + p.above.length) ++ p.node.line

theorem Placement.newline_notMem_indentedLine (d : Nat) (p : Placement) :
    '\n' ∉ (p.indentedLine d).toList := by
  rw [indentedLine, Outline.indent, String.toList_append, String.toList_ofList, List.mem_append]
  rintro (hspace | hline)
  · exact absurd (List.eq_of_mem_replicate hspace) (by decide)
  · cases p.node.inline_line _ hline

theorem Placement.indentedLine_eq (d : Nat) (p : Placement) :
    p.indentedLine d = Outline.indent d ++ p.indentedLine 0 := by
  rw [indentedLine, indentedLine, Outline.indent_add, Nat.zero_add, String.append_assoc]

def Node.indentedLines (d : Nat) (t : Node) : List String :=
  t.placements.map (Placement.indentedLine d)

theorem Node.lines_indentedLines (d : Nat) (t : Node) :
    Text.lines (Text.ofLines (t.indentedLines d)) = t.indentedLines d := by
  refine Text.lines_ofLines fun l hl => ?_
  obtain ⟨p, -, rfl⟩ := List.mem_map.mp hl
  exact p.newline_notMem_indentedLine d

theorem Outline.follow_walk (o : Outline) (t : Node) :
    o.follow (.walk t) = ⟨o.text ++ Text.ofLines (t.indentedLines o.depth), o.depth⟩ := by
  have rows : t.placements.map (Placement.row o.depth) =
      (t.indentedLines o.depth).map (· ++ "\n") := by
    rw [Node.indentedLines, List.map_map]
    rfl
  rw [follow, Call.signals, Text.ofLines, ← rows]
  exact foldl_signals o.depth t o.text

theorem Node.lines_outline (t : Node) : Text.lines t.outline = t.indentedLines 0 := by
  have houtline : t.outline = Text.ofLines (t.indentedLines 0) := by
    rw [outline, Outline.follow_walk, Outline.empty, String.empty_append]
  rw [houtline, t.lines_indentedLines]

/-- A walk adds the lines of the tree's own outline below what is open, and leaves the rest of
the outline as it was. -/
theorem Outline.follow_walk_of_calls {calls : List Call}
    (h : ∀ front, front <+: calls → Call.times .depart front ≤ Call.times .arrive front)
    (t : Node) :
    let o := calls.foldl follow empty
    let d := Call.times .arrive calls - Call.times .depart calls
    let rows := Text.ofLines (t.placements.map fun p => indent (d + p.above.length) ++ p.node.line)
    o.depth = d ∧ o.follow (.walk t) = ⟨o.text ++ rows, d⟩ ∧
      (Text.lines rows).length = t.count ∧ rows = Text.withMargin (indent d) t.outline ∧
      (∀ n : Node, '\n' ∉ n.line.toList ∧ '\r' ∉ n.line.toList) ∧
      ∀ n, o.receive ⟨.enter, n⟩ = o ∧ o.receive ⟨.leave, n⟩ = o := by
  intro o d rows
  have hdepth : o.depth = d := depth_foldl h
  have hrows : rows = Text.ofLines (t.indentedLines d) := rfl
  refine ⟨hdepth, ?_, ?_, ?_, ?_, fun n => ⟨rfl, rfl⟩⟩
  · rw [o.follow_walk t, hdepth, hrows]
  · rw [hrows, t.lines_indentedLines, Node.indentedLines, List.length_map, ← t.length_preorder,
      ← t.map_node_placements, List.length_map]
  · have moved : t.indentedLines d = (t.indentedLines 0).map (indent d ++ ·) := by
      rw [Node.indentedLines, Node.indentedLines, List.map_map]
      exact List.map_congr_left fun p _ => p.indentedLine_eq d
    rw [hrows, moved, Text.withMargin, t.lines_outline]
  · intro n
    constructor
    · intro hn
      cases n.inline_line _ hn
    · intro hn
      cases n.inline_line _ hn

/-- Below one open node, a name with a line feed in it stays on its line. -/
theorem Outline.follow_walk_of_calls_open :
    let block : Node := .block ⟨⟨1⟩, []⟩
    let calls : List Call :=
      [.signal ⟨.arrive, block⟩, .walk (.literal ⟨2⟩ .null), .signal ⟨.arrive, block⟩,
       .signal ⟨.depart, block⟩]
    let t : Node := .returnStatement ⟨4⟩ (some (.reference ⟨5⟩ "a\nb"))
    let o := calls.foldl follow empty
    (∀ front, front <+: calls → Call.times .depart front ≤ Call.times .arrive front) ∧
      o.follow (.walk t) =
        ⟨o.text ++ "  ReturnStatement\x7bid=4, value=#5\x7d\n" ++
          "    Reference\x7bid=5, name=\"a\\nb\"\x7d\n", 1⟩ := by
  intro block calls t o
  have hcalls : ∀ front, front <+: calls → Call.times .depart front ≤ Call.times .arrive front := by
    have all : ∀ front ∈ calls.inits, Call.times .depart front ≤ Call.times .arrive front := by
      decide
    intro front hfront
    exact all front ((List.mem_inits front calls).mpr hfront)
  have hdepth : Call.times .arrive calls - Call.times .depart calls = 1 := by decide
  have hlines :
      Text.ofLines (t.placements.map fun p => indent (1 + p.above.length) ++ p.node.line) =
      "  ReturnStatement\x7bid=4, value=#5\x7d\n" ++
        "    Reference\x7bid=5, name=\"a\\nb\"\x7d\n" := by
    decide +kernel
  obtain ⟨-, hwalk, -⟩ := follow_walk_of_calls hcalls t
  rw [hdepth, hlines, ← String.append_assoc] at hwalk
  exact ⟨hcalls, hwalk⟩

end TreeCheck
