import TreeCheck.Proofs.Ancestry
import TreeCheck.Proofs.Check.Verdict

/-!
# Reused identifiers

A check reports every node whose identifier has been met before, and an ancestry has one
entry for every identifier below the root.  Neither knows of the other, but each of them
tells how many identifiers are used more than once: `count_eq_of_uncapped` states that the
two accounts of a tree add up to the number of its nodes.
-/

namespace TreeCheck

namespace NodeId

theorem distinctCount_eq_card (xs : List NodeId) : distinctCount xs = xs.toFinset.card := by
  induction xs using List.reverseRecOn with
  | nil => rfl
  | append_singleton xs x ih =>
    rw [distinctCount_concat, ih, toFinset_concat, Finset.card_insert_eq_ite]
    simp only [List.mem_toFinset]

theorem distinctCount_cons (x : NodeId) (xs : List NodeId) :
    distinctCount (x :: xs) = distinctCount xs + if x ∈ xs then 0 else 1 := by
  rw [distinctCount_eq_card, distinctCount_eq_card, List.toFinset_cons, Finset.card_insert_eq_ite]
  simp only [List.mem_toFinset]
  split <;> rfl

theorem distinctCount_le_length (xs : List NodeId) : distinctCount xs ≤ xs.length := by
  rw [distinctCount_eq_card]
  exact List.toFinset_card_le xs

end NodeId

namespace Ancestry

/-- An ancestry counts every identifier below the root, and so misses that of the root
exactly if it has no parent. -/
theorem distinctCount_preorder (t : Node) :
    NodeId.distinctCount (t.preorder.map Node.id) =
      (ofTree t).size + if (ofTree t).parent? t.id = none then 1 else 0 := by
  have h : (ofTree t).Records t t.placements.tail := records_ofTree t
  rw [t.map_id_preorder, NodeId.distinctCount_cons, h.size]
  simp only [h.parent?_eq_none_iff, ite_not]

theorem size_lt_count (t : Node) : (ofTree t).size < t.count := by
  have h : (ofTree t).Records t t.placements.tail := records_ofTree t
  have nodes := congrArg List.length t.map_id_preorder
  rw [List.length_map, t.length_preorder, List.length_cons] at nodes
  rw [h.size, nodes]
  exact Nat.lt_succ_of_le (NodeId.distinctCount_le_length _)

end Ancestry

namespace Check

theorem length_breaksIn_duplicateNodeId (t : Node) :
    (breaksIn t .duplicateNodeId).length + NodeId.distinctCount (t.preorder.map Node.id) =
      t.count := by
  have count := length_breaksIn_add_card (t := t) (r := .duplicateNodeId) nofun
    fun _ _ _ => breaks_duplicateNodeId_eq_nil_iff
  rwa [List.filterMap_eq_map, ← NodeId.distinctCount_eq_card, List.length_map,
    t.length_preorder] at count

/-- The nodes of a tree are those that a check reports for a repeated identifier, those that
an ancestry counts, and the root unless its identifier is used again below it. -/
theorem count_eq_of_uncapped {o : Options} (hids : o.duplicateNodeIds = true)
    (hcap : o.maxErrors = none) (t : Node) :
    let a := Ancestry.ofTree t
    t.count = (errors o t).countP (fun e => decide (e.rule = .duplicateNodeId)) + a.size +
        (if a.parent? t.id = none then 1 else 0) ∧
      ((∀ e ∈ errors o t, e.rule ≠ .duplicateNodeId) ↔
        a.size + 1 = t.count ∧ a.parent? t.id = none) := by
  intro a
  have reused : (breaksIn t .duplicateNodeId).length +
      (a.size + if a.parent? t.id = none then 1 else 0) = t.count := by
    rw [← Ancestry.distinctCount_preorder]
    exact length_breaksIn_duplicateNodeId t
  have known : a.size < t.count := Ancestry.size_lt_count t
  have silent : (∀ e ∈ errors o t, e.rule ≠ .duplicateNodeId) ↔
      (errors o t).countP (fun e => decide (e.rule = .duplicateNodeId)) = 0 := by
    simp [List.countP_eq_zero]
  rw [silent, countP_rule_errors (r := .duplicateNodeId) hids hcap]
  -- the ancestry counts the root too exactly if the root's identifier has a parent
  by_cases hparent : a.parent? t.id = none
  · rw [if_pos hparent] at reused ⊢
    refine ⟨by omega, fun _ => ⟨by omega, hparent⟩, fun h => ?_⟩
    have hsize := h.1
    omega
  · rw [if_neg hparent] at reused ⊢
    exact ⟨by omega, iff_of_false (by omega) fun h => hparent h.2⟩

/-- A node with the identifier of the root, and two nodes with one identifier. -/
theorem count_eq_repeated :
    let first : Node := .block ⟨⟨2⟩, [.reference ⟨1⟩ "x"]⟩
    let second : Node := .block ⟨⟨3⟩, [.reference ⟨2⟩ "y"]⟩
    let t : Node := .block ⟨⟨1⟩, [first, second]⟩
    let a := Ancestry.ofTree t
    Options.all.duplicateNodeIds = true ∧ Options.all.maxErrors = none ∧
      t.count = (errors .all t).countP (fun e => decide (e.rule = .duplicateNodeId)) + a.size +
        (if a.parent? t.id = none then 1 else 0) ∧
      t.count = 5 ∧ errors .all t = [.duplicateNodeId ⟨1⟩, .duplicateNodeId ⟨2⟩] ∧ a.size = 3 := by
  intro first second t a
  have herrors : errors .all t = [.duplicateNodeId ⟨1⟩, .duplicateNodeId ⟨2⟩] := by
    rw [errors_all]
    decide
  have hsize : a.size = 3 := (Ancestry.records_ofTree t).size.trans (by decide)
  exact ⟨rfl, rfl, (count_eq_of_uncapped rfl rfl t).1, by decide, herrors, hsize⟩

end Check
end TreeCheck
