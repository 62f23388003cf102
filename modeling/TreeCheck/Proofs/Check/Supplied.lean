import Mathlib.Data.List.Perm.Subperm
import TreeCheck.Proofs.Check.Reuse
import TreeCheck.Proofs.IdSupply

/-!
# Trees whose identifiers come from one supply

The rule on repeated identifiers asks that the nodes of a file get theirs from one supply.
This is enough, whatever the order in which they are given out and the trees are walked: a
supply hands out nothing twice, so the nodes of all the trees have different identifiers,
and a session that meets no identifier twice reports none (`Reflects.rule_ne`).  An
ancestry then tells all nodes apart too.
-/

namespace TreeCheck

theorem Ancestry.size_of_nodup {t : Node} (h : (t.preorder.map Node.id).Nodup) :
    (ofTree t).size + 1 = t.count ∧ (ofTree t).parent? t.id = none := by
  have hsize := distinctCount_preorder t
  have hlt := size_lt_count t
  rw [NodeId.distinctCount_eq_card, List.toFinset_card_of_nodup h, List.length_map,
    t.length_preorder] at hsize
  by_cases hparent : (ofTree t).parent? t.id = none
  · rw [if_pos hparent] at hsize
    exact ⟨hsize.symm, hparent⟩
  · rw [if_neg hparent] at hsize
    omega

namespace Check

/-- A repeated identifier is reported on arrival at a node that has the identifier of one
before it. -/
theorem mem_of_mem_findings {o : Options} {before : List Signal} {g : Signal} {e : SemanticError}
    (he : e ∈ g.findings o before) (hrule : e.rule = .duplicateNodeId) :
    g.phase = .arrive ∧ g.node.id ∈ (nodesAt .arrive before).map Node.id := by
  obtain ⟨phase, n⟩ := g
  rw [Signal.findings, breaksOf, List.mem_flatMap] at he
  obtain ⟨r, hr, he⟩ := he
  split at he
  · rw [rule_of_mem_breaks he] at hrule
    subst hrule
    cases phase with
    | arrive =>
      refine ⟨rfl, ?_⟩
      rw [breaks] at he
      split at he
      · assumption
      · cases he
    | enter | leave | depart => simp [Phase.rules] at hr
  · cases he

/-- A session that comes to no identifier twice reports no repeated identifier. -/
theorem Reflects.rule_ne {o : Options} {gs : List Signal} {s : Session} (h : Reflects o gs s)
    (hids : ((nodesAt .arrive gs).map Node.id).Nodup) :
    ∀ e ∈ s.errors.toList, e.rule ≠ .duplicateNodeId := by
  intro e he hrule
  rw [h.errors] at he
  obtain ⟨front, g, back, hgs, hg⟩ := exists_of_mem_gather ((o.cut_prefix _).subset he)
  obtain ⟨hphase, hmem⟩ := mem_of_mem_findings hg hrule
  rw [hgs, nodesAt_append, nodesAt_cons, if_pos hphase, List.map_append, List.map_cons] at hids
  exact List.disjoint_of_nodup_append hids hmem List.mem_cons_self

/-- Walking trees in one session reports no repeated identifier if all their nodes have
different ones. -/
theorem rule_ne_of_walkAll (o : Options) {ts : List Node}
    (hids : (ts.flatMap fun t => t.preorder.map Node.id).Nodup) :
    ∀ e ∈ ((ts.map Call.walk).foldl (Session.follow o) .fresh).errors.toList,
      e.rule ≠ .duplicateNodeId := by
  refine (Reflects.walkAll o ts).rule_ne ?_
  rw [Node.nodesAt_flatMap_signals (Or.inl rfl), List.map_flatMap]
  exact hids

/-- Trees whose nodes have got their identifiers from one supply are checked without a
report of a repeated identifier, one by one or in one session, and no entry of an ancestry
is replaced. -/
theorem supplied_unrepeated {first : NodeId} {requests : List IdSupply.Request} {ts : List Node}
    (h : (ts.flatMap fun t => t.preorder.map Node.id).Subperm
      ((IdSupply.startingAt first).issued requests)) (o : Options) :
    let walked (us : List Node) := (us.map Call.walk).foldl (Session.follow o) .fresh
    (∀ t ∈ ts, ∀ e ∈ errors o t, e.rule ≠ .duplicateNodeId) ∧
      (∀ us : List Node, us.Perm ts → ∀ e ∈ (walked us).errors.toList, e.rule ≠ .duplicateNodeId) ∧
      (∀ us r, (us ++ [r]).Perm ts →
        ∀ e ∈ ((walked us).run o r).errors.toList, e.rule ≠ .duplicateNodeId) ∧
      ∀ t ∈ ts,
        let a := Ancestry.ofTree t
        a.root = some t.id ∧ a.size + 1 = t.count ∧ a.parent? t.id = none := by
  intro walked
  have hids : (ts.flatMap fun t => t.preorder.map Node.id).Nodup := by
    obtain ⟨ids, hperm, hsublist⟩ := h
    exact hperm.nodup_iff.mp (((IdSupply.startingAt first).nodup_issued requests).sublist hsublist)
  have htree : ∀ t ∈ ts, (t.preorder.map Node.id).Nodup := (List.nodup_flatMap.mp hids).1
  have hwalked : ∀ us : List Node, us.Perm ts →
      ∀ e ∈ (walked us).errors.toList, e.rule ≠ .duplicateNodeId := by
    intro us hus
    exact rule_ne_of_walkAll o ((hus.flatMap_right _).nodup_iff.mpr hids)
  refine ⟨?_, hwalked, ?_, ?_⟩
  · intro t ht
    have halone : ([t].flatMap fun t => t.preorder.map Node.id).Nodup := by
      rw [List.flatMap_singleton]
      exact htree t ht
    exact rule_ne_of_walkAll o halone
  · intro us r hperm
    have hsession := hwalked (us ++ [r]) hperm
    simp only [walked, List.map_append, List.foldl_append] at hsession
    exact hsession
  · intro t ht a
    exact ⟨(Ancestry.records_ofTree t).root, Ancestry.size_of_nodup (htree t ht)⟩

/-- Two trees at the end of the numbers.  One identifier is not used, and the last request
is refused. -/
theorem supplied_unrepeated_greatest :
    let requests : List IdSupply.Request := [.take, .peek, .take, .take, .take, .take]
    let supply := IdSupply.startingAt ⟨4294967292⟩
    let large : Node := .block ⟨⟨4294967295⟩, [.reference ⟨4294967292⟩ "x"]⟩
    let small : Node := .reference ⟨4294967294⟩ "y"
    let walked := ([small, large].map Call.walk).foldl (Session.follow .all) .fresh
    ([large, small].flatMap fun t => t.preorder.map Node.id).Subperm (supply.issued requests) ∧
      (∀ e ∈ walked.errors.toList, e.rule ≠ .duplicateNodeId) ∧
      (Ancestry.ofTree large).size + 1 = large.count ∧
      (Ancestry.ofTree large).parent? ⟨4294967295⟩ = none := by
  intro requests supply large small walked
  have hissued : supply.issued requests =
      [⟨4294967292⟩, ⟨4294967293⟩, ⟨4294967294⟩, ⟨4294967295⟩] := by
    decide
  have hids : ([large, small].flatMap fun t => t.preorder.map Node.id).Subperm
      (supply.issued requests) := by
    rw [hissued]
    exact ⟨[⟨4294967292⟩, ⟨4294967294⟩, ⟨4294967295⟩], by decide, by decide⟩
  obtain ⟨-, hwalked, -, hancestry⟩ := supplied_unrepeated hids .all
  have hlarge := hancestry large List.mem_cons_self
  exact ⟨hids, hwalked [small, large] (List.Perm.swap large small []), hlarge.2⟩

end Check
end TreeCheck
