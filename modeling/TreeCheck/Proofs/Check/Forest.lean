import TreeCheck.Proofs.Check.Reference

/-!
# Several trees in one session

A session may walk some trees before it runs on a last one.  What it then reports is
what a check of a single block with all these trees reports (`errors_run`): the block
comes before them in the walk, but neither its identifier nor anything else of it is
looked for later.

From one tree to the next the session carries identifiers, imports and signatures, and
no name that waits for a function (`Node.pendingName_preorder`).  So trees that are
`Apart` are checked as if each had a session of its own.
-/

namespace TreeCheck

open Check

/-- The trees share no identifier, no name of an import and no signature of a declared
function. -/
structure Node.Apart (t u : Node) : Prop where
  ids : (t.preorder.map Node.id).Disjoint (u.preorder.map Node.id)
  imports : (t.preorder.filterMap Node.importedName?).Disjoint
    (u.preorder.filterMap Node.importedName?)
  signatures : (t.preorder.filterMap Node.signature?).Disjoint
    (u.preorder.filterMap Node.signature?)

/-- Nothing that a rule compares is common to the node and the nodes `met`. -/
structure Node.IsNewTo (n : Node) (met : List Node) : Prop where
  id : n.id ∉ met.map Node.id
  imported : ∀ k, n.importedName? = some k → k ∉ met.filterMap Node.importedName?
  signature : ∀ k, n.signature? = some k → k ∉ met.filterMap Node.signature?

theorem Node.IsNewTo.flatMap {n : Node} {ts : List Node} (h : ∀ t ∈ ts, n.IsNewTo t.preorder) :
    n.IsNewTo (ts.flatMap Node.preorder) := by
  constructor
  · intro hmem
    rw [List.map_flatMap, List.mem_flatMap] at hmem
    obtain ⟨t, ht, hid⟩ := hmem
    exact (h t ht).id hid
  · intro k hk hmem
    rw [List.filterMap_flatMap, List.mem_flatMap] at hmem
    obtain ⟨t, ht, hname⟩ := hmem
    exact (h t ht).imported k hk hname
  · intro k hk hmem
    rw [List.filterMap_flatMap, List.mem_flatMap] at hmem
    obtain ⟨t, ht, hsignature⟩ := hmem
    exact (h t ht).signature k hk hsignature

theorem Node.Apart.isNewTo {t u n : Node} (h : t.Apart u) (hn : n ∈ u.preorder) :
    n.IsNewTo t.preorder := by
  constructor
  · intro hmem
    exact h.ids hmem (List.mem_map_of_mem hn)
  · intro k hk hmem
    exact h.imports hmem (List.mem_filterMap.mpr ⟨n, hn, hk⟩)
  · intro k hk hmem
    exact h.signatures hmem (List.mem_filterMap.mpr ⟨n, hn, hk⟩)

theorem Node.isNewTo_block {n : Node} {b : Block} (h : n.id ≠ b.id) :
    n.IsNewTo [.block b] := by
  constructor
  · intro hmem
    exact h (List.mem_singleton.mp hmem)
  · intro k _ hmem
    cases hmem
  · intro k _ hmem
    cases hmem

namespace Check

/-! ## What a finding does not depend on -/

theorem firstWith?_append_of_notMem {κ : Type} [DecidableEq κ] {key : Node → Option κ}
    {met : List Node} {k : κ} (h : k ∉ met.filterMap key) (ns : List Node) :
    firstWith? key (met ++ ns) k = firstWith? key ns k := by
  rw [firstWith?_append, firstWith?_eq_none_iff.mpr h, Option.none_or]

theorem breaks_append_of_isNewTo {met : List Node} {n : Node} (h : n.IsNewTo met)
    (ns : List Node) (name : String) (r : Rule) :
    breaks (met ++ ns) name n r = breaks ns name n r := by
  cases r with
  | duplicateNodeId =>
    have hid : n.id ∈ (met ++ ns).map Node.id ↔ n.id ∈ ns.map Node.id := by
      rw [List.map_append, List.mem_append]
      exact or_iff_right h.id
    simp only [breaks, hid]
  | duplicateImport =>
    cases n with
    | importDeclaration i =>
      rw [breaks, breaks, firstWith?_append_of_notMem (h.imported i.name rfl)]
    | _ => rfl
  | duplicateFunction =>
    cases n with
    | functionDeclaration d =>
      rw [breaks, breaks, firstWith?_append_of_notMem (h.signature (d.name, d.arity) rfl)]
    | _ => rfl
  | variadicWithoutParameters => cases n <;> rfl
  | duplicateParameter => cases n <;> rfl

end Check

theorem Signal.findings_append_of_isNewTo (o : Options) {before : List Signal} {g : Signal}
    (hname : pendingName (nodesAt g.phase before) = none)
    (hnew : g.node.IsNewTo (nodesAt g.phase before)) (front : List Signal) :
    g.findings o (before ++ front) = g.findings o front := by
  rw [Signal.findings, Signal.findings, nodesAt_append, pendingName_append_of_none hname]
  simp only [breaksOf, breaks_append_of_isNewTo hnew]

/-- Signals that have nothing to do with those before them give the findings that they
give to a fresh session. -/
theorem gatherFrom_findings_of_isNewTo (o : Options) {before gs : List Signal}
    (h : ∀ g ∈ gs, g.isEntrance = true →
      pendingName (nodesAt g.phase before) = none ∧ g.node.IsNewTo (nodesAt g.phase before)) :
    gatherFrom (Signal.findings o) before gs = gather (Signal.findings o) gs := by
  apply gatherFrom_eq_gather
  intro front g back hgs
  have hmem : g ∈ gs := by
    rw [hgs]
    exact List.mem_append_right front List.mem_cons_self
  by_cases hg : g.isEntrance = true
  · obtain ⟨hname, hnew⟩ := h g hmem hg
    exact Signal.findings_append_of_isNewTo o hname hnew front
  · have hg' : g.isEntrance = false := Bool.eq_false_iff.mpr hg
    rw [Signal.findings_of_not_isEntrance o _ hg', Signal.findings_of_not_isEntrance o _ hg']

/-! ## One tree after another -/

theorem Node.pendingName_flatMap_preorder (ts : List Node) :
    pendingName (ts.flatMap Node.preorder) = none := by
  induction ts with
  | nil => rfl
  | cons t ts ih =>
    rw [List.flatMap_cons, pendingName_append_of_none t.pendingName_preorder, ih]

theorem Node.gatherFrom_findings_signals (o : Options) {ts : List Node} {u : Node}
    (h : ∀ t ∈ ts, t.Apart u) :
    gatherFrom (Signal.findings o) (ts.flatMap Node.signals) u.signals = findings o u := by
  rw [← gather_findings_signals]
  apply gatherFrom_findings_of_isNewTo
  intro g hg hentrance
  rw [Node.nodesAt_flatMap_signals (Signal.phase_of_isEntrance hentrance)]
  refine ⟨Node.pendingName_flatMap_preorder ts, Node.IsNewTo.flatMap ?_⟩
  intro t ht
  exact (h t ht).isNewTo (Node.mem_preorder_of_signal hg hentrance)

theorem gather_findings_of_pairwise (o : Options) {ts : List Node} (h : ts.Pairwise Node.Apart) :
    gather (Signal.findings o) (ts.flatMap Node.signals) = ts.flatMap (findings o) := by
  calc gather (Signal.findings o) (ts.flatMap Node.signals)
      = gather (fun front u => gatherFrom (Signal.findings o) (front.flatMap Node.signals)
          u.signals) ts :=
        gatherFrom_flatMap (Signal.findings o) Node.signals [] ts
    _ = gather (fun _ u => findings o u) ts := by
        apply gather_congr
        intro front u back hts
        rw [hts, List.pairwise_append] at h
        exact Node.gatherFrom_findings_signals o fun t ht => h.2.2 t ht u List.mem_cons_self
    _ = ts.flatMap (findings o) := gather_eq_flatMap (findings o) ts

theorem findings_block (o : Options) {x : NodeId} {ts : List Node}
    (h : ∀ t ∈ ts, x ∉ t.preorder.map Node.id) :
    findings o (.block ⟨x, ts⟩) = gather (Signal.findings o) (ts.flatMap Node.signals) := by
  let b : Node := .block ⟨x, ts⟩
  let opening : List Signal := [⟨.arrive, b⟩, ⟨.enter, b⟩]
  let closing : List Signal := [⟨.leave, b⟩, ⟨.depart, b⟩]
  have hsignals : b.signals = opening ++ (ts.flatMap Node.signals ++ closing) := b.signals_eq
  have hopening : gather (Signal.findings o) opening = [] := by
    simp [opening, b, gather, gatherFrom, Signal.findings, breaksOf, Phase.rules, breaks, nodesAt]
  have hclosing : ∀ before, gatherFrom (Signal.findings o) before closing = [] := by
    intro before
    rfl
  have hmiddle : gatherFrom (Signal.findings o) opening (ts.flatMap Node.signals) =
      gather (Signal.findings o) (ts.flatMap Node.signals) := by
    apply gatherFrom_findings_of_isNewTo
    intro g hg hentrance
    have hmet : nodesAt g.phase opening = [b] := by
      rcases Signal.phase_of_isEntrance hentrance with hphase | hphase <;> rw [hphase] <;> rfl
    rw [hmet]
    refine ⟨rfl, Node.isNewTo_block ?_⟩
    obtain ⟨t, ht, hgt⟩ := List.mem_flatMap.mp hg
    intro hid
    have hmem := List.mem_map_of_mem (f := Node.id) (Node.mem_preorder_of_signal hgt hentrance)
    rw [hid] at hmem
    exact h t ht hmem
  rw [← gather_findings_signals]
  show gather (Signal.findings o) b.signals = _
  rw [hsignals, gather_append, gatherFrom_append, hopening, hmiddle, hclosing, List.nil_append,
    List.append_nil]

namespace Check

theorem Session.errors_run_eq_cut (o : Options) (ts : List Node) (r : Node) :
    (((ts.map Call.walk).foldl (Session.follow o) .fresh).run o r).errors.toList =
      o.cut (gather (Signal.findings o) ((ts ++ [r]).flatMap Node.signals)) := by
  have h := (Reflects.walkAll o (ts ++ [r])).errors
  rw [List.map_append, List.foldl_append] at h
  exact h

/-- Walking trees one after another in one session is checking a block of them.  Trees
that are apart, if no cap is set, are checked one by one. -/
theorem errors_run (o : Options) (ts : List Node) (r : Node) :
    let session := ((ts.map Call.walk).foldl (Session.follow o) .fresh).run o r
    (∀ x, (∀ t ∈ ts ++ [r], x ∉ t.preorder.map Node.id) →
      session.errors.toList = errors o (.block ⟨x, ts ++ [r]⟩)) ∧
    (o.maxErrors = none → (ts ++ [r]).Pairwise Node.Apart →
      session.errors.toList = (ts ++ [r]).flatMap (errors o)) := by
  intro session
  have hrun : session.errors.toList =
      o.cut (gather (Signal.findings o) ((ts ++ [r]).flatMap Node.signals)) :=
    Session.errors_run_eq_cut o ts r
  constructor
  · intro x hx
    rw [hrun, errors_eq_cut, findings_block o hx]
  · intro hcap hapart
    have hlimit : o.errorLimit = none := by
      rw [Options.errorLimit, hcap, Option.map_none]
    have hone : ∀ t, errors o t = findings o t := by
      intro t
      rw [errors_eq_cut, Options.cut_of_none hlimit]
    rw [hrun, Options.cut_of_none hlimit, gather_findings_of_pairwise o hapart]
    exact List.flatMap_congr fun t _ => (hone t).symm

/-- A declaration and then a closure.  The name of the declaration does not reach the
closure, in the session or in the block. -/
theorem errors_run_declaration_closure :
    let declaration : Node := .functionDeclaration ⟨⟨1⟩, "f", false, ⟨⟨2⟩, ["a", "a"], false, none⟩⟩
    let closure : Node := .function ⟨⟨3⟩, [], true, none⟩
    let session := ([declaration].map Call.walk).foldl (Session.follow .all) .fresh
    let expected : List SemanticError :=
      [.duplicateParameter "f" "a" ⟨2⟩, .variadicWithoutParameters "<closure>" ⟨3⟩]
    (∀ t ∈ [declaration, closure], (⟨9⟩ : NodeId) ∉ t.preorder.map Node.id) ∧
      Options.all.maxErrors = none ∧ [declaration, closure].Pairwise Node.Apart ∧
      (session.run .all closure).errors.toList = errors .all (.block ⟨⟨9⟩, [declaration, closure]⟩) ∧
      (session.run .all closure).errors.toList = errors .all declaration ++ errors .all closure ∧
      errors .all declaration ++ errors .all closure = expected := by
  intro declaration closure session expected
  have hid : ∀ t ∈ [declaration, closure], (⟨9⟩ : NodeId) ∉ t.preorder.map Node.id := by decide
  have hapart : [declaration, closure].Pairwise Node.Apart := by
    rw [List.pairwise_pair]
    constructor <;> rw [List.disjoint_left] <;> decide
  have hexpected : errors .all declaration ++ errors .all closure = expected := by
    rw [errors_all, errors_all]
    decide
  have h := errors_run .all [declaration] closure
  have hconcat := h.2 rfl hapart
  rw [List.singleton_append, List.flatMap_cons, List.flatMap_singleton] at hconcat
  exact ⟨hid, rfl, hapart, h.1 ⟨9⟩ hid, hconcat, hexpected⟩

end Check
end TreeCheck
