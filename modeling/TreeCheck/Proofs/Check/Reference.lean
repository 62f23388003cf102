import TreeCheck.Proofs.Check.History

/-!
# The errors of a tree

Walking a tree gives a session the history `Node.signals`.  Only the signals on
arrival and on entry matter to it, and these are the nodes of the tree in pre-order,
each twice.  The name that waits for a function is then the name of the declaration
directly above it, since nothing can come between the two.  So the findings of the
history are the findings of the placements, and a check reports these up to the cap.
-/

namespace TreeCheck

open Check

theorem Signal.findings_of_not_isEntrance (o : Options) (before : List Signal) {g : Signal}
    (h : g.isEntrance = false) : g.findings o before = [] := by
  obtain ⟨phase, n⟩ := g
  cases phase with
  | arrive | enter => cases h
  | leave | depart => rfl

theorem Signal.findings_filter_isEntrance (o : Options) (before : List Signal) (g : Signal) :
    g.findings o (before.filter Signal.isEntrance) = g.findings o before := by
  obtain ⟨phase, n⟩ := g
  cases phase with
  | arrive => rw [findings, findings, nodesAt_filter_isEntrance (Or.inl rfl)]
  | enter => rw [findings, findings, nodesAt_filter_isEntrance (Or.inr rfl)]
  | leave | depart => rfl

theorem Placement.handover_getD {t : Node} {p : Placement} (h : p ∈ t.placements) :
    p.node.handover?.getD (p.declaration?.map FunctionDeclaration.name) =
      p.node.declaration?.map FunctionDeclaration.name := by
  cases hn : p.node with
  | functionDeclaration d => rfl
  | function f => rfl
  | _ =>
    -- Of the nodes below a declaration only its function is handed the name.
    cases hd : p.declaration? with
    | none => rfl
    | some d =>
      have hf := Placement.node_of_declaration? h hd
      rw [hn] at hf
      cases hf

/-- At every place of a tree the name that waits is that of the declaration above. -/
theorem pendingName_before {t : Node} {before after : List Placement} {p : Placement}
    (h : t.placements = before ++ p :: after) :
    pendingName (before.map Placement.node) = p.declaration?.map FunctionDeclaration.name := by
  induction before using List.reverseRecOn generalizing p after with
  | nil =>
    rw [Placement.declaration?_eq_of_before h]
    rfl
  | append_singleton before q ih =>
    have hq : t.placements = before ++ q :: (p :: after) := by
      rw [h, List.append_assoc, List.singleton_append]
    have hp : p.declaration? = q.node.declaration? := by
      rw [Placement.declaration?_eq_of_before h, List.getLast?_concat]
      rfl
    have hmem : q ∈ t.placements := by
      rw [hq]
      exact List.mem_append_right _ List.mem_cons_self
    rw [List.map_append, List.map_singleton, pendingName_concat, ih hq,
      Placement.handover_getD hmem, hp]

/-- No name waits at the end of a tree. -/
theorem Node.pendingName_preorder (t : Node) : pendingName t.preorder = none := by
  rcases List.eq_nil_or_concat t.placements with hnil | ⟨before, p, hp⟩
  · exact absurd hnil (t.placementsBelow_ne_nil [])
  · rw [List.concat_eq_append] at hp
    have hmem : p ∈ t.placements := by
      rw [hp]
      exact List.mem_append_right _ (List.mem_singleton_self p)
    have hlast : p.node.declaration? = none := by
      have hmem : p ∈ (t.placementsBelow []).getLast? := by
        rw [← Node.placements, hp, List.getLast?_concat]
        rfl
      exact Node.getLast?_placementsBelow hmem
    rw [← t.map_node_placements, hp, List.map_append, List.map_singleton, pendingName_concat,
      pendingName_before hp, Placement.handover_getD hmem, hlast]
    rfl

theorem Placement.gatherFrom_entrance (o : Options) {t : Node} {before after : List Placement}
    {p : Placement} (h : t.placements = before ++ p :: after) :
    gatherFrom (Signal.findings o) (before.flatMap fun q => q.node.entrance) p.node.entrance =
      p.findings o before := by
  have hbefore : (before.flatMap fun q => q.node.entrance) =
      (before.map Placement.node).flatMap Node.entrance := by
    rw [List.flatMap_map]
  have hname : (pendingName (before.map Placement.node)).getD closureName = p.functionName := by
    rw [pendingName_before h]
    rfl
  have onArrival : Signal.findings o ((before.map Placement.node).flatMap Node.entrance)
      ⟨.arrive, p.node⟩ =
        breaksOf o Phase.arrive.rules (before.map Placement.node) p.functionName p.node := by
    rw [Signal.findings, nodesAt_flatMap_entrance (Or.inl rfl), hname]
  have onEntry : Signal.findings o
      ((before.map Placement.node).flatMap Node.entrance ++ [⟨.arrive, p.node⟩])
      ⟨.enter, p.node⟩ =
        breaksOf o Phase.enter.rules (before.map Placement.node) p.functionName p.node := by
    have hmet : nodesAt .enter
        ((before.map Placement.node).flatMap Node.entrance ++ [⟨.arrive, p.node⟩]) =
          before.map Placement.node := by
      rw [nodesAt_append, nodesAt_flatMap_entrance (Or.inr rfl)]
      exact List.append_nil _
    rw [Signal.findings, hmet, hname]
  rw [hbefore, Node.entrance, gatherFrom, gatherFrom, gatherFrom, onArrival, onEntry,
    List.append_nil, ← breaksOf_append]
  rfl

namespace Check

theorem gather_findings_signals (o : Options) (t : Node) :
    gather (Signal.findings o) t.signals = findings o t := by
  have entrances : t.signals.filter Signal.isEntrance =
      t.placements.flatMap fun p => p.node.entrance := by
    rw [t.filter_signals, ← t.map_node_placements, List.flatMap_map]
  calc gather (Signal.findings o) t.signals
      = gather (Signal.findings o) (t.signals.filter Signal.isEntrance) :=
        gatherFrom_filter (fun before _ => Signal.findings_of_not_isEntrance o before)
          (Signal.findings_filter_isEntrance o) [] t.signals
    _ = gather (fun front p => gatherFrom (Signal.findings o)
          (front.flatMap fun q => q.node.entrance) p.node.entrance) t.placements := by
        rw [entrances]
        exact gatherFrom_flatMap (Signal.findings o) (fun p => p.node.entrance) [] t.placements
    _ = findings o t := gather_congr fun _ _ _ h => Placement.gatherFrom_entrance o h

/-- A check reports what is wrong with the tree, up to the cap. -/
theorem errors_eq_cut (o : Options) (t : Node) : errors o t = o.cut (findings o t) := by
  have h := ((Reflects.fresh o).follow (.walk t)).errors
  rw [List.nil_append, Call.signals, gather_findings_signals] at h
  exact h

theorem errors_all (t : Node) : errors .all t = findings .all t := by
  rw [errors_eq_cut, Options.cut_of_none rfl]

theorem errors_of_uncapped {o : Options} (h : o.maxErrors = none) (t : Node) :
    errors o t = findings o t := by
  have hlimit : o.errorLimit = none := by
    rw [Options.errorLimit, h, Option.map_none]
  rw [errors_eq_cut, Options.cut_of_none hlimit]

/-- A file that breaks every rule.  `f` is declared again in its own body, and the
function of the second declaration has the identifier of the first declaration. -/
def tangled : Node :=
  let inner : Function := ⟨⟨4⟩, ["w", "x", "y", "z"], false, none⟩
  let body : Block :=
    ⟨⟨6⟩, [.function ⟨⟨7⟩, [], true, none⟩, .importDeclaration ⟨⟨8⟩, "io"⟩,
      .functionDeclaration ⟨⟨9⟩, "f", true, inner⟩]⟩
  let outer : Function := ⟨⟨5⟩, ["a", "b", "a", "a"], true, some body⟩
  .compilationUnit ⟨⟨1⟩, none, [⟨⟨2⟩, "io"⟩, ⟨⟨2⟩, "io"⟩], [⟨⟨4⟩, "f", false, outer⟩]⟩

theorem errors_tangled :
    Options.all.maxErrors = none ∧
      errors .all tangled =
        [.duplicateNodeId ⟨2⟩, .duplicateImport "io" ⟨2⟩ ⟨2⟩, .duplicateParameter "f" "a" ⟨5⟩,
         .variadicWithoutParameters "<closure>" ⟨7⟩, .duplicateImport "io" ⟨8⟩ ⟨2⟩,
         .duplicateFunction "f" 4 ⟨9⟩ ⟨4⟩, .duplicateNodeId ⟨4⟩] :=
  ⟨rfl, (errors_of_uncapped rfl tangled).trans (by decide)⟩

/-! ## Switches and the cap -/

theorem filter_findings_all (o : Options) (t : Node) :
    (findings .all t).filter (fun e => o.isOn e.rule) = findings o t := by
  rw [findings, filter_gather]
  refine gather_congr fun before p _ _ => ?_
  exact filter_breaksOf_all o Rule.inOrder (before.map Placement.node) p.functionName p.node

theorem isOn_of_mem_errors {o : Options} {t : Node} {e : SemanticError} (h : e ∈ errors o t) :
    o.isOn e.rule = true := by
  rw [errors_eq_cut] at h
  have hfound := (o.cut_prefix _).subset h
  rw [← filter_findings_all, List.mem_filter] at hfound
  exact hfound.2

/-- The rules do not interfere: switching some off removes their errors from the
list, and the cap only cuts off its end. -/
theorem errors_eq_cut_filter (o : Options) (t : Node) :
    errors o t = o.cut ((errors .all t).filter fun e => o.isOn e.rule) := by
  rw [errors_all, filter_findings_all, errors_eq_cut]

end Check
end TreeCheck
