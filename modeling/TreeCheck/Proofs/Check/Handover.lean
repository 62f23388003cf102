import TreeCheck.Proofs.Check.Forest
import TreeCheck.Proofs.Check.Verdict

/-!
# Names handed to functions

A declaration leaves its name for the function that is entered next.  In a walk that is
always its own function, so no other function of the tree finds the name.  A name that
was left before the walk can only reach the first function of the tree, and only if no
declaration comes before it: from then on the names are those of the tree.

`parameterErrors_follow_walk` says what this means for the errors.  Of the errors that a
walk adds, those about parameters call every function by `Placement.nameAfter`.
-/

namespace TreeCheck

open Check

/-- What is wrong with the parameters of a node, if it is a function.  The errors call it
`name`. -/
def Node.parameterErrors (o : Options) (name : String) : Node → List SemanticError
  | .function f => Session.parameterErrors o name f
  | _ => []

/-- What errors call a function at this place of a tree.  Here `waiting` is the name that
waits when the walk begins, and `before` are the places that the walk has passed. -/
def Placement.nameAfter (waiting : Option String) (before : List Placement) (p : Placement) :
    String :=
  match p.declaration? with
  | some d => d.name
  | none =>
    if before.all fun q => q.node.declaration?.isNone && q.node.function?.isNone then
      waiting.getD closureName
    else closureName

/-- Without a name from before the walk only the declaration counts. -/
theorem Placement.nameAfter_none (before : List Placement) (p : Placement) :
    p.nameAfter none before = p.functionName := by
  unfold nameAfter functionName
  cases p.declaration? with
  | some d => rfl
  | none => exact ite_self closureName

/-! ## The name that waits -/

theorem Node.handover?_eq_none_iff (n : Node) :
    n.handover? = none ↔ n.declaration? = none ∧ n.function? = none := by
  cases n <;> simp [handover?, declaration?, function?]

theorem Placement.getD_pendingName (met : List Node) {t : Node} {before after : List Placement}
    {p : Placement} (h : t.placements = before ++ p :: after) :
    (pendingName (met ++ before.map Placement.node)).getD closureName =
      p.nameAfter (pendingName met) before := by
  have passed : (before.map Placement.node).filterMap Node.handover? = [] ↔
      (before.all fun q => q.node.declaration?.isNone && q.node.function?.isNone) = true := by
    simp [List.filterMap_eq_nil_iff, Node.handover?_eq_none_iff]
  rw [pendingName_append, pendingName_before h, nameAfter]
  cases hd : p.declaration? with
  | none =>
    simp only [← passed]
    split <;> rfl
  | some d =>
    -- the declaration is the node before its function, so the walk has passed one
    obtain ⟨q, hq, hqd⟩ := Option.bind_eq_some_iff.mp
      ((Placement.declaration?_eq_of_before h).symm.trans hd)
    have hmet : (before.map Placement.node).filterMap Node.handover? ≠ [] := by
      rw [Ne, passed, List.all_eq_true]
      intro hall
      have hnone := hall q (List.mem_of_getLast? hq)
      rw [hqd] at hnone
      cases hnone
    rw [if_neg hmet]
    rfl

theorem Node.functions_eq_nil_iff (t : Node) :
    t.functions = [] ↔ t.preorder.filterMap Node.handover? = [] := by
  simp only [Node.functions, List.filterMap_eq_nil_iff, Node.handover?_eq_none_iff]
  constructor
  · intro h n hn
    refine ⟨?_, h n hn⟩
    rw [← t.map_node_placements] at hn
    obtain ⟨p, hp, rfl⟩ := List.mem_map.mp hn
    cases hd : p.node.declaration? with
    | none => rfl
    | some d =>
      -- a declaration has its function below it
      have hchild : Node.function d.function ∈ p.node.children := by
        rw [Node.eq_of_declaration? hd]
        exact List.mem_singleton_self _
      have hmem : Node.function d.function ∈ t.preorder := by
        rw [← t.map_node_placements]
        exact List.mem_map_of_mem (Node.mem_placementsBelow_child hp hchild)
      cases h _ hmem
  · intro h n hn
    exact (h n hn).2

/-- A tree with a function leaves no name, and one without a function leaves the name that
was there. -/
theorem Node.pendingName_append_preorder (met : List Node) (t : Node) :
    pendingName (met ++ t.preorder) = if t.functions = [] then pendingName met else none := by
  rw [pendingName_append, t.pendingName_preorder]
  simp only [t.functions_eq_nil_iff]

/-! ## Errors about parameters -/

theorem Node.breaksOf_parameters (o : Options) (met : List Node) (name : String) (n : Node) :
    breaksOf o (Phase.enter.rules.filter Rule.isAboutParameters) met name n =
      n.parameterErrors o name := by
  have rules : Phase.enter.rules.filter Rule.isAboutParameters =
      [.variadicWithoutParameters, .duplicateParameter] := rfl
  cases n with
  | function f =>
    have onEntry : breaksOf o Phase.enter.rules met name (.function f) =
        Session.parameterErrors o name f := Session.breaksOf_function name f
    rw [Node.parameterErrors, ← onEntry, rules]
    simp [breaksOf, Phase.rules, breaks]
  | _ => simp [rules, breaksOf, breaks, Node.parameterErrors]

theorem Signal.filter_findings_parameters (o : Options) (before : List Signal) (g : Signal) :
    (g.findings o before).filter (fun e => e.rule.isAboutParameters) =
      if g.phase = .enter then
        g.node.parameterErrors o ((pendingName (nodesAt .enter before)).getD closureName)
      else [] := by
  obtain ⟨phase, n⟩ := g
  rw [Signal.findings, filter_breaksOf]
  cases phase with
  | enter => exact n.breaksOf_parameters o _ _
  | arrive | leave | depart => rfl

/-- Signals of one phase are gathered like their nodes. -/
theorem gatherFrom_nodesAt {β : Type} (phase : Phase) (f : List Node → Node → List β)
    (before gs : List Signal) :
    gatherFrom (fun front g => if g.phase = phase then f (nodesAt phase front) g.node else [])
        before gs =
      gatherFrom f (nodesAt phase before) (nodesAt phase gs) := by
  induction gs generalizing before with
  | nil => rfl
  | cons g gs ih =>
    rw [gatherFrom, ih, nodesAt_append, nodesAt_cons, nodesAt_cons]
    by_cases hg : g.phase = phase
    · rw [if_pos hg, if_pos hg, if_pos hg, nodesAt_nil, gatherFrom]
    · rw [if_neg hg, if_neg hg, if_neg hg, nodesAt_nil, List.append_nil, List.nil_append]

/-- What a walk of the tree finds wrong with parameters after the signals `gs`. -/
theorem Node.filter_gatherFrom_signals (o : Options) (gs : List Signal) (t : Node) :
    (gatherFrom (Signal.findings o) gs t.signals).filter (fun e => e.rule.isAboutParameters) =
      gather (fun before p => p.node.parameterErrors o
        (p.nameAfter (pendingName (nodesAt .enter gs)) before)) t.placements := by
  let met := nodesAt .enter gs
  let errorsAfter : List Node → Node → List SemanticError := fun front n =>
    n.parameterErrors o ((pendingName front).getD closureName)
  calc (gatherFrom (Signal.findings o) gs t.signals).filter (fun e => e.rule.isAboutParameters)
      = gatherFrom (fun front g =>
          if g.phase = .enter then errorsAfter (nodesAt .enter front) g.node else [])
          gs t.signals := by
        rw [gatherFrom_eq_gather_append, gatherFrom_eq_gather_append, filter_gather]
        exact gather_congr fun front g _ _ => g.filter_findings_parameters o (gs ++ front)
    _ = gatherFrom errorsAfter met t.preorder := by
        rw [gatherFrom_nodesAt, t.nodesAt_signals (Or.inr rfl)]
    _ = gather (fun before p => errorsAfter (met ++ before.map Placement.node) p.node)
          t.placements := by
        rw [gatherFrom_eq_gather_append, ← t.map_node_placements, gather_map]
    _ = _ := by
        refine gather_congr fun before p after h => ?_
        rw [← Placement.getD_pendingName met h]

namespace Check

/-- Whatever a session was told, the errors about parameters that a walk adds call every
function by the declaration above it; only the first function, if no declaration comes
before it, takes the name that waited before the walk.  No name waits after a tree with a
function.  If a session only walks trees none waits between them either, so that a closure
is never called by the name of a declaration. -/
theorem parameterErrors_follow_walk (o : Options) (calls : List Call) (t : Node) :
    let s := calls.foldl (Session.follow o) .fresh
    let s' := s.follow o (.walk t)
    let named := gather (fun before p =>
      p.node.parameterErrors o (p.nameAfter s.pendingName before)) t.placements
    (∃ new, s'.errors.toList = s.errors.toList ++ new ∧
      new.filter (fun e => e.rule.isAboutParameters) <+: named ∧
      (o.maxErrors = none → new.filter (fun e => e.rule.isAboutParameters) = named)) ∧
    s'.pendingName = (if t.functions = [] then s.pendingName else none) ∧
    ∀ ts : List Node, calls = ts.map Call.walk → s.pendingName = none ∧
      named = t.placements.flatMap fun p => p.node.parameterErrors o p.functionName := by
  intro s s' named
  have h : Reflects o (calls.flatMap Call.signals) s := (Reflects.fresh o).followAll calls
  have hname : s.pendingName = pendingName (nodesAt .enter (calls.flatMap Call.signals)) :=
    h.memory.pendingName
  have hnamed : (gatherFrom (Signal.findings o) (calls.flatMap Call.signals) t.signals).filter
      (fun e => e.rule.isAboutParameters) = named := by
    rw [t.filter_gatherFrom_signals, ← hname]
  refine ⟨?_, ?_, ?_⟩
  · obtain ⟨new, hnew, hprefix, hall⟩ := h.errors_follow (.walk t)
    refine ⟨new, hnew, ?_, ?_⟩
    · rw [← hnamed]
      exact hprefix.filter _
    · intro hcap
      rw [← hnamed, hall (Options.errorLimit_eq_none hcap)]
      rfl
  · rw [(h.follow (.walk t)).memory.pendingName, Call.signals, nodesAt_append,
      t.nodesAt_signals (Or.inr rfl), t.pendingName_append_preorder, hname]
  · rintro ts rfl
    have hnone : s.pendingName = none := by
      rw [hname, List.flatMap_map]
      show pendingName (nodesAt .enter (ts.flatMap Node.signals)) = none
      rw [Node.nodesAt_flatMap_signals (Or.inr rfl), Node.pendingName_flatMap_preorder]
    refine ⟨hnone, ?_⟩
    show gather _ t.placements = _
    simp only [hnone, Placement.nameAfter_none]
    exact gather_eq_flatMap _ _

/-- The name of `f` waits, since its function was not entered.  The first closure takes it,
but neither the closure within nor a later one.  After a walk of `f` no closure has it. -/
theorem parameterErrors_follow_walk_waiting :
    let f : Node := .functionDeclaration ⟨⟨1⟩, "f", false, ⟨⟨2⟩, [], false, none⟩⟩
    let within : Node := .function ⟨⟨5⟩, ["a", "a"], false, none⟩
    let first : Node := .function ⟨⟨4⟩, [], true, some ⟨⟨9⟩, [within]⟩⟩
    let g : Node := .functionDeclaration ⟨⟨6⟩, "g", false, ⟨⟨7⟩, ["b", "b"], false, none⟩⟩
    let last : Node := .function ⟨⟨8⟩, [], true, none⟩
    let t : Node := .block ⟨⟨3⟩, [first, g, last]⟩
    let told := [Call.signal ⟨.enter, f⟩].foldl (Session.follow .all) .fresh
    let walked := ([f].map Call.walk).foldl (Session.follow .all) .fresh
    let later : List SemanticError :=
      [.duplicateParameter "<closure>" "a" ⟨5⟩, .duplicateParameter "g" "b" ⟨7⟩,
       .variadicWithoutParameters "<closure>" ⟨8⟩]
    Options.all.maxErrors = none ∧ told.pendingName = some "f" ∧
      (∃ new, (told.follow .all (.walk t)).errors.toList = told.errors.toList ++ new ∧
        new.filter (fun e => e.rule.isAboutParameters) =
          .variadicWithoutParameters "f" ⟨4⟩ :: later) ∧
      (told.follow .all (.walk t)).pendingName = none ∧ walked.pendingName = none ∧
      ∃ new, (walked.follow .all (.walk t)).errors.toList = walked.errors.toList ++ new ∧
        new.filter (fun e => e.rule.isAboutParameters) =
          .variadicWithoutParameters "<closure>" ⟨4⟩ :: later := by
  intro f within first g last t told walked later
  obtain ⟨⟨new, hnew, -, hall⟩, hafter, -⟩ :=
    parameterErrors_follow_walk .all [.signal ⟨.enter, f⟩] t
  obtain ⟨⟨new', hnew', -, hall'⟩, -, honly⟩ :=
    parameterErrors_follow_walk .all ([f].map Call.walk) t
  obtain ⟨hnone, hnames⟩ := honly [f] rfl
  have htold : told.pendingName = some "f" :=
    ((Reflects.fresh .all).followAll [.signal ⟨.enter, f⟩]).memory.pendingName
  have hfunctions : t.functions ≠ [] := List.ne_nil_of_length_pos (by decide)
  refine ⟨rfl, htold, ⟨new, hnew, ?_⟩, ?_, hnone, new', hnew', ?_⟩
  · rw [hall rfl]
    show gather (fun before p => p.node.parameterErrors .all
      (p.nameAfter told.pendingName before)) t.placements = _
    simp only [htold, ← Node.breaksOf_parameters .all []]
    decide
  · rw [hafter, if_neg hfunctions]
  · rw [hall' rfl, hnames]
    simp only [← Node.breaksOf_parameters .all []]
    decide

end Check
end TreeCheck
