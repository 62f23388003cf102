import TreeCheck.Proofs.Tree.Visit
import TreeCheck.Tree.Trace

/-!
# What a recording visit reaches

A recording visit does not go below nodes of certain kinds.  The placements that it comes to
are listed by `Node.routeBelow`, in the order of its plan, and a visit notes just these
(`run_visit`).  With the first child first the route is the pre-order of what is reached, and
with the last child first it is the post-order read backwards.
-/

namespace TreeCheck

/-- No node above is of a kind that is not entered. -/
def Placement.isReached (stops : List NodeKind) (p : Placement) : Bool :=
  p.above.all fun n => decide (n.kind ∉ stops)

theorem Placement.isReached_iff {stops : List NodeKind} {p : Placement} :
    p.isReached stops = true ↔ ∀ n ∈ p.above, n.kind ∉ stops := by
  simp [isReached]

/-- The run of the handler for the kind of the node. -/
def Placement.firing (p : Placement) : Firing :=
  ⟨p.node.kind, p.node.kind, p.node.id, p.above.length⟩

def Firing.deeper (f : Firing) : Firing := { f with depth := f.depth + 1 }

/-! ## Routes -/

/-- The placements that a visit of a tree below `above` comes to, in the order of the plan. -/
def Node.routeBelow (plan : VisitPlan) : Node → List Node → List Placement :=
  Node.fold fun n below above =>
    ⟨n, above⟩ ::
      if n.kind ∈ plan.stops then [] else (plan.arrange below).flatMap fun place => place (n :: above)

theorem VisitPlan.arrange_map {α β : Type} (plan : VisitPlan) (f : α → β) (xs : List α) :
    plan.arrange (xs.map f) = (plan.arrange xs).map f := by
  unfold VisitPlan.arrange
  split
  · exact List.map_reverse.symm
  · rfl

theorem VisitPlan.arrange_perm {α : Type} (plan : VisitPlan) (xs : List α) :
    (plan.arrange xs).Perm xs := by
  unfold VisitPlan.arrange
  split
  · exact xs.reverse_perm
  · exact List.Perm.refl xs

theorem Node.routeBelow_eq (plan : VisitPlan) (t : Node) (above : List Node) :
    t.routeBelow plan above =
      ⟨t, above⟩ ::
        if t.kind ∈ plan.stops then []
        else (plan.arrange t.children).flatMap fun c => c.routeBelow plan (t :: above) := by
  unfold Node.routeBelow
  rw [Node.fold_eq, VisitPlan.arrange_map, List.flatMap_map]

/-! ## Visits follow their route -/

namespace Recording

def add (r : Recording) (p : Placement) : Recording :=
  { r with firings := r.firings.push p.firing }

theorem depth_foldl_add (r : Recording) (ps : List Placement) :
    (ps.foldl add r).depth = r.depth := by
  induction ps generalizing r with
  | nil => rfl
  | cons p ps ih => exact ih (r.add p)

theorem toList_foldl_add (r : Recording) (ps : List Placement) :
    (ps.foldl add r).firings.toList = r.firings.toList ++ ps.map Placement.firing := by
  induction ps generalizing r with
  | nil => simp
  | cons p ps ih => simp [ih, add]

/-- The depth goes down with the visit and comes back. -/
theorem ascend_foldl_add (r : Recording) (ps : List Placement) :
    (ps.foldl add r.descend).ascend = ps.foldl add r := by
  induction ps generalizing r with
  | nil => rfl
  | cons p ps ih => exact ih (r.add p)

end Recording

theorem total_map_length {α β : Type} (f : α → List β) (xs : List α) :
    total (xs.map fun x => (f x).length) = (xs.flatMap f).length := by
  induction xs with
  | nil => rfl
  | cons x xs ih => rw [List.map_cons, total_cons, ih, List.flatMap_cons, List.length_append]

section Run

variable {plan : VisitPlan}

theorem VisitPlan.run_record_of_stop {k : NodeKind} {n : Node}
    {visits : List (StateM Recording Nat)} (h : n.kind ∈ plan.stops) (r : Recording) :
    (plan.record k n visits).run r = (1, r.note k n) := by
  unfold VisitPlan.record
  simp only [if_pos h]
  rfl

theorem VisitPlan.run_record {k : NodeKind} {n : Node} {visits : List (StateM Recording Nat)}
    (h : n.kind ∉ plan.stops) (r : Recording) :
    (plan.record k n visits).run r =
      let below := (runAll (plan.arrange visits)).run (r.note k n).descend
      (1 + total below.1, below.2.ascend) := by
  unfold VisitPlan.record
  simp only [if_neg h]
  rfl

/-- The visits of nodes that stand equally deep follow their routes one after another. -/
theorem run_visits {cs : List Node} (above : List Node)
    (h : ∀ c ∈ cs, ∀ r : Recording, r.depth = above.length → (c.visit plan.handlers).run r =
      ((c.routeBelow plan above).length, (c.routeBelow plan above).foldl Recording.add r))
    (r : Recording) (hr : r.depth = above.length) :
    (runAll (cs.map (Node.visit plan.handlers))).run r =
      (cs.map fun c => (c.routeBelow plan above).length,
        (cs.flatMap fun c => c.routeBelow plan above).foldl Recording.add r) :=
  run_runAll Recording.add (fun r => r.depth = above.length) (fun _ _ hr => hr) h r hr

theorem run_visit (t : Node) (above : List Node) (r : Recording) (h : r.depth = above.length) :
    (t.visit plan.handlers).run r =
      ((t.routeBelow plan above).length, (t.routeBelow plan above).foldl Recording.add r) := by
  induction t using Node.induction generalizing above r with
  | step t ih =>
    -- the depth that is noted is the number of nodes above, which is what `h` keeps
    have note : r.note t.kind t = r.add ⟨t, above⟩ := by
      simp [Recording.note, Recording.add, Placement.firing, h]
    rw [Node.visit_eq, VisitPlan.handle_handlers, t.routeBelow_eq]
    by_cases stop : t.kind ∈ plan.stops
    · rw [VisitPlan.run_record_of_stop stop, if_pos stop, note]
      rfl
    · have below := run_visits (t :: above)
        (fun c hc r hr => ih c ((plan.arrange_perm t.children).mem_iff.mp hc) (t :: above) r hr)
        (r.add ⟨t, above⟩).descend (congrArg Nat.succ h)
      rw [VisitPlan.run_record stop, if_neg stop, note, Node.visits, VisitPlan.arrange_map]
      simp only [below, Recording.ascend_foldl_add, total_map_length, List.length_cons,
        List.foldl_cons, Nat.add_comm]

end Run

/-! ## Routes are what is reached -/

section Reached

variable {stops : List NodeKind} {t : Node} {above : List Node}

/-- Nothing below a node that is not entered is reached. -/
theorem Node.filter_isReached_of_stop (h : t.kind ∈ stops) {ps : List Placement}
    (hps : ∀ p ∈ ps, ∃ c ∈ t.children, p ∈ c.placementsBelow (t :: above)) :
    ps.filter (Placement.isReached stops) = [] := by
  rw [List.filter_eq_nil_iff]
  intro p hp hreached
  obtain ⟨c, -, hc⟩ := hps p hp
  have htop : t ∈ p.above := (Node.suffix_above hc).subset List.mem_cons_self
  exact Placement.isReached_iff.mp hreached t htop h

theorem Node.routeBelow_forward (h : ∀ n ∈ above, n.kind ∉ stops) :
    t.routeBelow ⟨stops, false⟩ above =
      (t.placementsBelow above).filter (Placement.isReached stops) := by
  induction t using Node.induction generalizing above with
  | step t ih =>
    have root : (⟨t, above⟩ : Placement).isReached stops = true := Placement.isReached_iff.mpr h
    rw [t.routeBelow_eq, t.placementsBelow_eq, List.filter_cons_of_pos root]
    by_cases stop : t.kind ∈ stops
    · rw [if_pos stop, Node.filter_isReached_of_stop stop fun p hp => List.mem_flatMap.mp hp]
    · rw [if_neg stop, List.filter_flatMap]
      congr 1
      exact List.flatMap_congr fun c hc => ih c hc (List.forall_mem_cons.mpr ⟨stop, h⟩)

theorem Node.reverse_routeBelow_backward (h : ∀ n ∈ above, n.kind ∉ stops) :
    (t.routeBelow ⟨stops, true⟩ above).reverse =
      (t.postplacementsBelow above).filter (Placement.isReached stops) := by
  induction t using Node.induction generalizing above with
  | step t ih =>
    have root : [(⟨t, above⟩ : Placement)].filter (Placement.isReached stops) =
        [⟨t, above⟩] := List.filter_cons_of_pos (Placement.isReached_iff.mpr h)
    rw [t.routeBelow_eq, t.postplacementsBelow_eq, List.reverse_cons, List.filter_append, root]
    congr 1
    by_cases stop : t.kind ∈ stops
    · rw [if_pos stop, List.reverse_nil, Node.filter_isReached_of_stop stop]
      intro p hp
      obtain ⟨c, hc, hp⟩ := List.mem_flatMap.mp hp
      exact ⟨c, hc, (c.postplacementsBelow_perm (t :: above)).mem_iff.mp hp⟩
    · -- reversing the route turns the last child's part back to the end
      have arrange : VisitPlan.arrange ⟨stops, true⟩ t.children = t.children.reverse := rfl
      rw [if_neg stop, arrange, List.reverse_flatMap, List.reverse_reverse, List.filter_flatMap]
      exact List.flatMap_congr fun c hc => ih c hc (List.forall_mem_cons.mpr ⟨stop, h⟩)

end Reached

theorem Node.firings_routeBelow_deeper (t : Node) (plan : VisitPlan) (above above' : List Node)
    (h : above'.length = above.length + 1) :
    (t.routeBelow plan above').map Placement.firing =
      ((t.routeBelow plan above).map Placement.firing).map Firing.deeper := by
  induction t using Node.induction generalizing above above' with
  | step t ih =>
    have root : (⟨t, above'⟩ : Placement).firing = (⟨t, above⟩ : Placement).firing.deeper := by
      simp [Placement.firing, Firing.deeper, h]
    rw [t.routeBelow_eq, t.routeBelow_eq, List.map_cons, List.map_cons, List.map_cons, root]
    congr 1
    by_cases stop : t.kind ∈ plan.stops
    · simp [stop]
    · rw [if_neg stop, if_neg stop, List.map_flatMap, List.map_flatMap, List.map_flatMap]
      refine List.flatMap_congr fun c hc => ?_
      exact ih c ((plan.arrange_perm t.children).mem_iff.mp hc) (t :: above) (t :: above')
        (congrArg Nat.succ h)

/-! ## Recorded visits -/

section Recorded

variable (plan : VisitPlan) (t : Node)

theorem Node.trace_eq :
    t.trace plan =
      ((t.routeBelow plan []).length, (t.routeBelow plan []).foldl Recording.add .empty) :=
  run_visit t [] .empty rfl

theorem Node.traceChildren_eq :
    t.traceChildren plan =
      (t.children.map fun c => (c.routeBelow plan []).length,
        (t.children.flatMap fun c => c.routeBelow plan []).foldl Recording.add .empty) :=
  run_visits [] (fun c _ r hr => run_visit c [] r hr) .empty rfl

theorem Node.result_trace : (t.trace plan).1 = (t.routeBelow plan []).length := by
  rw [t.trace_eq]

theorem Node.firings_trace :
    (t.trace plan).2.firings.toList = (t.routeBelow plan []).map Placement.firing := by
  rw [t.trace_eq, Recording.toList_foldl_add]
  exact List.nil_append _

theorem Node.firings_traceChildren :
    (t.traceChildren plan).2.firings.toList =
      (t.children.flatMap fun c => c.routeBelow plan []).map Placement.firing := by
  rw [t.traceChildren_eq, Recording.toList_foldl_add]
  exact List.nil_append _

/-- A visit of the children is the visits of each child, one after another. -/
theorem Node.traceChildren_children :
    (t.traceChildren plan).1 = t.children.map (fun c => (c.trace plan).1) ∧
      (t.traceChildren plan).2.firings.toList =
        t.children.flatMap fun c => (c.trace plan).2.firings.toList := by
  constructor
  · rw [t.traceChildren_eq]
    exact List.map_congr_left fun c _ => (c.result_trace plan).symm
  · rw [t.firings_traceChildren, List.map_flatMap]
    exact List.flatMap_congr fun c _ => (c.firings_trace plan).symm

theorem Node.result_trace_eq_size : (t.trace plan).1 = (t.trace plan).2.firings.size := by
  rw [t.result_trace, ← Array.length_toList, t.firings_trace, List.length_map]

theorem Node.depth_trace : (t.trace plan).2.depth = 0 := by
  rw [t.trace_eq]
  exact Recording.depth_foldl_add _ _

theorem Node.depth_traceChildren : (t.traceChildren plan).2.depth = 0 := by
  rw [t.traceChildren_eq]
  exact Recording.depth_foldl_add _ _

theorem Node.result_trace_of_entered (h : t.kind ∉ plan.stops) :
    (t.trace plan).1 = 1 + total (t.traceChildren plan).1 := by
  have deeper : ∀ c ∈ t.children,
      (c.routeBelow plan []).length = (c.routeBelow plan [t]).length := by
    intro c _
    simpa using (congrArg List.length (c.firings_routeBelow_deeper plan [] [t] rfl)).symm
  have arranged := (plan.arrange_perm t.children).flatMap_right fun c => c.routeBelow plan [t]
  rw [t.result_trace, t.routeBelow_eq, if_neg h, List.length_cons, arranged.length_eq,
    t.traceChildren_eq, List.map_congr_left deeper, total_map_length, Nat.add_comm]

/-- Below an entered root are the visits of its children, one deeper. -/
theorem Node.firings_trace_of_entered (h : t.kind ∉ plan.stops) (hback : plan.backwards = false) :
    (t.trace plan).2.firings.toList =
      ⟨t.kind, t.kind, t.id, 0⟩ :: (t.traceChildren plan).2.firings.toList.map Firing.deeper := by
  have arrange : plan.arrange t.children = t.children := by
    rw [VisitPlan.arrange, hback]
    rfl
  rw [t.firings_trace, t.firings_traceChildren, t.routeBelow_eq, if_neg h, arrange, List.map_cons,
    List.map_flatMap, List.map_flatMap, List.map_flatMap]
  congr 1
  exact List.flatMap_congr fun c _ => c.firings_routeBelow_deeper plan [] [t] rfl

end Recorded

/-- A recording visit fires, for every node that has no stopped kind above it, the handler of
the node's kind at the depth of the node, and counts these nodes.  From the first child on it
goes through them in pre-order, from the last child on in post-order backwards.  A visit of
the children alone goes through their visits one after another. -/
theorem trace_reaches (stops : List NodeKind) (t : Node) :
    let fired (ps : List Placement) : List Firing :=
      (ps.filter (Placement.isReached stops)).map Placement.firing
    let forward := t.trace ⟨stops, false⟩
    let backward := t.trace ⟨stops, true⟩
    forward.2.firings.toList = fired t.placements ∧
      backward.2.firings.toList.reverse = fired t.postplacements ∧
      forward.2.firings.toList.Perm backward.2.firings.toList ∧ forward.1 = backward.1 ∧
      ∀ backwards : Bool,
        let plan : VisitPlan := ⟨stops, backwards⟩
        let below := t.traceChildren plan
        (t.trace plan).1 = (t.trace plan).2.firings.size ∧ (t.trace plan).2.depth = 0 ∧
          below.1 = t.children.map (fun c => (c.trace plan).1) ∧
          below.2.firings.toList = t.children.flatMap (fun c => (c.trace plan).2.firings.toList) ∧
          below.2.depth = 0 ∧
          (t.kind ∉ stops → (t.trace plan).1 = 1 + total below.1) ∧
          (t.kind ∉ stops → backwards = false → (t.trace plan).2.firings.toList =
            ⟨t.kind, t.kind, t.id, 0⟩ :: below.2.firings.toList.map Firing.deeper) := by
  intro fired forward backward
  have hforward : forward.2.firings.toList = fired t.placements := by
    rw [t.firings_trace, Node.routeBelow_forward (List.forall_mem_nil _)]
    rfl
  have hbackward : backward.2.firings.toList.reverse = fired t.postplacements := by
    rw [t.firings_trace, ← List.map_reverse,
      Node.reverse_routeBelow_backward (List.forall_mem_nil _)]
    rfl
  -- both are the nodes that are reached, and the two orders list the same nodes
  have hperm : forward.2.firings.toList.Perm backward.2.firings.toList := by
    rw [hforward]
    refine List.Perm.trans ?_ (List.reverse_perm _)
    rw [hbackward]
    exact (((t.postplacementsBelow_perm []).filter _).map _).symm
  refine ⟨hforward, hbackward, hperm, ?_, ?_⟩
  · rw [t.result_trace_eq_size, t.result_trace_eq_size]
    exact hperm.length_eq
  · intro backwards plan below
    obtain ⟨hresults, hfirings⟩ := t.traceChildren_children plan
    exact ⟨t.result_trace_eq_size plan, t.depth_trace plan, hresults, hfirings,
      t.depth_traceChildren plan, fun h => t.result_trace_of_entered plan h,
      fun h hback => t.firings_trace_of_entered plan h hback⟩

/-- The arguments of a call are not reached where calls are not entered. -/
theorem trace_reaches_stopped :
    let call : Node := .functionInvocation ⟨2⟩ "f" [.reference ⟨3⟩ "x"]
    let t : Node := .block ⟨⟨1⟩, [call, .returnStatement ⟨4⟩ (some (.reference ⟨5⟩ "y"))]⟩
    let forward := t.trace ⟨[.functionInvocation], false⟩
    let backward := t.trace ⟨[.functionInvocation], true⟩
    let below := t.traceChildren ⟨[.functionInvocation], false⟩
    forward.2.firings.toList =
        [⟨.block, .block, ⟨1⟩, 0⟩, ⟨.functionInvocation, .functionInvocation, ⟨2⟩, 1⟩,
          ⟨.returnStatement, .returnStatement, ⟨4⟩, 1⟩, ⟨.reference, .reference, ⟨5⟩, 2⟩] ∧
      backward.2.firings.toList.map Firing.node = [⟨1⟩, ⟨4⟩, ⟨5⟩, ⟨2⟩] ∧
      forward.1 = 4 ∧ below.1 = [1, 2] ∧ forward.1 = 1 + total below.1 ∧
      forward.2.firings.toList =
        ⟨.block, .block, ⟨1⟩, 0⟩ :: below.2.firings.toList.map Firing.deeper := by
  intro call t forward backward below
  obtain ⟨hforward, -, -, -, hplan⟩ := trace_reaches [.functionInvocation] t
  obtain ⟨-, -, -, -, -, hresult, hroot⟩ := hplan false
  have entered : t.kind ∉ [NodeKind.functionInvocation] := by decide
  exact ⟨hforward.trans rfl, rfl, rfl, rfl, hresult entered, hroot entered rfl⟩

end TreeCheck
