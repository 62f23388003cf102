import TreeCheck.Proofs.Tree.Placement
import TreeCheck.Tree.Walk

/-!
# The signals of a walk

A walk comes to the nodes of a tree in pre-order and is done with them in post-order
(`nodesAt`).  A follower that does its work when a walk comes to a node goes through the
placements of the tree, one after another (`Node.foldl_signals`).  What it has to know of
the walk for this is the list of the nodes above the next placement.
-/

namespace TreeCheck

/-- The nodes of the signals of one phase. -/
def nodesAt (phase : Phase) (gs : List Signal) : List Node :=
  (gs.filter fun g => decide (g.phase = phase)).map Signal.node

theorem nodesAt_append (phase : Phase) (gs hs : List Signal) :
    nodesAt phase (gs ++ hs) = nodesAt phase gs ++ nodesAt phase hs := by
  rw [nodesAt, List.filter_append, List.map_append]
  rfl

@[simp] theorem nodesAt_nil (phase : Phase) : nodesAt phase [] = [] := rfl

@[simp] theorem nodesAt_cons (phase : Phase) (g : Signal) (gs : List Signal) :
    nodesAt phase (g :: gs) =
      if g.phase = phase then g.node :: nodesAt phase gs else nodesAt phase gs := by
  by_cases h : g.phase = phase <;> simp [nodesAt, h]

theorem nodesAt_flatMap {α : Type} (phase : Phase) (f : α → List Signal) (xs : List α) :
    nodesAt phase (xs.flatMap f) = xs.flatMap fun x => nodesAt phase (f x) := by
  simp [nodesAt, List.filter_flatMap, List.map_flatMap]

/-! ## Entrances -/

def Signal.isEntrance (g : Signal) : Bool :=
  decide (g.phase = .arrive) || decide (g.phase = .enter)

def Node.entrance (n : Node) : List Signal := [⟨.arrive, n⟩, ⟨.enter, n⟩]

theorem Node.filter_signals (t : Node) :
    t.signals.filter Signal.isEntrance = t.preorder.flatMap Node.entrance := by
  induction t using Node.induction with
  | step t ih =>
    have below : (t.children.flatMap Node.signals).filter Signal.isEntrance =
        (t.children.flatMap Node.preorder).flatMap Node.entrance := by
      rw [List.filter_flatMap, List.flatMap_assoc]
      exact List.flatMap_congr ih
    have closing : [(⟨.leave, t⟩ : Signal), ⟨.depart, t⟩].filter Signal.isEntrance = [] := rfl
    rw [t.signals_eq, t.preorder_eq, List.flatMap_cons, List.filter_cons_of_pos rfl,
      List.filter_cons_of_pos rfl, List.filter_append, below, closing, List.append_nil]
    rfl

theorem nodesAt_filter_isEntrance {phase : Phase} (h : phase = .arrive ∨ phase = .enter)
    (gs : List Signal) : nodesAt phase (gs.filter Signal.isEntrance) = nodesAt phase gs := by
  rw [nodesAt, nodesAt, List.filter_filter]
  congr 1
  refine List.filter_congr fun g _ => ?_
  by_cases hg : g.phase = phase
  · rcases h with rfl | rfl <;> simp [Signal.isEntrance, hg]
  · simp [hg]

theorem nodesAt_flatMap_entrance {phase : Phase} (h : phase = .arrive ∨ phase = .enter)
    (ns : List Node) : nodesAt phase (ns.flatMap Node.entrance) = ns := by
  induction ns with
  | nil => rfl
  | cons n ns ih =>
    rw [List.flatMap_cons, nodesAt_append, ih]
    rcases h with rfl | rfl <;> rfl

theorem Signal.phase_of_isEntrance {g : Signal} (h : g.isEntrance = true) :
    g.phase = .arrive ∨ g.phase = .enter := by
  simpa [Signal.isEntrance] using h

theorem Node.nodesAt_signals {phase : Phase} (h : phase = .arrive ∨ phase = .enter) (t : Node) :
    nodesAt phase t.signals = t.preorder := by
  rw [← nodesAt_filter_isEntrance h, t.filter_signals, nodesAt_flatMap_entrance h]

theorem Node.nodesAt_flatMap_signals {phase : Phase} (h : phase = .arrive ∨ phase = .enter)
    (ts : List Node) : nodesAt phase (ts.flatMap Node.signals) = ts.flatMap Node.preorder := by
  rw [nodesAt_flatMap]
  exact List.flatMap_congr fun t _ => t.nodesAt_signals h

theorem Node.mem_preorder_of_signal {t : Node} {g : Signal} (hg : g ∈ t.signals)
    (h : g.isEntrance = true) : g.node ∈ t.preorder := by
  have hmem : g ∈ t.signals.filter Signal.isEntrance := List.mem_filter.mpr ⟨hg, h⟩
  rw [t.filter_signals, List.mem_flatMap] at hmem
  obtain ⟨n, hn, hentrance⟩ := hmem
  have hnode : g.node = n := by
    simp only [Node.entrance, List.mem_cons, List.not_mem_nil, or_false] at hentrance
    rcases hentrance with rfl | rfl <;> rfl
  rw [hnode]
  exact hn

/-! ## Followers -/

/-- If a follower makes one `step` when the walk comes to a node, and otherwise only keeps
track of the nodes that the walk is below, then a walk makes it step through the placements. -/
theorem Node.foldl_signals {σ κ : Type} (receive : σ → Signal → σ) (state : List Node → κ → σ)
    (step : κ → Placement → κ)
    (come : ∀ n above k,
      receive (receive (state above k) ⟨.arrive, n⟩) ⟨.enter, n⟩ =
        state (n :: above) (step k ⟨n, above⟩))
    (go : ∀ n above k,
      receive (receive (state (n :: above) k) ⟨.leave, n⟩) ⟨.depart, n⟩ = state above k)
    (t : Node) (above : List Node) (k : κ) :
    t.signals.foldl receive (state above k) =
      state above ((t.placementsBelow above).foldl step k) := by
  induction t using Node.induction generalizing above k with
  | step t ih =>
    have below : ∀ cs : List Node, (∀ c ∈ cs, c ∈ t.children) → ∀ k,
        (cs.flatMap Node.signals).foldl receive (state (t :: above) k) =
          state (t :: above) ((cs.flatMap fun c => c.placementsBelow (t :: above)).foldl step k) := by
      intro cs
      induction cs with
      | nil => exact fun _ _ => rfl
      | cons c cs ihcs =>
        intro hcs k
        rw [List.flatMap_cons, List.flatMap_cons, List.foldl_append, List.foldl_append,
          ih c (hcs c List.mem_cons_self), ihcs fun d hd => hcs d (List.mem_cons_of_mem c hd)]
    rw [t.signals_eq, t.placementsBelow_eq, List.foldl_cons, List.foldl_cons, come,
      List.foldl_append, below t.children (fun c hc => hc), List.foldl_cons, List.foldl_cons, go,
      List.foldl_nil, List.foldl_cons]

end TreeCheck
