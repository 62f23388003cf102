import Mathlib.Data.List.Forall2
import TreeCheck.Proofs.Tree.Visit

/-!
# Walks are balanced

`Nested` is the grammar of the signals of a walk that may still be on its way.  A node is
entered as soon as the walk comes to it, below the nodes that it has not left; and the walk
leaves the node that is nearest, and is then done with it.  Every walk is nested
(`Node.nested_signals`), and what is claimed about the order of its signals is read off
the grammar at the place of one signal.

Kinds and identifiers, with the two signals that are the same for all kinds, suffice to
recover the shape of a tree, as brackets do: what comes after the children of a node is no
beginning of a tree (`Node.sameShape_of_calls`).
-/

namespace TreeCheck

/-- The signals `gs` come to the placements `ps` and leave the nodes `ns` open, the nearest
first. -/
inductive Nested : List Signal → List Placement → List Node → Prop
  | start : Nested [] [] []
  | enter {gs : List Signal} {ps : List Placement} {ns : List Node} (h : Nested gs ps ns)
      (n : Node) :
      Nested (gs ++ [⟨.arrive, n⟩, ⟨.enter, n⟩]) (ps ++ [⟨n, ns⟩]) (n :: ns)
  | leave {gs : List Signal} {ps : List Placement} {n : Node} {ns : List Node}
      (h : Nested gs ps (n :: ns)) :
      Nested (gs ++ [⟨.leave, n⟩, ⟨.depart, n⟩]) ps ns

namespace Nested

variable {gs : List Signal} {ps : List Placement} {ns : List Node}

theorem walk (h : Nested gs ps ns) (t : Node) :
    Nested (gs ++ t.signals) (ps ++ t.placementsBelow ns) ns := by
  induction t using Node.induction generalizing gs ps ns with
  | step t ih =>
    have below : ∀ cs : List Node, (∀ c ∈ cs, c ∈ t.children) → ∀ {gs : List Signal}
        {ps : List Placement}, Nested gs ps (t :: ns) →
          Nested (gs ++ cs.flatMap Node.signals)
            (ps ++ cs.flatMap fun c => c.placementsBelow (t :: ns)) (t :: ns) := by
      intro cs
      induction cs with
      | nil => intro _ gs ps h; simpa using h
      | cons c cs ihcs =>
        intro hcs gs ps h
        have first := ih c (hcs c List.mem_cons_self) h
        have rest := ihcs (fun d hd => hcs d (List.mem_cons_of_mem c hd)) first
        simpa [List.append_assoc] using rest
    have inside := (below t.children (fun c hc => hc) (h.enter t)).leave
    rw [t.signals_eq, t.placementsBelow_eq]
    simpa [List.append_assoc] using inside

/-! ## Open nodes -/

theorem arrivals (h : Nested gs ps ns) : nodesAt .arrive gs = ps.map Placement.node := by
  induction h with
  | start => rfl
  | enter h n ih => simp [nodesAt_append, ih]
  | leave h ih => simp [nodesAt_append, ih]

/-- The open nodes are those that the walk has come to and is not done with. -/
theorem perm (h : Nested gs ps ns) :
    (nodesAt .arrive gs).Perm (nodesAt .depart gs ++ ns) := by
  induction h with
  | start => exact .nil
  | enter h n ih =>
    simp only [nodesAt_append, nodesAt_cons, nodesAt_nil, reduceCtorEq, if_true, if_false,
      List.append_nil]
    exact (List.perm_append_singleton n _).trans ((ih.cons n).trans List.perm_middle.symm)
  | leave h ih => simpa [nodesAt_append] using ih

/-- The root is the first of the open nodes that the walk has come to. -/
theorem sublist (h : Nested gs ps ns) : ns.reverse.Sublist (nodesAt .arrive gs) := by
  induction h with
  | start => exact .slnil
  | enter h n ih => simpa [nodesAt_append] using ih
  | leave h ih =>
    rw [List.reverse_cons] at ih
    simpa [nodesAt_append] using (List.sublist_append_left _ _).trans ih

/-! ## The place of one signal -/

theorem cut_pair {a b g : Signal} {front back : List Signal}
    (h : gs ++ [a, b] = front ++ g :: back) :
    (∃ rest, gs = front ++ g :: rest ∧ back = rest ++ [a, b]) ∨
      (front = gs ∧ g = a ∧ back = [b]) ∨ (front = gs ++ [a] ∧ g = b ∧ back = []) := by
  rcases List.append_eq_append_iff.mp h with ⟨more, rfl, hpair⟩ | ⟨more, rfl, hback⟩
  · match more with
    | [] =>
      cases hpair
      exact Or.inr (Or.inl ⟨List.append_nil gs, rfl, rfl⟩)
    | [_] =>
      cases hpair
      exact Or.inr (Or.inr ⟨rfl, rfl, rfl⟩)
    | _ :: _ :: rest => simp at hpair
  · cases more with
    | nil =>
      cases hback
      exact Or.inr (Or.inl ⟨(List.append_nil front).symm, rfl, rfl⟩)
    | cons x rest =>
      cases hback
      exact Or.inl ⟨rest, rfl, rfl⟩

theorem cut_arrive (h : Nested gs ps ns) {front back : List Signal} {n : Node}
    (hgs : gs = front ++ ⟨.arrive, n⟩ :: back) :
    ∃ before above after rest, ps = before ++ ⟨n, above⟩ :: after ∧
      Nested front before above ∧ back = ⟨.enter, n⟩ :: rest := by
  induction h generalizing back with
  | start => simp at hgs
  | @enter gs ps ns h m ih =>
    rcases cut_pair hgs with ⟨rest, hgs', rfl⟩ | ⟨rfl, hg, rfl⟩ | ⟨-, hg, -⟩
    · obtain ⟨before, above, after, rest, rfl, hfront, rfl⟩ := ih hgs'
      exact ⟨before, above, after ++ [⟨m, ns⟩], rest ++ [⟨.arrive, m⟩, ⟨.enter, m⟩],
        by simp, hfront, rfl⟩
    · cases hg
      exact ⟨ps, ns, [], [], rfl, h, rfl⟩
    · cases hg
  | @leave gs ps m ns h ih =>
    rcases cut_pair hgs with ⟨rest, hgs', rfl⟩ | ⟨-, hg, -⟩ | ⟨-, hg, -⟩
    · obtain ⟨before, above, after, rest, rfl, hfront, rfl⟩ := ih hgs'
      exact ⟨before, above, after, rest ++ [⟨.leave, m⟩, ⟨.depart, m⟩], rfl, hfront, rfl⟩
    · cases hg
    · cases hg

theorem cut_depart (h : Nested gs ps ns) {front back : List Signal} {n : Node}
    (hgs : gs = front ++ ⟨.depart, n⟩ :: back) : ∃ rest, front = rest ++ [⟨.leave, n⟩] := by
  induction h generalizing back with
  | start => simp at hgs
  | enter h m ih =>
    rcases cut_pair hgs with ⟨rest, hgs', -⟩ | ⟨-, hg, -⟩ | ⟨-, hg, -⟩
    · exact ih hgs'
    · cases hg
    · cases hg
  | leave h ih =>
    rcases cut_pair hgs with ⟨rest, hgs', -⟩ | ⟨-, hg, -⟩ | ⟨hfront, hg, -⟩
    · exact ih hgs'
    · cases hg
    · cases hg
      exact ⟨_, hfront⟩

end Nested

theorem Node.nested_signals (t : Node) : Nested t.signals t.placements [] :=
  Nested.start.walk t

theorem Node.nodesAt_departure {phase : Phase} (h : phase = .leave ∨ phase = .depart) (t : Node) :
    nodesAt phase t.signals = t.postorder := by
  have placed : ∀ above, nodesAt phase t.signals =
      (t.postplacementsBelow above).map Placement.node := by
    induction t using Node.induction with
    | step t ih =>
      intro above
      have below : nodesAt phase (t.children.flatMap Node.signals) =
          (t.children.flatMap fun c => c.postplacementsBelow (t :: above)).map Placement.node := by
        rw [nodesAt_flatMap, List.map_flatMap]
        exact List.flatMap_congr fun c hc => ih c hc (t :: above)
      rw [t.signals_eq, t.postplacementsBelow_eq, List.map_append, ← below]
      rcases h with rfl | rfl <;> simp [nodesAt_append]
  exact placed []

/-! ## Shapes -/

/-- The trees have the same kinds and identifiers at the same positions. -/
inductive Node.SameShape : Node → Node → Prop
  | intro {a b : Node} (kind : a.kind = b.kind) (id : a.id = b.id)
      (children : List.Forall₂ Node.SameShape a.children b.children) : Node.SameShape a b

/-- What is told of a signal that is the same for all kinds. -/
def Signal.call? (g : Signal) : Option (Phase × NodeId × NodeKind) :=
  match g.phase with
  | .arrive | .depart => some (g.phase, g.node.id, g.node.kind)
  | .enter | .leave => none

/-- The signals of a walk that are the same for all kinds. -/
def Node.calls (t : Node) : List (Phase × NodeId × NodeKind) := t.signals.filterMap Signal.call?

theorem Node.calls_eq (t : Node) :
    t.calls = (.arrive, t.id, t.kind) ::
      (t.children.flatMap Node.calls ++ [(.depart, t.id, t.kind)]) := by
  have below : (t.children.flatMap Node.signals).filterMap Signal.call? =
      t.children.flatMap Node.calls := List.filterMap_flatMap
  have arrive : Signal.call? ⟨.arrive, t⟩ = some (.arrive, t.id, t.kind) := rfl
  have enter : Signal.call? ⟨.enter, t⟩ = none := rfl
  rw [Node.calls, t.signals_eq, List.filterMap_cons_some arrive, List.filterMap_cons_none enter,
    List.filterMap_append, below]
  rfl

theorem Node.sameShape_of_calls {a b : Node} {as bs : List (Phase × NodeId × NodeKind)}
    (h : a.calls ++ as = b.calls ++ bs) : a.SameShape b ∧ as = bs := by
  induction a using Node.induction generalizing b as bs with
  | step a ih =>
    -- the children of `a` are read until the departure from `a`
    have forest : ∀ cs ds : List Node, (∀ c ∈ cs, c ∈ a.children) →
        cs.flatMap Node.calls ++ (.depart, a.id, a.kind) :: as =
          ds.flatMap Node.calls ++ (.depart, b.id, b.kind) :: bs →
        List.Forall₂ Node.SameShape cs ds ∧ as = bs := by
      intro cs ds hcs h
      induction cs generalizing ds with
      | nil =>
        cases ds with
        | nil => exact ⟨.nil, (List.cons.inj h).2⟩
        | cons d ds =>
          rw [List.flatMap_cons, d.calls_eq] at h
          cases h
      | cons c cs ihcs =>
        cases ds with
        | nil =>
          rw [List.flatMap_cons, c.calls_eq] at h
          cases h
        | cons d ds =>
          rw [List.flatMap_cons, List.flatMap_cons, List.append_assoc, List.append_assoc] at h
          obtain ⟨hcd, hrest⟩ := ih c (hcs c List.mem_cons_self) h
          obtain ⟨hcsds, hasbs⟩ := ihcs ds (fun e he => hcs e (List.mem_cons_of_mem c he)) hrest
          exact ⟨.cons hcd hcsds, hasbs⟩
    rw [a.calls_eq, b.calls_eq] at h
    simp only [List.cons_append, List.cons.injEq, Prod.mk.injEq, List.append_assoc,
      List.nil_append, true_and] at h
    obtain ⟨⟨hid, hkind⟩, hbelow⟩ := h
    obtain ⟨hchildren, hasbs⟩ := forest a.children b.children (fun c hc => hc) hbelow
    exact ⟨.intro hkind hid hchildren, hasbs⟩

theorem Node.SameShape.calls_eq {a b : Node} (h : a.SameShape b) : a.calls = b.calls := by
  induction a using Node.induction generalizing b with
  | step a ih =>
    obtain ⟨hkind, hid, hchildren⟩ := h
    have below : a.children.flatMap Node.calls = b.children.flatMap Node.calls := by
      rw [← List.forall₂_eq_eq_eq]
      apply List.rel_flatMap ((List.forall₂_and_left _ _).mpr ⟨@ih, hchildren⟩)
      intro c d hcd
      rw [List.forall₂_eq_eq_eq]
      exact hcd.1 hcd.2
    rw [a.calls_eq, b.calls_eq, hkind, hid, below]

/-- The signals are a balanced traversal of the tree. -/
structure Node.Traversal (t : Node) (gs : List Signal) : Prop where
  arrivals : nodesAt .arrive gs = t.preorder
  entries : nodesAt .enter gs = t.preorder
  exits : nodesAt .leave gs = t.postorder
  departures : nodesAt .depart gs = t.postorder
  /-- A node is entered at once, while the nodes that the walk is not done with are those
  above it, the root first. -/
  arrive : ∀ front n back, gs = front ++ ⟨.arrive, n⟩ :: back →
    (∃ rest, back = ⟨.enter, n⟩ :: rest) ∧
      ∃ before above after, t.placements = before ++ ⟨n, above⟩ :: after ∧
        nodesAt .arrive front = before.map Placement.node ∧
        (nodesAt .arrive front).Perm (nodesAt .depart front ++ above) ∧
        above.reverse.Sublist (nodesAt .arrive front)
  /-- A node is left just before. -/
  depart : ∀ front n back, gs = front ++ ⟨.depart, n⟩ :: back →
    ∃ rest, front = rest ++ [⟨.leave, n⟩]

theorem Node.traversal_signals (t : Node) : t.Traversal t.signals where
  arrivals := t.nodesAt_signals (Or.inl rfl)
  entries := t.nodesAt_signals (Or.inr rfl)
  exits := t.nodesAt_departure (Or.inl rfl)
  departures := t.nodesAt_departure (Or.inr rfl)
  arrive front n back hgs := by
    obtain ⟨before, above, after, rest, hplacements, hfront, hback⟩ :=
      t.nested_signals.cut_arrive hgs
    exact ⟨⟨rest, hback⟩, before, above, after, hplacements, hfront.arrivals, hfront.perm,
      hfront.sublist⟩
  depart front n back hgs := t.nested_signals.cut_depart hgs

/-- Whatever follows a walk, its hooks are called by a balanced traversal of the tree, which
comes to every node and is done with it once.  The calls of the hooks for all kinds determine
the shape of the tree. -/
theorem walk_balanced :
    (∀ t : Node, t.Traversal t.signals ∧ t.postorder.Perm t.preorder ∧
      ∀ {σ : Type} (l : Listener σ) (s : σ), (l.walk t).run s = ((), t.signals.foldl l.receive s)) ∧
    ∀ a b : Node, a.calls = b.calls ↔ a.SameShape b := by
  constructor
  · intro t
    exact ⟨t.traversal_signals, t.postorder_perm, fun l s => l.run_walk t s⟩
  · intro a b
    constructor
    · intro h
      rw [← List.append_nil a.calls, ← List.append_nil b.calls] at h
      exact (Node.sameShape_of_calls h).1
    · exact Node.SameShape.calls_eq

end TreeCheck
