import TreeCheck.Proofs.Tree.Walk
import TreeCheck.Tree.Listener

/-!
# Visits with a state

A handler gets the visits of the children as computations that are not yet run.  If each of
them takes the state through a list of steps, then running all of them takes it through these
lists one after another (`run_runAll`).

Walking a tree with a listener is such a visit, and its steps are the signals of the tree
(`Listener.run_walk`).
-/

namespace TreeCheck

variable {σ : Type}

theorem run_runAll_cons {α : Type} (v : StateM σ α) (vs : List (StateM σ α)) (s : σ) :
    (runAll (v :: vs)).run s =
      ((v.run s).1 :: ((runAll vs).run (v.run s).2).1, ((runAll vs).run (v.run s).2).2) := rfl

/-- Runs visits that go through steps, as long as the state keeps what the visits rely on. -/
theorem run_runAll {α ι κ : Type} {visit : ι → StateM σ α} {result : ι → α}
    {steps : ι → List κ} {cs : List ι} (step : σ → κ → σ) (Fit : σ → Prop)
    (keep : ∀ s k, Fit s → Fit (step s k))
    (h : ∀ c ∈ cs, ∀ s, Fit s → (visit c).run s = (result c, (steps c).foldl step s))
    (s : σ) (hs : Fit s) :
    (runAll (cs.map visit)).run s = (cs.map result, (cs.flatMap steps).foldl step s) := by
  have keepAll : ∀ (ks : List κ) (s : σ), Fit s → Fit (ks.foldl step s) := by
    intro ks
    induction ks with
    | nil => exact fun _ hs => hs
    | cons k ks ih => exact fun s hs => ih (step s k) (keep s k hs)
  induction cs generalizing s with
  | nil => rfl
  | cons c cs ih =>
    have first := h c List.mem_cons_self s hs
    have rest := ih (fun d hd => h d (List.mem_cons_of_mem c hd)) ((steps c).foldl step s)
      (keepAll (steps c) s hs)
    rw [List.map_cons, run_runAll_cons, first, rest, List.flatMap_cons, List.foldl_append,
      List.map_cons]

namespace Listener

theorem run_around (l : Listener σ) (n : Node) (visits : List (StateM σ Unit)) (s : σ) :
    (l.around n (l.enter.call n) (l.leave.call n) visits).run s =
      ((), [⟨.leave, n⟩, ⟨.depart, n⟩].foldl l.receive
        ((runAll visits).run ([⟨.arrive, n⟩, ⟨.enter, n⟩].foldl l.receive s)).2) := rfl

theorem run_walk (l : Listener σ) (t : Node) (s : σ) :
    (l.walk t).run s = ((), t.signals.foldl l.receive s) := by
  induction t using Node.induction generalizing s with
  | step t ih =>
    have below : ∀ s, (runAll (t.visits l.handlers)).run s =
        (t.children.map fun _ => (), (t.children.flatMap Node.signals).foldl l.receive s) := fun s =>
      run_runAll l.receive (fun _ => True) (fun _ _ _ => trivial) (fun c hc s _ => ih c hc s)
        s trivial
    have signals : t.signals = [⟨.arrive, t⟩, ⟨.enter, t⟩] ++
        (t.children.flatMap Node.signals ++ [⟨.leave, t⟩, ⟨.depart, t⟩]) := t.signals_eq
    rw [walk, Node.visit_eq, handle_handlers, run_around, below, signals, List.foldl_append,
      List.foldl_append]

theorem run_walk_ofFollower (receive : σ → Signal → σ) (t : Node) (s : σ) :
    ((ofFollower receive).walk t).run s = ((), t.signals.foldl receive s) := by
  rw [run_walk, receive_ofFollower]

end Listener
end TreeCheck
