import Mathlib.Data.List.Basic
import TreeCheck.Proofs.Units.Failures

/-!
# The log of a run

A run has two outcomes, its result and its log, and both tell of the same errors.  A
session keeps them together: it logs an error exactly when it records it
(`Session.Logged`), so what the cap drops is in neither.  `Units.seenAt` is what a
subscriber with a limit sees of one unit, with every text and field, written down from the
entry of that unit in the result.
-/

namespace TreeCheck

open Check

namespace Check

/-! ## The log of a session -/

/-- The log holds the recorded errors and nothing else. -/
def Session.Logged (s : Session) : Prop := s.log.toList = s.errors.toList.map Log.Event.recorded

namespace Session.Logged

variable {o : Options} {s : Session}

theorem record (h : s.Logged) (e : SemanticError) : (s.record o e).Logged := by
  unfold Session.record
  by_cases full : s.limitReached o = true
  · rw [if_pos full]
    exact h
  · rw [if_neg full]
    unfold Session.Logged at h ⊢
    rw [Array.toList_push, Array.toList_push, h, List.map_append, List.map_singleton]

theorem recordAll (h : s.Logged) (es : List SemanticError) :
    (es.foldl (Session.record o) s).Logged := by
  induction es generalizing s with
  | nil => exact h
  | cons e es ih => exact ih (h.record e)

theorem receive (h : s.Logged) (g : Signal) : (s.receive o g).Logged := by
  obtain ⟨phase, n⟩ := g
  cases phase with
  | arrive =>
    show (s.meetNode o n.id).Logged
    unfold Session.meetNode
    split
    · exact h
    · split
      · exact h.record _
      · exact h
  | enter =>
    cases n with
    | importDeclaration i =>
      show (s.meetImport o i).Logged
      unfold Session.meetImport
      split
      · exact h
      · split
        · exact h.record _
        · exact h
    | functionDeclaration d =>
      have hname : Session.Logged { s with pendingName := some d.name } := h
      show (s.meetDeclaration o d).Logged
      unfold Session.meetDeclaration
      split
      · exact hname
      · cases hkey : s.functions[(d.name, d.arity)]? with
        | some previous =>
          simp only [hkey]
          exact hname.record _
        | none =>
          simp only [hkey]
          exact hname
    | function f =>
      have htaken : Session.Logged { s with pendingName := none } := h
      exact htaken.recordAll _
    | _ => exact h
  | leave | depart => exact h

theorem foldl (h : s.Logged) (gs : List Signal) : (gs.foldl (Session.receive o) s).Logged := by
  induction gs generalizing s with
  | nil => exact h
  | cons g gs ih => exact ih (h.receive g)

end Session.Logged

theorem Session.log_run_fresh (o : Options) (t : Node) :
    (Session.fresh.run o t).log.toList =
      (Check.errors o t).map Log.Event.recorded ++ [.finished t.id (Check.errors o t).length] := by
  have h : (Session.fresh.follow o (.walk t)).Logged :=
    Session.Logged.foldl (s := .fresh) rfl t.signals
  have herrors : Check.errors o t = (Session.fresh.follow o (.walk t)).errors.toList := rfl
  show ((Session.fresh.follow o (.walk t)).log.push _).toList = _
  rw [Array.toList_push, h, herrors, Array.length_toList]

end Check

/-! ## The log of a unit -/

namespace Log

theorem filter_eq_ite {α : Type} {p : α → Bool} {b : Bool} {xs : List α} (h : ∀ x ∈ xs, p x = b) :
    xs.filter p = if b then xs else [] := by
  rw [List.filter_congr h]
  cases b
  · exact List.filter_false xs
  · exact List.filter_true xs

end Log

namespace Units

open Log

/-- The errors that a result holds for the unit at a position. -/
def reported (result : Except Failure Unit) (index : Nat) : List SemanticError :=
  ((failed result).filter fun f => f.index = index).flatMap FailedUnit.errors

/-- All errors of a result. -/
def semanticErrors : Except Failure Unit → List SemanticError
  | .error f => f.semanticErrors
  | .ok () => []

/-- What happens inside the span of a unit with these errors. -/
def events (es : List SemanticError) (u : CompilationUnit) : List Event :=
  es.map .recorded ++ [.finished u.id es.length] ++ if es = [] then [.clean] else []

theorem examine_log (o : Options) (index : Nat) (u : CompilationUnit) :
    (examine o index u).log =
      [.opened (span index u), .entered (span index u)] ++
        (events (u.errors o) u).map .event ++ [.exited (span index u)] := by
  have hrun := Session.log_run_fresh o (.compilationUnit u)
  show Entry.opened _ :: .entered _ ::
    (((Session.fresh.run o (.compilationUnit u)).log.toList ++
      if (u.errors o).isEmpty then [Event.clean] else []).map .event ++ [.exited _]) = _
  rw [hrun, events]
  simp only [List.isEmpty_iff]
  rfl

theorem examineFrom_log (o : Options) (start : Nat) (us : List CompilationUnit) :
    (examineFrom o start us).log = (us.zipIdx start).flatMap fun p => (examine o p.2 p.1).log := by
  induction us generalizing start with
  | nil => rfl
  | cons u us ih =>
    have hstep : (examineFrom o start (u :: us)).log =
        (examine o start u).log ++ (examineFrom o (start + 1) us).log := rfl
    rw [hstep, ih, List.zipIdx_cons, List.flatMap_cons]

theorem checkUnits_log (settings : Settings) (units : List CompilationUnit) :
    (checkUnits settings units).log =
      units.zipIdx.flatMap fun p => (examine settings.check p.2 p.1).log := by
  cases units with
  | nil => rfl
  | cons u us => exact examineFrom_log settings.check 0 (u :: us)

theorem flatMap_errors_failure? (o : Options) (p : CompilationUnit × Nat) :
    (failure? o p).toList.flatMap FailedUnit.errors = p.1.errors o := by
  unfold failure?
  by_cases h : p.1.errors o = []
  · rw [if_pos h, h]
    rfl
  · rw [if_neg h]
    exact List.flatMap_singleton _ _

/-- The positions of units differ, so the result holds for a position the errors of the
unit there. -/
theorem reported_checkUnits (settings : Settings) {units : List CompilationUnit}
    {p : CompilationUnit × Nat} (hp : p ∈ units.zipIdx) :
    reported (checkUnits settings units).result p.2 = p.1.errors settings.check := by
  obtain ⟨front, back, hunits⟩ := List.append_of_mem hp
  have hpairwise := pairwise_zipIdx units 0
  rw [hunits, List.pairwise_append, List.pairwise_cons] at hpairwise
  obtain ⟨_, ⟨hback, _⟩, hfront⟩ := hpairwise
  have others : ∀ qs : List (CompilationUnit × Nat), (∀ q ∈ qs, q.2 ≠ p.2) →
      ((qs.filterMap (failure? settings.check)).filter fun f => f.index = p.2) = [] := by
    intro qs hqs
    rw [List.filter_eq_nil_iff]
    intro f hf
    obtain ⟨q, hq, hqf⟩ := List.mem_filterMap.mp hf
    rw [(failure?_eq_some.mp hqf).1, decide_eq_true_eq]
    exact hqs q hq
  have itself : ((failure? settings.check p).toList.filter fun f => f.index = p.2) =
      (failure? settings.check p).toList := by
    rw [List.filter_eq_self]
    intro f hf
    rw [Option.mem_toList] at hf
    exact decide_eq_true (failure?_eq_some.mp hf).1
  have hsplit : (p :: back).filterMap (failure? settings.check) =
      (failure? settings.check p).toList ++ back.filterMap (failure? settings.check) := by
    rw [List.filterMap_cons]
    cases failure? settings.check p <;> rfl
  rw [reported, failed_checkUnits, failures, hunits, List.filterMap_append, hsplit,
    List.filter_append, List.filter_append, itself,
    others front fun q hq => Nat.ne_of_lt (hfront q hq p List.mem_cons_self),
    others back fun q hq => Nat.ne_of_gt (hback q hq), List.nil_append, List.append_nil,
    flatMap_errors_failure?]

end Units

end TreeCheck
