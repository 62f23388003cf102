import Mathlib.Data.List.Flatten
import TreeCheck.Proofs.Check.Handover

/-!
# Errors of a subtree

A subtree can be checked on its own or as a part of a tree.  Its nodes are then the same, in
the same order, but in the tree there are more nodes before them.  More nodes before a node
never make it keep a rule that it breaks, and can only change which earlier node an error
names (`breaks_append_sublist`).

What stands above a node decides the name that errors give to it, if it is a function.  Below
the root of the subtree this is the same in the tree.  The root itself may be the function of a
declaration, which it is not when it is checked on its own.
-/

namespace TreeCheck

open Check

/-! ## Subtrees at their places -/

/-- The place in a tree where the nodes `more` are above. -/
def Placement.under (p : Placement) (more : List Node) : Placement := ⟨p.node, p.above ++ more⟩

theorem Node.placementsBelow_append (n : Node) (above more : List Node) :
    n.placementsBelow (above ++ more) = (n.placementsBelow above).map fun p => p.under more := by
  induction n using Node.induction generalizing above with
  | step n ih =>
    have below : ∀ c ∈ n.children, c.placementsBelow (n :: (above ++ more)) =
        (c.placementsBelow (n :: above)).map fun p => p.under more :=
      fun c hc => ih c hc (n :: above)
    rw [n.placementsBelow_eq, n.placementsBelow_eq, List.map_cons, List.map_flatMap,
      List.flatMap_congr below]
    rfl

theorem Node.placementsBelow_infix {t : Node} {above : List Node} {p : Placement}
    (h : p ∈ t.placementsBelow above) :
    p.node.placementsBelow p.above <:+: t.placementsBelow above := by
  induction h using Node.placement_induction with
  | root => exact List.infix_refl _
  | child q _ c hc ih =>
    refine List.IsInfix.trans ?_ ih
    rw [q.node.placementsBelow_eq]
    exact List.infix_cons (List.infix_of_mem_flatten (List.mem_map_of_mem hc))

theorem Placement.functionName_under {p : Placement} (h : p.above ≠ []) (more : List Node) :
    (p.under more).functionName = p.functionName := by
  obtain ⟨n, above⟩ := p
  cases above with
  | nil => exact absurd rfl h
  | cons m above => rfl

/-- In a tree the places of a subtree come one after another, each with more above it. -/
theorem Node.exists_placements {t : Node} {p : Placement} (hp : p ∈ t.placements) :
    ∃ front back, t.placements =
      front ++ p :: (p.node.placements.tail.map fun q => q.under p.above) ++ back := by
  obtain ⟨front, back, h⟩ := Node.placementsBelow_infix hp
  refine ⟨front, back, ?_⟩
  have own : p.node.placementsBelow p.above =
      p :: p.node.placements.tail.map fun q => q.under p.above := by
    have moved := p.node.placementsBelow_append [] p.above
    rw [List.nil_append] at moved
    rw [moved, Node.placements, p.node.placementsBelow_eq]
    rfl
  rw [Node.placements, ← h, own]

namespace Check

/-! ## Erased fields -/

namespace SemanticError

/-- The error without the earlier node. -/
def erasePrevious : SemanticError → SemanticError
  | duplicateFunction name arity node _ => duplicateFunction name arity node default
  | duplicateImport name node _ => duplicateImport name node default
  | e => e

/-- The error without the name of the function whose parameters it is about. -/
def eraseFunction : SemanticError → SemanticError
  | variadicWithoutParameters _ node => variadicWithoutParameters "" node
  | duplicateParameter _ name node => duplicateParameter "" name node
  | e => e

def erased (e : SemanticError) : SemanticError := e.erasePrevious.eraseFunction

end SemanticError

/-! ## More nodes before a node -/

section More

variable (more met : List Node) (name : String) (n : Node)

theorem firstWith?_append_sublist {κ : Type} [DecidableEq κ] (key : Node → Option κ) (k : κ)
    {error : NodeId → SemanticError}
    (herror : ∀ x y, (error x).erasePrevious = (error y).erasePrevious) :
    (((firstWith? key met k).toList.map error).map SemanticError.erasePrevious).Sublist
      (((firstWith? key (more ++ met) k).toList.map error).map SemanticError.erasePrevious) := by
  rw [firstWith?_append]
  cases firstWith? key met k with
  | none => exact List.nil_sublist _
  | some x =>
    cases firstWith? key more k with
    | none => exact List.Sublist.refl _
    | some y =>
      show [(error x).erasePrevious].Sublist [(error y).erasePrevious]
      rw [herror x y]

/-- What a node breaks after the nodes `met` it also breaks if there are more nodes before. -/
theorem breaks_append_sublist (r : Rule) :
    ((breaks met name n r).map SemanticError.erasePrevious).Sublist
      ((breaks (more ++ met) name n r).map SemanticError.erasePrevious) := by
  cases r with
  | duplicateNodeId =>
    rw [breaks, breaks]
    by_cases hid : n.id ∈ met.map Node.id
    · have hmore : n.id ∈ (more ++ met).map Node.id := by
        rw [List.map_append]
        exact List.mem_append_right _ hid
      rw [if_pos hid, if_pos hmore]
    · rw [if_neg hid]
      exact List.nil_sublist _
  | duplicateImport =>
    cases n with
    | importDeclaration i => exact firstWith?_append_sublist more met _ _ fun _ _ => rfl
    | _ => exact List.Sublist.refl _
  | duplicateFunction =>
    cases n with
    | functionDeclaration d => exact firstWith?_append_sublist more met _ _ fun _ _ => rfl
    | _ => exact List.Sublist.refl _
  | variadicWithoutParameters | duplicateParameter =>
    cases n with
    | _ => exact List.Sublist.refl _

theorem breaksOf_append_sublist (o : Options) (rules : List Rule) :
    ((breaksOf o rules met name n).map SemanticError.erasePrevious).Sublist
      ((breaksOf o rules (more ++ met) name n).map SemanticError.erasePrevious) := by
  rw [breaksOf, breaksOf, List.map_flatMap, List.map_flatMap]
  refine List.Sublist.flatMap_right rules fun r _ => ?_
  split
  · exact breaks_append_sublist more met name n r
  · exact List.Sublist.refl _

end More

/-! ## Trees -/

/-- As the first of all nodes, a node can only break rules about parameters. -/
theorem breaksOf_nil (o : Options) (name : String) (n : Node) :
    breaksOf o Rule.inOrder [] name n = n.parameterErrors o name := by
  have order : Rule.inOrder = [.duplicateNodeId, .duplicateImport, .duplicateFunction] ++
      Phase.enter.rules.filter Rule.isAboutParameters := rfl
  have alone : breaksOf o [.duplicateNodeId, .duplicateImport, .duplicateFunction] [] name n =
      [] := by
    cases n <;> simp [breaksOf, breaks, firstWith?]
  rw [order, breaksOf_append, alone, List.nil_append, n.breaksOf_parameters]

theorem parameterErrors_sublist (o : Options) (met : List Node) (name : String) (n : Node) :
    (n.parameterErrors o name).Sublist (breaksOf o Rule.inOrder met name n) := by
  have about : Rule.inOrder.filter Rule.isAboutParameters =
      Phase.enter.rules.filter Rule.isAboutParameters := rfl
  rw [← n.breaksOf_parameters o met name, ← about, ← filter_breaksOf Rule.isAboutParameters]
  exact List.filter_sublist

theorem map_erased_parameterErrors (o : Options) (name name' : String) (n : Node) :
    (n.parameterErrors o name).map SemanticError.erased =
      (n.parameterErrors o name').map SemanticError.erased := by
  cases n with
  | function f =>
    simp only [Node.parameterErrors, Session.parameterErrors, List.map_append,
      apply_ite (List.map _), List.map_map]
    rfl
  | _ => rfl

/-- What is found below the root of `s`, a subtree at a place where the nodes `more` are above
and the walk has passed the places `before`. -/
def findingsBelow (o : Options) (before : List Placement) (s : Node) (more : List Node) :
    List SemanticError :=
  gatherFrom (Placement.findings o) before (s.placements.tail.map fun q => q.under more)

theorem findings_eq_append (o : Options) (s : Node) :
    findings o s = s.parameterErrors o closureName ++ findingsBelow o [⟨s, []⟩] s [] := by
  have first : s.placements = ⟨s, []⟩ :: s.placements.tail.map fun q => q.under [] := by
    simp only [Placement.under, List.append_nil, List.map_id']
    rw [Node.placements, s.placementsBelow_eq, List.tail_cons]
  rw [findings, first]
  exact congrArg (· ++ _) (breaksOf_nil o closureName s)

/-- In a tree the findings of a subtree come after those of the places before it. -/
theorem append_sublist_findings (o : Options) {t : Node} {p : Placement}
    {front back : List Placement}
    (h : t.placements =
      front ++ p :: (p.node.placements.tail.map fun q => q.under p.above) ++ back) :
    (p.node.parameterErrors o p.functionName ++
      findingsBelow o (front ++ [p]) p.node p.above).Sublist (findings o t) := by
  have own := parameterErrors_sublist o (front.map Placement.node) p.functionName p.node
  rw [findings, h, gather_append, gather_append, gatherFrom]
  exact ((own.append_right _).trans (List.sublist_append_right _ _)).trans
    (List.sublist_append_left _ _)

theorem findingsBelow_sublist (o : Options) (front : List Placement) (p : Placement) :
    ((findingsBelow o [⟨p.node, []⟩] p.node []).map SemanticError.erasePrevious).Sublist
      ((findingsBelow o (front ++ [p]) p.node p.above).map SemanticError.erasePrevious) := by
  rw [findingsBelow, findingsBelow, gatherFrom_eq_gather_append, gatherFrom_eq_gather_append,
    gather_map, gather_map, map_gather, map_gather]
  refine gather_sublist fun before q after h => ?_
  have hq : q ∈ p.node.placements.tail := by
    rw [h]
    exact List.mem_append_right _ List.mem_cons_self
  have hroot : q.above ≠ [] := by
    obtain ⟨n, rest, habove, -⟩ := Node.exists_parent hq
    rw [habove]
    exact List.cons_ne_nil n rest
  have hmet : ∀ more, (before.map fun q => q.under more).map Placement.node =
      before.map Placement.node := fun more => by
    rw [List.map_map]
    rfl
  rw [Placement.findings, Placement.findings, Placement.functionName_under hroot,
    Placement.functionName_under hroot, List.map_append, List.map_append, List.map_append, hmet,
    hmet, List.append_assoc]
  exact breaksOf_append_sublist _ _ _ _ o Rule.inOrder

/-- What a check finds in a subtree it also finds in the tree.  An error may name another
earlier node there, and those about the parameters of the subtree's root name the declaration
of the root, if it has one. -/
theorem errors_of_subtree {o : Options} (hcap : o.maxErrors = none) {t : Node} {p : Placement}
    (hp : p ∈ t.placements) :
    let s := p.node
    ((errors o s).map SemanticError.erased).Sublist ((errors o t).map SemanticError.erased) ∧
      ∃ below below', errors o s = s.parameterErrors o closureName ++ below ∧
        (s.parameterErrors o p.functionName ++ below').Sublist (errors o t) ∧
        below.map SemanticError.erasePrevious = below'.map SemanticError.erasePrevious ∧
        (p.functionName ≠ closureName →
          ∃ d, p.declaration? = some d ∧ s = .function d.function ∧ p.functionName = d.name) := by
  intro s
  have uncapped : ∀ u : Node, errors o u = findings o u := fun u => by
    rw [errors_eq_cut, Options.cut_of_none (Options.errorLimit_eq_none hcap)]
  obtain ⟨front, back, hplacements⟩ := Node.exists_placements hp
  obtain ⟨below', hsublist, hbelow⟩ := List.sublist_map_iff.mp (findingsBelow_sublist o front p)
  have hs : errors o s = s.parameterErrors o closureName ++ findingsBelow o [⟨s, []⟩] s [] := by
    rw [uncapped, findings_eq_append]
  have ht : (s.parameterErrors o p.functionName ++ below').Sublist (errors o t) := by
    rw [uncapped]
    exact (hsublist.append_left _).trans (append_sublist_findings o hplacements)
  have herased : (errors o s).map SemanticError.erased =
      (s.parameterErrors o p.functionName ++ below').map SemanticError.erased := by
    have hrest := congrArg (List.map SemanticError.eraseFunction) hbelow
    rw [List.map_map, List.map_map] at hrest
    rw [hs, List.map_append, List.map_append,
      map_erased_parameterErrors o closureName p.functionName]
    exact congrArg _ hrest
  refine ⟨?_, _, below', hs, ht, hbelow, fun hname => ?_⟩
  · rw [herased]
    exact ht.map SemanticError.erased
  · cases hd : p.declaration? with
    | none =>
      rw [Placement.functionName, hd] at hname
      exact absurd rfl hname
    | some d =>
      refine ⟨d, rfl, Placement.node_of_declaration? hp hd, ?_⟩
      rw [Placement.functionName, hd]
      rfl

/-- The function of `f` on its own and in a file that imports `io` before it, declares `f`
twice and uses the identifier of the body. -/
theorem errors_of_subtree_declared :
    let inner : FunctionDeclaration := ⟨⟨7⟩, "f", true, ⟨⟨8⟩, [], true, none⟩⟩
    let body : Block := ⟨⟨4⟩, [.importDeclaration ⟨⟨5⟩, "io"⟩, .importDeclaration ⟨⟨6⟩, "io"⟩,
      .functionDeclaration inner]⟩
    let f : Function := ⟨⟨3⟩, ["a", "a"], false, some body⟩
    let d : FunctionDeclaration := ⟨⟨2⟩, "f", false, f⟩
    let e : FunctionDeclaration := ⟨⟨4⟩, "f", false, ⟨⟨9⟩, [], false, none⟩⟩
    let t : Node := .compilationUnit ⟨⟨1⟩, none, [⟨⟨10⟩, "io"⟩], [e, d]⟩
    let p : Placement := ⟨.function f, [.functionDeclaration d, t]⟩
    Options.all.maxErrors = none ∧ p ∈ t.placements ∧
      errors .all p.node =
        [.duplicateParameter "<closure>" "a" ⟨3⟩, .duplicateImport "io" ⟨6⟩ ⟨5⟩,
         .variadicWithoutParameters "f" ⟨8⟩] ∧
      errors .all t =
        [.duplicateParameter "f" "a" ⟨3⟩, .duplicateNodeId ⟨4⟩, .duplicateImport "io" ⟨5⟩ ⟨10⟩,
         .duplicateImport "io" ⟨6⟩ ⟨10⟩, .duplicateFunction "f" 0 ⟨7⟩ ⟨4⟩,
         .variadicWithoutParameters "f" ⟨8⟩] ∧
      ((errors .all p.node).map SemanticError.erased).Sublist
        ((errors .all t).map SemanticError.erased) := by
  intro inner body f d e t p
  have hp : p ∈ t.placements := List.mem_of_getElem? (i := 5) rfl
  refine ⟨rfl, hp, ?_, ?_, (errors_of_subtree rfl hp).1⟩
  · rw [errors_all]
    decide
  · rw [errors_all]
    decide

end Check
end TreeCheck
