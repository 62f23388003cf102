import Mathlib.Data.List.Count
import Mathlib.Logic.Equiv.Basic
import TreeCheck.Proofs.Check.Reference
import TreeCheck.Proofs.Tree.Renaming

/-!
# Checking a renamed tree

A check compares identifiers and names and does nothing else with them.  So the errors of a
renamed tree are the renamed errors of the tree, one by one and in the same order
(`errors_rename`).  The rules are gone through separately: what a node breaks after the nodes
`met`, its renamed form breaks after the renamed `met`.
-/

namespace TreeCheck

open Check

def Check.SemanticError.rename (f : Renaming) : SemanticError → SemanticError
  | .variadicWithoutParameters function node =>
    .variadicWithoutParameters (f.declared function) (f.id node)
  | .duplicateParameter function name node =>
    .duplicateParameter (f.declared function) (f.parameter name) (f.id node)
  | .duplicateFunction name arity node previous =>
    .duplicateFunction (f.declared name) arity (f.id node) (f.id previous)
  | .duplicateImport name node previous =>
    .duplicateImport (f.imported name) (f.id node) (f.id previous)
  | .duplicateNodeId node => .duplicateNodeId (f.id node)

variable (f : Renaming)

theorem Node.importedName?_rename (n : Node) :
    (n.rename f).importedName? = n.importedName?.map f.imported := by
  cases n <;> rfl

def Renaming.signature (s : String × Nat) : String × Nat := (f.declared s.1, s.2)

theorem Renaming.signature_injective : Function.Injective f.signature := by
  rintro ⟨name, arity⟩ ⟨name', arity'⟩ h
  obtain ⟨hname, harity⟩ := Prod.mk.inj h
  exact Prod.ext (f.declared.injective hname) harity

theorem Node.signature?_rename (n : Node) :
    (n.rename f).signature? = n.signature?.map f.signature := by
  cases n with
  | functionDeclaration d =>
    rw [Node.rename, Node.signature?, d.arity_rename, d.rename_eq]
    rfl
  | _ => rfl

theorem Placement.functionName_rename (p : Placement) :
    (p.rename f).functionName = f.declared p.functionName := by
  rw [Placement.functionName, Placement.functionName, Placement.declaration?_rename]
  cases p.declaration? with
  | none => exact f.declared_closureName.symm
  | some d =>
    show (d.rename f).name = f.declared d.name
    rw [d.rename_eq]

namespace Check

/-! ## One rule at one node -/

theorem firstWith?_rename {κ : Type} [DecidableEq κ] {key : Node → Option κ} {g : κ → κ}
    (hg : Function.Injective g) (hkey : ∀ n : Node, key (n.rename f) = (key n).map g)
    (met : List Node) (k : κ) :
    firstWith? key (met.map (Node.rename f)) (g k) = (firstWith? key met k).map f.id := by
  have same : (fun n : Node => decide (key n = some k)) =
      (fun n => decide (key n = some (g k))) ∘ Node.rename f := by
    funext n
    refine decide_eq_decide.mpr ?_
    rw [hkey, ← Option.map_some, (Option.map_injective hg).eq_iff]
  rw [firstWith?, firstWith?, same, List.find?_map, Option.map_map, Option.map_map]
  congr 1
  funext n
  exact n.id_rename f

theorem secondOccurrences_map {g : String → String} (hg : Function.Injective g)
    (ps : List String) : secondOccurrences (ps.map g) = (secondOccurrences ps).map g := by
  rw [secondOccurrences, gather_map, secondOccurrences, map_gather]
  refine gather_congr fun before p _ _ => ?_
  rw [List.count_map_of_injective before g hg, apply_ite (List.map g), List.map_singleton,
    List.map_nil]

theorem map_id_rename (met : List Node) :
    (met.map (Node.rename f)).map Node.id = (met.map Node.id).map f.id := by
  rw [List.map_map, List.map_map]
  exact List.map_congr_left fun n _ => n.id_rename f

theorem breaks_rename (met : List Node) (name : String) (n : Node) (r : Rule) :
    breaks (met.map (Node.rename f)) (f.declared name) (n.rename f) r =
      (breaks met name n r).map (SemanticError.rename f) := by
  cases r with
  | duplicateNodeId =>
    have known : f.id n.id ∈ (met.map (Node.rename f)).map Node.id ↔ n.id ∈ met.map Node.id := by
      rw [map_id_rename, List.mem_map_of_injective f.id.injective]
    simp only [breaks, n.id_rename, known, apply_ite (List.map (SemanticError.rename f))]
    rfl
  | duplicateImport =>
    cases n with
    | importDeclaration i =>
      have first : firstWith? Node.importedName? (met.map (Node.rename f)) (f.imported i.name) =
          (firstWith? Node.importedName? met i.name).map f.id :=
        firstWith?_rename f f.imported.injective (Node.importedName?_rename f) met i.name
      rw [Node.rename, ImportDeclaration.rename, breaks, breaks, first, Option.toList_map,
        List.map_map, List.map_map]
      rfl
    | _ => rfl
  | duplicateFunction =>
    cases n with
    | functionDeclaration d =>
      have first : firstWith? Node.signature? (met.map (Node.rename f))
            (f.declared d.name, d.arity) =
          (firstWith? Node.signature? met (d.name, d.arity)).map f.id :=
        firstWith?_rename f f.signature_injective (Node.signature?_rename f) met (d.name, d.arity)
      rw [Node.rename, breaks, breaks, d.arity_rename, d.rename_eq, first, Option.toList_map,
        List.map_map, List.map_map]
      rfl
    | _ => rfl
  | variadicWithoutParameters =>
    cases n with
    | function g =>
      simp only [Node.rename, breaks, g.rename_eq, List.map_eq_nil_iff,
        apply_ite (List.map (SemanticError.rename f))]
      rfl
    | _ => rfl
  | duplicateParameter =>
    cases n with
    | function g =>
      rw [Node.rename, breaks, breaks, g.rename_eq, secondOccurrences_map f.parameter.injective,
        List.map_map, List.map_map]
      rfl
    | _ => rfl

/-! ## All rules in a tree -/

theorem breaksOf_rename (o : Options) (rules : List Rule) (met : List Node) (name : String)
    (n : Node) :
    breaksOf o rules (met.map (Node.rename f)) (f.declared name) (n.rename f) =
      (breaksOf o rules met name n).map (SemanticError.rename f) := by
  rw [breaksOf, breaksOf, List.map_flatMap]
  refine List.flatMap_congr fun r _ => ?_
  rw [breaks_rename, apply_ite (List.map (SemanticError.rename f)), List.map_nil]

theorem findings_rename (o : Options) (t : Node) :
    findings o (t.rename f) = (findings o t).map (SemanticError.rename f) := by
  rw [findings, t.placements_rename, gather_map, findings, map_gather]
  refine gather_congr fun before p _ _ => ?_
  have nodes : (before.map (Placement.rename f)).map Placement.node =
      (before.map Placement.node).map (Node.rename f) := by
    rw [List.map_map, List.map_map]
    rfl
  rw [Placement.findings, nodes, p.functionName_rename]
  exact breaksOf_rename f o Rule.inOrder (before.map Placement.node) p.functionName p.node

/-- A check finds the same in a renamed tree, under the new identifiers and names. -/
theorem errors_rename (o : Options) (t : Node) :
    errors o (t.rename f) = (errors o t).map (SemanticError.rename f) := by
  rw [errors_eq_cut, findings_rename, Options.cut_map, errors_eq_cut]

/-- Two functions and two identifiers change places.  The second of two equal declarations
is still the one that is reported, and the closure keeps its name. -/
theorem errors_rename_swap :
    let f : Renaming :=
      { id := (Equiv.swap ⟨1⟩ ⟨2⟩).toEmbedding
        imported := .refl String
        declared := (Equiv.swap "f" "g").toEmbedding
        parameter := (Equiv.swap "a" "b").toEmbedding
        declared_closureName := by decide }
    let t : Node := .block ⟨⟨9⟩,
      [.functionDeclaration ⟨⟨1⟩, "f", false, ⟨⟨3⟩, ["a", "a"], false, none⟩⟩,
       .functionDeclaration ⟨⟨2⟩, "f", false, ⟨⟨3⟩, ["a", "c"], false, none⟩⟩,
       .function ⟨⟨4⟩, [], true, none⟩]⟩
    errors .all t =
        [.duplicateParameter "f" "a" ⟨3⟩, .duplicateFunction "f" 2 ⟨2⟩ ⟨1⟩, .duplicateNodeId ⟨3⟩,
         .variadicWithoutParameters "<closure>" ⟨4⟩] ∧
      errors .all (t.rename f) =
        [.duplicateParameter "g" "b" ⟨3⟩, .duplicateFunction "g" 2 ⟨1⟩ ⟨2⟩, .duplicateNodeId ⟨3⟩,
         .variadicWithoutParameters "<closure>" ⟨4⟩] := by
  intro f t
  have herrors : errors .all t =
      [.duplicateParameter "f" "a" ⟨3⟩, .duplicateFunction "f" 2 ⟨2⟩ ⟨1⟩, .duplicateNodeId ⟨3⟩,
       .variadicWithoutParameters "<closure>" ⟨4⟩] := by
    rw [errors_all]
    decide
  refine ⟨herrors, ?_⟩
  rw [errors_rename, herrors]
  decide

end Check
end TreeCheck
