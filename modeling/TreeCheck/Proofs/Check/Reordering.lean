import TreeCheck.Proofs.Check.Verdict
import TreeCheck.Proofs.Tree.Reordering

/-!
# Checks of trees in another order

A check depends on order: of two nodes with one key it reports the one that it comes to
later, and in an error it names the earlier one.  But how often a rule is broken does not.
A rule that compares nodes is broken by all nodes with a key except for one of every key,
and a rule about parameters is broken by every function on its own, as often as it has
different texts among its parameters that are repeated.

So in trees that are `Node.Reordered` every rule is broken equally often
(`length_breaksIn_reordered`), and with it a check passes both trees or none.
-/

namespace TreeCheck

open Check

/-! ## What the rules compare -/

namespace Node.Reordered

variable {n m : Node}

theorem importedName? (h : n.Reordered m) : n.importedName? = m.importedName? := by
  cases n with
  | importDeclaration i =>
    obtain ⟨j, rfl, hname⟩ := h.of_importDeclaration
    exact congrArg some hname
  | _ =>
    cases m with
    | importDeclaration j => cases h.root.kind
    | _ => rfl

theorem signature? (h : n.Reordered m) : n.signature? = m.signature? := by
  cases n with
  | functionDeclaration d =>
    obtain ⟨e, rfl, hname, harity⟩ := h.of_functionDeclaration
    exact congrArg some (Prod.ext hname harity)
  | _ =>
    cases m with
    | functionDeclaration e => cases h.root.kind
    | _ => rfl

end Node.Reordered

namespace Check

/-! ## Parameters in another order -/

theorem secondOccurrences_perm {ps qs : List String} (h : ps.Perm qs) :
    (secondOccurrences ps).Perm (secondOccurrences qs) := by
  rw [List.perm_iff_count]
  intro p
  rw [count_secondOccurrences, count_secondOccurrences, h.count_eq]

end Check

/-! ## How often a rule is broken -/

/-- How often a node breaks a rule about parameters. -/
def Node.faults : Node → Rule → Nat
  | .function f, .variadicWithoutParameters =>
    if f.variadic = true ∧ f.parameters = [] then 1 else 0
  | .function f, .duplicateParameter => (secondOccurrences f.parameters).length
  | _, _ => 0

theorem Node.Reordered.faults {n m : Node} (h : n.Reordered m) (r : Rule) :
    n.faults r = m.faults r := by
  cases n with
  | function f =>
    obtain ⟨g, rfl, -, hparameters, hvariadic⟩ := h.of_function
    cases r with
    | variadicWithoutParameters =>
      have hempty : f.parameters = [] ↔ g.parameters = [] := by
        rw [← List.length_eq_zero_iff, hparameters.length_eq, List.length_eq_zero_iff]
      simp only [Node.faults, hvariadic, hempty]
    | duplicateParameter => exact (secondOccurrences_perm hparameters).length_eq
    | _ => rfl
  | _ =>
    cases m with
    | function g => cases h.root.kind
    | _ => rfl

namespace Check

theorem length_breaks_eq_faults {r : Rule} (hr : r.isAboutParameters = true) (met : List Node)
    (name : String) (n : Node) : (breaks met name n r).length = n.faults r := by
  cases r with
  | variadicWithoutParameters =>
    cases n with
    | function f =>
      rw [breaks, Node.faults]
      split <;> rfl
    | _ => rfl
  | duplicateParameter =>
    cases n with
    | function f => exact List.length_map _
    | _ => rfl
  | _ => cases hr

theorem length_gatherFrom {α β : Type} {f : List α → α → List β} {weight : α → Nat}
    (h : ∀ before x, (f before x).length = weight x) (before xs : List α) :
    (gatherFrom f before xs).length = total (xs.map weight) := by
  induction xs generalizing before with
  | nil => rfl
  | cons x xs ih => rw [gatherFrom, List.length_append, h, ih, List.map_cons, total_cons]

section Trees

variable {a b : Node} {r : Rule}

theorem length_breaksIn_of_faults (hr : r.isAboutParameters = true) (h : a.Reordered b) :
    (breaksIn a r).length = (breaksIn b r).length := by
  have sum : ∀ t : Node, (breaksIn t r).length = total (t.preorder.map fun n => n.faults r) := by
    intro t
    rw [← t.map_node_placements, List.map_map]
    exact length_gatherFrom (fun _ p => length_breaks_eq_faults hr _ _ p.node) [] t.placements
  rw [sum, sum]
  exact (h.perm_map fun n m hnm => hnm.faults r).foldr_eq 0

theorem length_breaksIn_of_keys {κ : Type} [DecidableEq κ] {key : Node → Option κ}
    (hr : r ≠ .duplicateParameter)
    (hbreaks : ∀ met name n,
      breaks met name n r = [] ↔ ∀ k, key n = some k → k ∉ met.filterMap key)
    (hkey : ∀ n m : Node, n.Reordered m → key n = key m) (h : a.Reordered b) :
    (breaksIn a r).length = (breaksIn b r).length := by
  have keys := h.perm_filterMap hkey
  have ha := length_breaksIn_add_card (t := a) hr hbreaks
  have hb := length_breaksIn_add_card (t := b) hr hbreaks
  rw [List.toFinset_eq_of_perm _ _ keys, keys.length_eq] at ha
  omega

/-- Every rule is broken equally often, although not at the same nodes. -/
theorem length_breaksIn_reordered (h : a.Reordered b) (r : Rule) :
    (breaksIn a r).length = (breaksIn b r).length := by
  cases r with
  | duplicateNodeId =>
    exact length_breaksIn_of_keys nofun (fun _ _ _ => breaks_duplicateNodeId_eq_nil_iff)
      (fun _ _ hnm => congrArg some hnm.root.id) h
  | duplicateImport =>
    exact length_breaksIn_of_keys nofun (fun _ _ _ => breaks_duplicateImport_eq_nil_iff)
      (fun _ _ hnm => hnm.importedName?) h
  | duplicateFunction =>
    exact length_breaksIn_of_keys nofun (fun _ _ _ => breaks_duplicateFunction_eq_nil_iff)
      (fun _ _ hnm => hnm.signature?) h
  | duplicateParameter | variadicWithoutParameters => exact length_breaksIn_of_faults rfl h

end Trees

/-- The order of imports, functions, statements, arguments and parameters does not decide
how many errors of a kind a check without a cap reports, nor, whatever the cap, whether a
check reports any. -/
theorem errors_reordered {a b : Node} (h : a.Reordered b) :
    (∀ o : Options, o.maxErrors = none → ∀ r,
      (errors o a).countP (fun e => decide (e.rule = r)) =
        (errors o b).countP fun e => decide (e.rule = r)) ∧
    ∀ o : Options, errors o a = [] ↔ errors o b = [] := by
  constructor
  · intro o hcap r
    cases on : o.isOn r with
    | true =>
      rw [countP_rule_errors on hcap, countP_rule_errors on hcap, length_breaksIn_reordered h]
    | false => rw [countP_rule_errors_of_off on, countP_rule_errors_of_off on]
  · intro o
    have keeps : ∀ r, a.Keeps r ↔ b.Keeps r := by
      intro r
      rw [← breaksIn_eq_nil_iff, ← breaksIn_eq_nil_iff, ← List.length_eq_zero_iff,
        length_breaksIn_reordered h, List.length_eq_zero_iff]
    rw [errors_eq_cut, errors_eq_cut, Options.cut_eq_nil_iff, Options.cut_eq_nil_iff,
      findings_eq_nil_iff, findings_eq_nil_iff]
    simp only [keeps]

/-- Imports, functions, parameters, statements and arguments in another order. -/
theorem errors_reordered_throughout :
    let closure : Node := .function ⟨⟨7⟩, [], true, none⟩
    let argument : Node := .reference ⟨8⟩ "x"
    let other : Node := .returnStatement ⟨9⟩ none
    let file (imports : List ImportDeclaration) (functions : List FunctionDeclaration) : Node :=
      .compilationUnit ⟨⟨1⟩, none, imports, functions⟩
    let f (parameters : List String) (statements : List Node) : FunctionDeclaration :=
      ⟨⟨2⟩, "f", false, ⟨⟨3⟩, parameters, false, some ⟨⟨4⟩, statements⟩⟩⟩
    let again : FunctionDeclaration := ⟨⟨5⟩, "f", true, ⟨⟨3⟩, ["x", "y", "z"], false, none⟩⟩
    let call (arguments : List Node) : Node := .functionInvocation ⟨6⟩ "g" arguments
    let first := f ["p", "q", "p"] [call [closure, argument], other]
    let second := f ["q", "p", "p"] [other, call [argument, closure]]
    let a := file [⟨⟨10⟩, "io"⟩, ⟨⟨11⟩, "io"⟩] [first, again]
    let b := file [⟨⟨11⟩, "io"⟩, ⟨⟨10⟩, "io"⟩] [again, second]
    a.Reordered b ∧ Options.all.maxErrors = none ∧
      errors .all a =
        [.duplicateImport "io" ⟨11⟩ ⟨10⟩, .duplicateParameter "f" "p" ⟨3⟩,
         .variadicWithoutParameters "<closure>" ⟨7⟩, .duplicateFunction "f" 3 ⟨5⟩ ⟨2⟩,
         .duplicateNodeId ⟨3⟩] ∧
      errors .all b =
        [.duplicateImport "io" ⟨10⟩ ⟨11⟩, .duplicateFunction "f" 3 ⟨2⟩ ⟨5⟩,
         .duplicateNodeId ⟨3⟩, .duplicateParameter "f" "p" ⟨3⟩,
         .variadicWithoutParameters "<closure>" ⟨7⟩] ∧
      (∀ r, (errors .all a).countP (fun e => decide (e.rule = r)) =
        (errors .all b).countP fun e => decide (e.rule = r)) ∧
      ∀ o : Options, errors o a = [] ↔ errors o b = [] := by
  intro closure argument other file f again call first second a b
  have hcall : (call [closure, argument]).Reordered (call [argument, closure]) :=
    .intro ⟨rfl, rfl, .cons ⟨rfl, .refl _⟩ (.cons ⟨rfl, List.Perm.swap _ _ _⟩ .nil)⟩
      (.cons (.refl _) (.cons (.refl _) .nil)) (List.Perm.swap _ _ _)
  have hbody : (Node.block ⟨⟨4⟩, [call [closure, argument], other]⟩).Reordered
      (.block ⟨⟨4⟩, [other, call [argument, closure]]⟩) :=
    .intro ⟨rfl, rfl, .cons ⟨rfl, List.Perm.swap _ _ _⟩ .nil⟩
      (.cons hcall (.cons (.refl _) .nil)) (List.Perm.swap _ _ _)
  have hfunction : (Node.function first.function).Reordered (.function second.function) :=
    .intro ⟨rfl, rfl, .cons ⟨rfl, List.Perm.swap _ _ _⟩
      (.cons ⟨rfl, .refl _⟩ (.cons ⟨rfl, .refl _⟩ .nil))⟩ (.cons hbody .nil) (.refl _)
  have hdeclaration : (Node.functionDeclaration first).Reordered (.functionDeclaration second) :=
    .intro ⟨rfl, rfl, .cons ⟨rfl, .refl _⟩ (.cons ⟨rfl, .refl _⟩ (.cons ⟨rfl, .refl _⟩ .nil))⟩
      (.cons hfunction .nil) (.refl _)
  have hfile : a.Reordered b :=
    .intro ⟨rfl, rfl, .cons ⟨rfl, .refl _⟩
        (.cons ⟨rfl, List.Perm.swap _ _ _⟩ (.cons ⟨rfl, List.Perm.swap _ _ _⟩ .nil))⟩
      (.cons (.refl _) (.cons (.refl _) (.cons hdeclaration (.cons (.refl _) .nil))))
      (.append (List.Perm.swap _ _ []) (List.Perm.swap _ _ []))
  obtain ⟨hcount, hempty⟩ := errors_reordered hfile
  refine ⟨hfile, rfl, ?_, ?_, hcount .all rfl, hempty⟩
  · rw [errors_all]
    decide
  · rw [errors_all]
    decide

end Check
end TreeCheck
