import TreeCheck.Proofs.Check.Reference

/-!
# Trees without errors

`Node.Keeps` says what each rule demands of a whole tree: that something occurs only
once in it, or that its functions are well formed one by one.  A check passes a tree
if the tree keeps the rules that are on.  For a rule that compares nodes, the node
that breaks it is the second of two, and a tree in which no node is a second one is
a tree in which all are different.  How often it is broken is counted in the same way
(`length_breaksIn_add_card`).
-/

namespace TreeCheck

open Check

def Node.function? : Node → Option Function
  | .function f => some f
  | _ => none

/-- The functions of a tree, declared ones and closures. -/
def Node.functions (t : Node) : List Function := t.preorder.filterMap Node.function?

/-- What a rule demands of a tree. -/
def Node.Keeps (t : Node) : Rule → Prop
  | .duplicateNodeId => (t.preorder.map Node.id).Nodup
  | .duplicateImport => (t.preorder.filterMap Node.importedName?).Nodup
  | .duplicateFunction => (t.preorder.filterMap Node.signature?).Nodup
  | .duplicateParameter => ∀ f ∈ t.functions, f.parameters.Nodup
  | .variadicWithoutParameters => ∀ f ∈ t.functions, f.variadic = true → f.parameters ≠ []

instance Node.decidableKeeps (t : Node) : (r : Rule) → Decidable (t.Keeps r)
  | .duplicateNodeId => inferInstanceAs (Decidable (t.preorder.map Node.id).Nodup)
  | .duplicateImport =>
    inferInstanceAs (Decidable (t.preorder.filterMap Node.importedName?).Nodup)
  | .duplicateFunction =>
    inferInstanceAs (Decidable (t.preorder.filterMap Node.signature?).Nodup)
  | .duplicateParameter =>
    inferInstanceAs (Decidable (∀ f ∈ t.functions, f.parameters.Nodup))
  | .variadicWithoutParameters =>
    inferInstanceAs (Decidable (∀ f ∈ t.functions, f.variadic = true → f.parameters ≠ []))

namespace Check

/-! ## One rule at one node -/

theorem secondOccurrences_eq_nil_iff (ps : List String) :
    secondOccurrences ps = [] ↔ ps.Nodup := by
  rw [List.eq_nil_iff_forall_not_mem, List.nodup_iff_count_le_one]
  refine forall_congr' fun p => ?_
  rw [← List.count_pos_iff, count_secondOccurrences]
  split <;> omega

section Node

variable {met : List Node} {name : String} {n : Node}

theorem map_firstWith?_eq_nil_iff {κ : Type} [DecidableEq κ] {key : Node → Option κ} {k : κ}
    (error : NodeId → SemanticError) :
    (firstWith? key met k).toList.map error = [] ↔ k ∉ met.filterMap key := by
  rw [List.map_eq_nil_iff, Option.toList_eq_nil_iff, firstWith?_eq_none_iff]

theorem breaks_duplicateNodeId_eq_nil_iff :
    breaks met name n .duplicateNodeId = [] ↔
      ∀ k, (some ∘ Node.id) n = some k → k ∉ met.filterMap (some ∘ Node.id) := by
  rw [breaks, ite_eq_right_iff, List.filterMap_eq_map]
  simp only [Function.comp_apply, Option.some.injEq, forall_eq']
  exact imp_congr_right fun _ => iff_of_false (List.cons_ne_nil _ _) id

theorem breaks_duplicateImport_eq_nil_iff :
    breaks met name n .duplicateImport = [] ↔
      ∀ k, n.importedName? = some k → k ∉ met.filterMap Node.importedName? := by
  cases n with
  | importDeclaration i =>
    rw [breaks, map_firstWith?_eq_nil_iff]
    simp only [Node.importedName?, Option.some.injEq, forall_eq']
  | _ => exact iff_of_true rfl fun k hk => absurd hk (Option.some_ne_none k).symm

theorem breaks_duplicateFunction_eq_nil_iff :
    breaks met name n .duplicateFunction = [] ↔
      ∀ k, n.signature? = some k → k ∉ met.filterMap Node.signature? := by
  cases n with
  | functionDeclaration d =>
    rw [breaks, map_firstWith?_eq_nil_iff]
    simp only [Node.signature?, Option.some.injEq, forall_eq']
  | _ => exact iff_of_true rfl fun k hk => absurd hk (Option.some_ne_none k).symm

theorem breaks_duplicateParameter_eq_nil_iff :
    breaks met name n .duplicateParameter = [] ↔
      ∀ f, n.function? = some f → f.parameters.Nodup := by
  cases n with
  | function f =>
    rw [breaks, List.map_eq_nil_iff, secondOccurrences_eq_nil_iff]
    simp only [Node.function?, Option.some.injEq, forall_eq']
  | _ => exact iff_of_true rfl fun f hf => absurd hf (Option.some_ne_none f).symm

theorem breaks_variadicWithoutParameters_eq_nil_iff :
    breaks met name n .variadicWithoutParameters = [] ↔
      ∀ f, n.function? = some f → f.variadic = true → f.parameters ≠ [] := by
  cases n with
  | function f =>
    simp only [breaks, Node.function?, Option.some.injEq, forall_eq', ite_eq_right_iff,
      reduceCtorEq, imp_false, not_and]
  | _ => exact iff_of_true rfl fun f hf => absurd hf (Option.some_ne_none f).symm

/-- A node breaks a rule once at most, unless it is about the parameters one by one. -/
theorem length_breaks_le_one {r : Rule} (hr : r ≠ .duplicateParameter) :
    (breaks met name n r).length ≤ 1 := by
  unfold breaks
  split
  · split <;> simp
  · rw [List.length_map, Option.length_toList]
    split <;> omega
  · rw [List.length_map, Option.length_toList]
    split <;> omega
  · split <;> simp
  · exact absurd rfl hr
  · exact Nat.zero_le 1

end Node

/-! ## One rule in a tree -/

def breaksIn (t : Node) (r : Rule) : List SemanticError :=
  gather (fun before p => breaks (before.map Placement.node) p.functionName p.node r) t.placements

section Tree

variable {t : Node} {r : Rule}

theorem breaksIn_eq_nil_iff_nodup {κ : Type} {key : Node → Option κ}
    (h : ∀ met name n, breaks met name n r = [] ↔ ∀ k, key n = some k → k ∉ met.filterMap key) :
    breaksIn t r = [] ↔ (t.preorder.filterMap key).Nodup := by
  rw [← t.map_node_placements, List.filterMap_map]
  refine gather_eq_nil_iff_nodup (fun before p => ?_) t.placements
  rw [h, List.filterMap_map]
  rfl

/-- A rule that compares nodes is broken as often as a key is left when every key is counted
once. -/
theorem length_breaksIn_add_card {κ : Type} [DecidableEq κ] {key : Node → Option κ}
    (hr : r ≠ .duplicateParameter)
    (h : ∀ met name n, breaks met name n r = [] ↔ ∀ k, key n = some k → k ∉ met.filterMap key) :
    (breaksIn t r).length + (t.preorder.filterMap key).toFinset.card =
      (t.preorder.filterMap key).length := by
  rw [← t.map_node_placements, List.filterMap_map]
  refine length_gather_add_card (fun before p => length_breaks_le_one hr) (fun before p => ?_)
    t.placements
  rw [h, List.filterMap_map]
  rfl

theorem breaksIn_eq_nil_iff_forall {P : Function → Prop}
    (h : ∀ met name n, breaks met name n r = [] ↔ ∀ f, n.function? = some f → P f) :
    breaksIn t r = [] ↔ ∀ f ∈ t.functions, P f := by
  have nodes : breaksIn t r = [] ↔ ∀ p ∈ t.placements, ∀ f, p.node.function? = some f → P f :=
    gather_eq_nil_iff_forall
      (fun before p => h (before.map Placement.node) p.functionName p.node) t.placements
  rw [nodes, Node.functions, ← t.map_node_placements]
  simp only [List.mem_filterMap, List.mem_map]
  constructor
  · rintro hp f ⟨_, ⟨p, hmem, rfl⟩, hf⟩
    exact hp p hmem f hf
  · intro hf p hmem f hn
    exact hf f ⟨p.node, ⟨p, hmem, rfl⟩, hn⟩

theorem breaksIn_eq_nil_iff : breaksIn t r = [] ↔ t.Keeps r := by
  cases r with
  | duplicateNodeId =>
    rw [Node.Keeps, ← List.filterMap_eq_map]
    exact breaksIn_eq_nil_iff_nodup fun _ _ _ => breaks_duplicateNodeId_eq_nil_iff
  | duplicateImport =>
    exact breaksIn_eq_nil_iff_nodup fun _ _ _ => breaks_duplicateImport_eq_nil_iff
  | duplicateFunction =>
    exact breaksIn_eq_nil_iff_nodup fun _ _ _ => breaks_duplicateFunction_eq_nil_iff
  | duplicateParameter =>
    exact breaksIn_eq_nil_iff_forall fun _ _ _ => breaks_duplicateParameter_eq_nil_iff
  | variadicWithoutParameters =>
    exact breaksIn_eq_nil_iff_forall fun _ _ _ => breaks_variadicWithoutParameters_eq_nil_iff

end Tree

/-! ## All rules -/

theorem Rule.mem_inOrder (r : Rule) : r ∈ inOrder := by
  cases r <;> decide

theorem gather_ite_breaks_eq_nil_iff (o : Options) (t : Node) (r : Rule) :
    gather (fun before p =>
      if o.isOn r then breaks (before.map Placement.node) p.functionName p.node r else [])
        t.placements = [] ↔ (o.isOn r = true → breaksIn t r = []) := by
  by_cases on : o.isOn r = true
  · simp only [if_pos on]
    exact ⟨fun h _ => h, fun h => h on⟩
  · simp only [if_neg on]
    have nothing : gather (fun _ _ => ([] : List SemanticError)) t.placements = [] :=
      (gather_eq_nil_iff_forall (fun _ _ => iff_of_true rfl trivial) t.placements).mpr
        fun _ _ => trivial
    exact iff_of_true nothing fun h => absurd h on

theorem findings_eq_nil_iff (o : Options) (t : Node) :
    findings o t = [] ↔ ∀ r, o.isOn r = true → t.Keeps r := by
  have every : findings o t = [] ↔ ∀ r ∈ Rule.inOrder, o.isOn r = true → breaksIn t r = [] := by
    simp only [← gather_ite_breaks_eq_nil_iff, ← gather_flatMap_eq_nil_iff]
    rfl
  rw [every]
  constructor
  · intro h r on
    exact breaksIn_eq_nil_iff.mp (h r r.mem_inOrder on)
  · intro h r _ on
    exact breaksIn_eq_nil_iff.mpr (h r on)

theorem filter_breaksOf_rule {o : Options} {r : Rule} (on : o.isOn r = true) (met : List Node)
    (name : String) (n : Node) :
    (breaksOf o Rule.inOrder met name n).filter (fun e => decide (e.rule = r)) =
      breaks met name n r := by
  have one : Rule.inOrder.filter (fun q => decide (q = r)) = [r] := by
    cases r <;> rfl
  rw [filter_breaksOf (fun q => decide (q = r)), one, breaksOf, List.flatMap_singleton, if_pos on]

theorem filter_findings {o : Options} {r : Rule} (on : o.isOn r = true) (t : Node) :
    (findings o t).filter (fun e => decide (e.rule = r)) = breaksIn t r := by
  rw [findings, filter_gather]
  refine gather_congr fun before p _ _ => ?_
  exact filter_breaksOf_rule on (before.map Placement.node) p.functionName p.node

theorem countP_rule_errors {o : Options} {r : Rule} (on : o.isOn r = true)
    (hcap : o.maxErrors = none) (t : Node) :
    (errors o t).countP (fun e => decide (e.rule = r)) = (breaksIn t r).length := by
  rw [List.countP_eq_length_filter, errors_eq_cut,
    Options.cut_of_none (Options.errorLimit_eq_none hcap), filter_findings on]

theorem countP_rule_errors_of_off {o : Options} {r : Rule} (off : o.isOn r = false) (t : Node) :
    (errors o t).countP (fun e => decide (e.rule = r)) = 0 := by
  rw [List.countP_eq_zero]
  intro e he hrule
  have on := isOn_of_mem_errors he
  rw [of_decide_eq_true hrule, off] at on
  exact Bool.false_ne_true on

/-- A check passes exactly the trees that keep every rule that is on, whatever the cap. -/
theorem errors_eq_nil_iff (o : Options) (t : Node) :
    errors o t = [] ↔ ∀ r, o.isOn r = true → t.Keeps r := by
  rw [errors_eq_cut, Options.cut_eq_nil_iff, findings_eq_nil_iff]

example :
    let t : Node := .function ⟨⟨1⟩, ["a", "b", "a"], true, none⟩
    t.Keeps .variadicWithoutParameters ∧ ¬t.Keeps .duplicateParameter := by
  decide

end Check
end TreeCheck
