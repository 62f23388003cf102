import Mathlib.Data.List.Induction
import TreeCheck.Check.Session
import TreeCheck.Proofs.Gather
import TreeCheck.Proofs.Tree.Placement

/-!
# What a check has to find

The errors of a tree, said without a session.  `breaks` is the whole content of
the rules: it compares one node with the nodes before it.  `findings` goes through
the placements of a tree in pre-order and joins the breaks of the rules that are
on, and `Options.cut` keeps as many errors as the cap allows.

A session finds repeated parameters with two sets.  `repeated_eq` states that these
are the second occurrences in the list of parameters.
-/

namespace TreeCheck

def Node.importedName? : Node → Option String
  | .importDeclaration i => some i.name
  | _ => none

def Node.signature? : Node → Option (String × Nat)
  | .functionDeclaration d => some (d.name, d.arity)
  | _ => none

namespace Check

/-- The identifier of the first node whose `key` is `k`. -/
def firstWith? {κ : Type} [DecidableEq κ] (key : Node → Option κ) (met : List Node) (k : κ) :
    Option NodeId :=
  (met.find? fun n => decide (key n = some k)).map Node.id

/-- The entries of a list that stand in it for the second time. -/
def secondOccurrences (ps : List String) : List String :=
  gather (fun before p => if before.count p = 1 then [p] else []) ps

/-- How a node breaks a rule when it comes after the nodes `met`.  If it is a
function, errors call it `name`. -/
def breaks (met : List Node) (name : String) : Node → Rule → List SemanticError
  | n, .duplicateNodeId =>
    if n.id ∈ met.map Node.id then [.duplicateNodeId n.id] else []
  | .importDeclaration i, .duplicateImport =>
    (firstWith? Node.importedName? met i.name).toList.map (.duplicateImport i.name i.id)
  | .functionDeclaration d, .duplicateFunction =>
    (firstWith? Node.signature? met (d.name, d.arity)).toList.map
      (.duplicateFunction d.name d.arity d.id)
  | .function f, .variadicWithoutParameters =>
    if f.variadic = true ∧ f.parameters = [] then [.variadicWithoutParameters name f.id] else []
  | .function f, .duplicateParameter =>
    (secondOccurrences f.parameters).map fun p => .duplicateParameter name p f.id
  | _, _ => []

def breaksOf (o : Options) (rules : List Rule) (met : List Node) (name : String) (n : Node) :
    List SemanticError :=
  rules.flatMap fun r => if o.isOn r then breaks met name n r else []

/-- The rules in the order in which they are applied to a node. -/
def Rule.inOrder : List Rule :=
  [.duplicateNodeId, .duplicateImport, .duplicateFunction, .variadicWithoutParameters,
   .duplicateParameter]

/-- The rules about the parameters of a function. -/
def Rule.isAboutParameters : Rule → Bool
  | .variadicWithoutParameters | .duplicateParameter => true
  | .duplicateFunction | .duplicateImport | .duplicateNodeId => false

end Check

open Check

/-- What errors call a function at this place. -/
def Placement.functionName (p : Placement) : String :=
  (p.declaration?.map FunctionDeclaration.name).getD closureName

def Placement.findings (o : Options) (before : List Placement) (p : Placement) :
    List SemanticError :=
  breaksOf o Rule.inOrder (before.map Placement.node) p.functionName p.node

namespace Check

/-- All that is wrong with a tree. -/
def findings (o : Options) (t : Node) : List SemanticError :=
  gather (Placement.findings o) t.placements

def Options.cut (o : Options) (es : List SemanticError) : List SemanticError :=
  match o.errorLimit with
  | some limit => es.take limit
  | none => es

/-! ## First occurrences -/

section First

variable {κ : Type} [DecidableEq κ] {key : Node → Option κ} {met : List Node} {k : κ}

theorem firstWith?_append (ns : List Node) :
    firstWith? key (met ++ ns) k = (firstWith? key met k).or (firstWith? key ns k) := by
  rw [firstWith?, List.find?_append, Option.map_or]
  rfl

theorem firstWith?_singleton (n : Node) :
    firstWith? key [n] k = if key n = some k then some n.id else none := by
  by_cases h : key n = some k
  · simp [firstWith?, h]
  · simp [firstWith?, h]

theorem firstWith?_eq_none_iff : firstWith? key met k = none ↔ k ∉ met.filterMap key := by
  simp [firstWith?, List.mem_filterMap]

end First

/-! ## Breaks of the rules -/

theorem rule_of_mem_breaks {met : List Node} {name : String} {n : Node} {r : Rule}
    {e : SemanticError} (h : e ∈ breaks met name n r) : e.rule = r := by
  unfold breaks at h
  split at h
  · split at h
    · rw [List.mem_singleton.mp h]; rfl
    · cases h
  · obtain ⟨previous, -, rfl⟩ := List.mem_map.mp h; rfl
  · obtain ⟨previous, -, rfl⟩ := List.mem_map.mp h; rfl
  · split at h
    · rw [List.mem_singleton.mp h]; rfl
    · cases h
  · obtain ⟨p, -, rfl⟩ := List.mem_map.mp h; rfl
  · cases h

theorem breaksOf_append (o : Options) (rules more : List Rule) (met : List Node) (name : String)
    (n : Node) :
    breaksOf o (rules ++ more) met name n =
      breaksOf o rules met name n ++ breaksOf o more met name n :=
  List.flatMap_append

theorem filter_breaks (keep : Rule → Bool) (met : List Node) (name : String) (n : Node)
    (r : Rule) :
    (breaks met name n r).filter (fun e => keep e.rule) =
      if keep r then breaks met name n r else [] := by
  have hr : ∀ e ∈ breaks met name n r, keep e.rule = keep r := fun e he => by
    rw [rule_of_mem_breaks he]
  rw [List.filter_congr hr]
  cases keep r with
  | false => exact List.filter_false _
  | true => exact List.filter_true _

theorem flatMap_filter {α β : Type} (keep : α → Bool) (f : α → List β) (xs : List α) :
    (xs.filter keep).flatMap f = xs.flatMap fun x => if keep x then f x else [] := by
  induction xs with
  | nil => rfl
  | cons x xs ih =>
    rw [List.flatMap_cons, ← ih]
    cases hx : keep x with
    | false => rw [List.filter_cons_of_neg (Bool.eq_false_iff.mp hx)]; rfl
    | true => rw [List.filter_cons_of_pos hx, List.flatMap_cons]; rfl

/-- To leave out the errors of some rules is to leave out the rules. -/
theorem filter_breaksOf (keep : Rule → Bool) (o : Options) (rules : List Rule) (met : List Node)
    (name : String) (n : Node) :
    (breaksOf o rules met name n).filter (fun e => keep e.rule) =
      breaksOf o (rules.filter keep) met name n := by
  rw [breaksOf, breaksOf, List.filter_flatMap, flatMap_filter]
  refine List.flatMap_congr fun r _ => ?_
  cases o.isOn r with
  | false => exact (ite_self []).symm
  | true => exact filter_breaks keep met name n r

theorem filter_breaksOf_all (o : Options) (rules : List Rule) (met : List Node) (name : String)
    (n : Node) :
    (breaksOf .all rules met name n).filter (fun e => o.isOn e.rule) =
      breaksOf o rules met name n := by
  rw [breaksOf, breaksOf, List.filter_flatMap]
  refine List.flatMap_congr fun r _ => ?_
  rw [if_pos (Options.isOn_all r), filter_breaks]

/-! ## Repeated parameters -/

theorem secondOccurrences_concat (ps : List String) (p : String) :
    secondOccurrences (ps ++ [p]) =
      secondOccurrences ps ++ if ps.count p = 1 then [p] else [] :=
  gather_concat _ ps p

theorem count_secondOccurrences (ps : List String) (q : String) :
    (secondOccurrences ps).count q = if 2 ≤ ps.count q then 1 else 0 := by
  induction ps using List.reverseRecOn with
  | nil => rfl
  | append_singleton ps p ih =>
    rw [secondOccurrences_concat, List.count_append, List.count_append, ih]
    by_cases hq : p = q
    · subst hq
      rw [List.count_singleton_self]
      by_cases hone : ps.count p = 1
      · rw [if_pos hone, List.count_singleton_self, if_neg (by omega), if_pos (by omega)]
      · rw [if_neg hone, List.count_nil]
        split <;> split <;> omega
    · have hnone : (if ps.count p = 1 then [p] else []).count q = 0 := by
        split <;> simp [hq]
      rw [hnone, List.count_singleton, if_neg (mt beq_iff_eq.mp hq), Nat.add_zero, Nat.add_zero]

/-- The set holds the texts that occur in the list at least `n` times. -/
def HoldsFrom (n : Nat) (s : Std.HashSet String) (ps : List String) : Prop :=
  ∀ p, p ∈ s ↔ n ≤ ps.count p

theorem HoldsFrom.keep {n : Nat} {s : Std.HashSet String} {ps : List String} {p : String}
    (h : HoldsFrom n s ps) (hp : n ≤ ps.count p ∨ ps.count p + 1 < n) :
    HoldsFrom n s (ps ++ [p]) := by
  intro q
  rw [h q, List.count_append]
  by_cases hq : p = q
  · subst hq
    rw [List.count_singleton_self]
    omega
  · rw [List.count_singleton, if_neg (mt beq_iff_eq.mp hq), Nat.add_zero]

theorem HoldsFrom.insert {n : Nat} {s : Std.HashSet String} {ps : List String} {p : String}
    (h : HoldsFrom n s ps) (hp : n ≤ ps.count p + 1) : HoldsFrom n (s.insert p) (ps ++ [p]) := by
  intro q
  rw [Std.HashSet.mem_insert, beq_iff_eq, h q, List.count_append]
  by_cases hq : p = q
  · subst hq
    rw [List.count_singleton_self]
    exact ⟨fun _ => hp, fun _ => Or.inl rfl⟩
  · rw [List.count_singleton, if_neg (mt beq_iff_eq.mp hq), Nat.add_zero]
    exact ⟨fun hq' => hq'.resolve_left hq, Or.inr⟩

/-- After the texts `before`, one set holds what has occurred and the other what has
occurred twice. -/
theorem repeatedAfter_eq {seen known : Std.HashSet String} {before : List String}
    (hseen : HoldsFrom 1 seen before) (hknown : HoldsFrom 2 known before) (ps : List String) :
    repeatedAfter seen known ps =
      gatherFrom (fun before p => if before.count p = 1 then [p] else []) before ps := by
  induction ps generalizing seen known before with
  | nil => rfl
  | cons p ps ih =>
    rw [repeatedAfter, gatherFrom]
    by_cases hs : p ∈ seen
    · have once := (hseen p).mp hs
      rw [if_pos (Std.HashSet.contains_iff_mem.mpr hs)]
      by_cases hk : p ∈ known
      · have twice := (hknown p).mp hk
        rw [if_pos (Std.HashSet.contains_iff_mem.mpr hk), if_neg (by omega), List.nil_append]
        exact ih (hseen.keep (by omega)) (hknown.keep (by omega))
      · have notTwice := mt (hknown p).mpr hk
        rw [if_neg (mt Std.HashSet.contains_iff_mem.mp hk), if_pos (by omega),
          List.singleton_append, ih (hseen.keep (by omega)) (hknown.insert (by omega))]
    · have never := mt (hseen p).mpr hs
      rw [if_neg (mt Std.HashSet.contains_iff_mem.mp hs), if_neg (by omega), List.nil_append]
      exact ih (hseen.insert (by omega)) (hknown.keep (by omega))

theorem repeated_eq (ps : List String) : repeated ps = secondOccurrences ps := by
  refine repeatedAfter_eq ?_ ?_ ps
  · intro p; simp
  · intro p; simp

end Check
end TreeCheck
