import Mathlib.Data.List.Chain
import Mathlib.Data.List.Nodup
import Mathlib.Data.List.Perm.Subperm
import Mathlib.Logic.Relation
import TreeCheck.Proofs.Ancestry

/-!
# The ancestors of an identifier

`Up` is one step from an identifier to its parent.  Where identifiers repeat, the steps
from an identifier may run into a cycle, and `Ends` says that they do not.  A list of
ancestors is a chain of such steps that is cut after as many entries as there are
identifiers with a parent, and `mem_ancestors_iff` states that the cut loses nothing: an
identifier is in the list exactly if some steps lead to it.

The reason is a count.  As long as no identifier on the way is repeated, each of them but
the last is a different identifier with a parent, so a chain that has not stopped at the
cut has repeated one.  From then on it goes in a circle that is already listed.
-/

namespace TreeCheck

namespace Ancestry

open Relation

variable {a : Ancestry} {x y z : NodeId} {as : List NodeId}

/-- The parent of `x` is `y`. -/
def Up (a : Ancestry) (x y : NodeId) : Prop := a.parent? x = some y

/-- From `x` on, one comes to an identifier without a parent. -/
def Ends (a : Ancestry) (x : NodeId) : Prop := ∃ y, ReflTransGen a.Up x y ∧ a.parent? y = none

theorem Up.eq (hy : a.Up x y) (hz : a.Up x z) : y = z :=
  Option.some.inj (hy.symm.trans hz)

theorem rightUnique_up (a : Ancestry) : Relator.RightUnique a.Up := fun _ _ _ => Up.eq

theorem not_up_of_none (h : a.parent? x = none) : ¬a.Up x y := fun hy =>
  Option.some_ne_none y (hy.symm.trans h)

theorem not_transGen_self_of_ends (h : a.Ends x) : ¬TransGen a.Up x x := by
  obtain ⟨y, hxy, hy⟩ := h
  induction hxy using ReflTransGen.head_induction_on with
  | refl =>
    intro hcycle
    obtain ⟨z, hz, -⟩ := TransGen.head'_iff.mp hcycle
    exact not_up_of_none hy hz
  | @head x z hxz _ ih =>
    intro hcycle
    obtain ⟨z', hz', hback⟩ := TransGen.head'_iff.mp hcycle
    rw [← hxz.eq hz'] at hback
    exact ih (TransGen.tail' hback hxz)

theorem Ends.of_reflTransGen (h : a.Ends x) (hxy : ReflTransGen a.Up x y) : a.Ends y := by
  obtain ⟨z, hxz, hz⟩ := h
  rcases ReflTransGen.total_of_right_unique a.rightUnique_up hxy hxz with hyz | hzy
  · exact ⟨z, hyz, hz⟩
  · rcases ReflTransGen.cases_head hzy with rfl | ⟨w, hzw, -⟩
    · exact ⟨z, .refl, hz⟩
    · exact absurd hzw (not_up_of_none hz)

/-! ## Chains of parents -/

theorem pairwise_of_isChain (h : (x :: as).IsChain a.Up) :
    (x :: as).Pairwise (TransGen a.Up) :=
  (h.imp fun _ _ => TransGen.single).pairwise

theorem nodup_of_ends (h : (x :: as).IsChain a.Up) (hends : a.Ends x) : (x :: as).Nodup := by
  have hpairs := pairwise_of_isChain h
  rw [List.nodup_iff_pairwise_ne]
  refine hpairs.imp_of_mem ?_
  rintro y z hy - hyz rfl
  have hxy : ReflTransGen a.Up x y := by
    rcases List.mem_cons.mp hy with rfl | hmem
    · exact .refl
    · exact (List.rel_of_pairwise_cons hpairs hmem).to_reflTransGen
  exact not_transGen_self_of_ends (hends.of_reflTransGen hxy) hyz

/-- What stands before the last entry of a chain has its parent in the chain. -/
theorem exists_up_of_isChain (h : (x :: as).IsChain a.Up) (hy : y ∈ (x :: as).dropLast) :
    ∃ z ∈ as, a.Up y z := by
  induction as generalizing x with
  | nil => cases hy
  | cons w as ih =>
    rw [List.isChain_cons_cons] at h
    rw [List.dropLast_cons_cons, List.mem_cons] at hy
    rcases hy with rfl | hy
    · exact ⟨w, List.mem_cons_self, h.1⟩
    · obtain ⟨z, hz, hyz⟩ := ih h.2 hy
      exact ⟨z, List.mem_cons_of_mem w hz, hyz⟩

theorem mem_dropLast_or_getLast? {xs : List NodeId} (h : y ∈ xs) :
    y ∈ xs.dropLast ∨ xs.getLast? = some y := by
  rcases List.eq_nil_or_concat xs with rfl | ⟨front, z, rfl⟩
  · cases h
  · rw [List.concat_eq_append, List.mem_append, List.mem_singleton] at h
    rw [List.concat_eq_append, List.dropLast_concat, List.getLast?_concat, Option.some.injEq]
    exact h.imp_right Eq.symm

/-- A chain holds all that can be reached if no step leads out of it from its last entry. -/
theorem mem_of_transGen (h : (x :: as).IsChain a.Up)
    (hlast : ∀ y, (x :: as).getLast? = some y → ∀ z, a.Up y z → z ∈ as)
    (hxy : TransGen a.Up x y) : y ∈ as := by
  have closed : ∀ y ∈ x :: as, ∀ z, a.Up y z → z ∈ as := by
    intro y hy z hyz
    rcases mem_dropLast_or_getLast? hy with hfront | hend
    · obtain ⟨w, hw, hyw⟩ := exists_up_of_isChain h hfront
      rw [hyz.eq hyw]
      exact hw
    · exact hlast y hend z hyz
  induction hxy with
  | single hxz => exact closed x List.mem_cons_self _ hxz
  | tail _ hyz ih => exact closed _ (List.mem_cons_of_mem x ih) _ hyz

theorem exists_repeated_of_not_nodup {xs : List NodeId} (h : ¬xs.Nodup) :
    ∃ front y, front ++ [y] <+: xs ∧ y ∈ front := by
  induction xs using List.reverseRecOn with
  | nil => exact absurd List.nodup_nil h
  | append_singleton xs z ih =>
    by_cases hxs : xs.Nodup
    · refine ⟨xs, z, List.prefix_refl _, ?_⟩
      by_contra hz
      rw [← List.concat_eq_append, List.nodup_concat] at h
      exact h ⟨hz, hxs⟩
    · obtain ⟨front, y, hprefix, hy⟩ := ih hxs
      exact ⟨front, y, hprefix.trans (List.prefix_append xs [z]), hy⟩

/-- A chain that comes back to one of its entries holds all that can be reached. -/
theorem mem_of_not_nodup (h : (x :: as).IsChain a.Up) (hrepeated : ¬(x :: as).Nodup)
    (hxy : TransGen a.Up x y) : y ∈ as := by
  obtain ⟨front, z, hprefix, hz⟩ := exists_repeated_of_not_nodup hrepeated
  cases front with
  | nil => cases hz
  | cons w front =>
    rw [List.cons_append, List.cons_prefix_cons] at hprefix
    obtain ⟨rfl, hprefix⟩ := hprefix
    -- The circle closes at `z`, so the chain is followed no further than that.
    have hround : (w :: (front ++ [z])).IsChain a.Up :=
      h.prefix ((List.prefix_cons_inj w).mpr hprefix)
    have hz' : z ∈ (w :: (front ++ [z])).dropLast := by
      rw [← List.cons_append, List.dropLast_concat]
      exact hz
    refine hprefix.subset (mem_of_transGen hround ?_ hxy)
    intro y hy v hyv
    rw [← List.cons_append, List.getLast?_concat, Option.some.injEq] at hy
    rw [← hy] at hyv
    obtain ⟨u, hu, hzu⟩ := exists_up_of_isChain hround hz'
    rw [hyv.eq hzu]
    exact hu

/-! ## The cut -/

theorem isChain_chain (a : Ancestry) (n : Nat) (x : NodeId) :
    (x :: a.chain n (a.parent? x)).IsChain a.Up := by
  induction n generalizing x with
  | zero => exact List.isChain_singleton x
  | succ n ih =>
    cases h : a.parent? x with
    | none => exact List.isChain_singleton x
    | some y => exact List.IsChain.cons_cons h (ih y)

/-- A chain is cut, or its last entry has no parent. -/
theorem length_chain_eq_or (a : Ancestry) (n : Nat) (x : NodeId) :
    (a.chain n (a.parent? x)).length = n ∨
      ∃ y, (x :: a.chain n (a.parent? x)).getLast? = some y ∧ a.parent? y = none := by
  induction n generalizing x with
  | zero => exact Or.inl rfl
  | succ n ih =>
    cases h : a.parent? x with
    | none => exact Or.inr ⟨x, rfl, h⟩
    | some y =>
      rcases ih y with hlength | ⟨z, hlast, hz⟩
      · exact Or.inl (congrArg (· + 1) hlength)
      · refine Or.inr ⟨z, ?_, hz⟩
        rw [chain, List.getLast?_cons_cons]
        exact hlast

theorem isChain_ancestors (a : Ancestry) (x : NodeId) : (x :: a.ancestors x).IsChain a.Up :=
  a.isChain_chain a.size x

theorem length_le_size {xs : List NodeId} (hxs : xs.Nodup) (h : ∀ y ∈ xs, a.parent? y ≠ none) :
    xs.length ≤ a.size := by
  have known : xs ⊆ a.parents.keys := by
    intro y hy
    rw [Std.HashMap.mem_keys, Std.HashMap.mem_iff_isSome_getElem?]
    exact Option.ne_none_iff_isSome.mp (h y hy)
  have hlength := (hxs.subperm known).length_le
  rwa [Std.HashMap.length_keys] at hlength

/-- Ancestors without a repetition go up to an identifier that has no parent. -/
theorem stops_of_nodup (h : (x :: a.ancestors x).Nodup) :
    ∃ y, (x :: a.ancestors x).getLast? = some y ∧ a.parent? y = none := by
  rcases a.length_chain_eq_or a.size x with hlength | hstops
  · by_contra hlast
    have every : ∀ y ∈ x :: a.ancestors x, a.parent? y ≠ none := by
      intro y hy hnone
      rcases mem_dropLast_or_getLast? hy with hfront | hend
      · obtain ⟨z, -, hyz⟩ := exists_up_of_isChain (a.isChain_ancestors x) hfront
        exact not_up_of_none hnone hyz
      · exact hlast ⟨y, hend, hnone⟩
    have hle := length_le_size h every
    rw [List.length_cons, ancestors, hlength] at hle
    omega
  · exact hstops

theorem mem_ancestors_iff (a : Ancestry) (x y : NodeId) :
    y ∈ a.ancestors x ↔ TransGen a.Up x y := by
  have hchain := a.isChain_ancestors x
  constructor
  · intro hy
    exact List.rel_of_pairwise_cons (pairwise_of_isChain hchain) hy
  · intro hxy
    by_cases hnodup : (x :: a.ancestors x).Nodup
    · obtain ⟨top, htop, hnone⟩ := stops_of_nodup hnodup
      refine mem_of_transGen hchain ?_ hxy
      intro y hy z hyz
      rw [htop, Option.some.injEq] at hy
      rw [← hy] at hyz
      exact absurd hyz (not_up_of_none hnone)
    · exact mem_of_not_nodup hchain hnodup hxy

theorem length_ancestors_of_not_ends (h : ¬a.Ends x) : (a.ancestors x).length = a.size := by
  rcases a.length_chain_eq_or a.size x with hlength | ⟨y, hlast, hnone⟩
  · exact hlength
  · have hmem : y ∈ x :: a.ancestors x := List.mem_of_getLast? hlast
    refine absurd ⟨y, ?_, hnone⟩ h
    rcases List.mem_cons.mp hmem with rfl | hy
    · exact .refl
    · exact ((a.mem_ancestors_iff x y).mp hy).to_reflTransGen

/-- The ancestors are the parents one after another, all of them where they come to an end
and as many as there are identifiers with a parent where they do not.  In both cases none is
missed. -/
theorem ancestors_ofTree (t : Node) (x : NodeId) :
    let a := ofTree t
    let path := x :: a.ancestors x
    path.IsChain a.Up ∧
      (a.Ends x → path.Nodup ∧ ∃ y, path.getLast? = some y ∧ a.parent? y = none) ∧
      (¬a.Ends x → (a.ancestors x).length = a.size) ∧
      ∀ y, y ∈ a.ancestors x ↔ TransGen a.Up x y := by
  intro a path
  have hchain : path.IsChain a.Up := a.isChain_ancestors x
  refine ⟨hchain, ?_, length_ancestors_of_not_ends, a.mem_ancestors_iff x⟩
  intro hends
  have hnodup : path.Nodup := nodup_of_ends hchain hends
  exact ⟨hnodup, stops_of_nodup hnodup⟩

/-- A tree with a chain that ends at the root and one that runs into a cycle. -/
theorem ancestors_ofTree_cycle :
    let left : Node := .block ⟨⟨4⟩, [.reference ⟨5⟩ "x"]⟩
    let right : Node := .block ⟨⟨2⟩, [.block ⟨⟨3⟩, [.reference ⟨2⟩ "y"]⟩]⟩
    let a := ofTree (.block ⟨⟨1⟩, [left, right]⟩)
    a.ancestors ⟨5⟩ = [⟨4⟩, ⟨1⟩] ∧ a.Ends ⟨5⟩ ∧
      a.ancestors ⟨3⟩ = [⟨2⟩, ⟨3⟩, ⟨2⟩, ⟨3⟩] ∧ ¬a.Ends ⟨3⟩ ∧ TransGen a.Up ⟨3⟩ ⟨3⟩ := by
  intro left right a
  let t : Node := .block ⟨⟨1⟩, [left, right]⟩
  have h : a.Records t t.placements.tail := records_ofTree t
  have hsize : a.size = 4 := h.size.trans (by decide)
  have one : a.parent? ⟨1⟩ = none := (h.parent? ⟨1⟩).trans (by decide)
  have two : a.parent? ⟨2⟩ = some ⟨3⟩ := (h.parent? ⟨2⟩).trans (by decide)
  have three : a.parent? ⟨3⟩ = some ⟨2⟩ := (h.parent? ⟨3⟩).trans (by decide)
  have four : a.parent? ⟨4⟩ = some ⟨1⟩ := (h.parent? ⟨4⟩).trans (by decide)
  have five : a.parent? ⟨5⟩ = some ⟨4⟩ := (h.parent? ⟨5⟩).trans (by decide)
  have hfive : a.ancestors ⟨5⟩ = [⟨4⟩, ⟨1⟩] := by
    simp only [ancestors, hsize, five, four, one, chain]
  have hthree : a.ancestors ⟨3⟩ = [⟨2⟩, ⟨3⟩, ⟨2⟩, ⟨3⟩] := by
    simp only [ancestors, hsize, three, two, chain]
  obtain ⟨-, hends, -, hmem⟩ := ancestors_ofTree t ⟨3⟩
  refine ⟨hfive, ⟨⟨1⟩, .head five (.single four), one⟩, hthree, fun h => ?_, ?_⟩
  · have hnodup : (⟨3⟩ :: a.ancestors ⟨3⟩).Nodup := (hends h).1
    rw [hthree] at hnodup
    exact absurd hnodup (by decide)
  · refine (hmem ⟨3⟩).mp ?_
    show ⟨3⟩ ∈ a.ancestors ⟨3⟩
    rw [hthree]
    decide

end Ancestry
end TreeCheck
