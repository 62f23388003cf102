import Mathlib.Data.List.Induction
import TreeCheck.Log.Filter
import TreeCheck.Proofs.Text.Legible

/-!
# What a filter takes

One pass over the directives finds the one that decides about a target.  `Directive.Decides`
says which one that is without the pass: it concerns the target, none that concerns the target
has a longer one, and none behind it has one as long.  At most one directive is such
(`Directive.Decides.unique`), so the pass finds it if there is one
(`Filter.directive?_eq_some_iff`), and it finds nothing only if no directive concerns the target.

The two readers of a filter differ in nothing but what they do with a part that is no directive
(`Filter.ofText?_eq`).  Directives that are written one after another are read back
(`Filter.ofText?_written`); a target must be free of the marks that a filter is made with.
-/

namespace TreeCheck
namespace Log

open Text (MadeOf)

variable {d e : Directive} {ds : List Directive} {target : String}

namespace Directive

/-- The target starts with that of the directive. -/
def Concerns (d : Directive) (target : String) : Prop := d.target.toList <+: target.toList

theorem appliesTo_iff : d.appliesTo target = true ↔ d.Concerns target :=
  List.isPrefixOf_iff_prefix

/-- The directive decides about the target among these: the ones before it that concern the
target have no longer one, and the ones behind it a shorter one. -/
structure Decides (d : Directive) (target : String) (ds : List Directive) : Prop where
  concerns : d.Concerns target
  split : ∃ front back, ds = front ++ d :: back ∧
    (∀ e ∈ front, e.Concerns target → e.target.length ≤ d.target.length) ∧
    ∀ e ∈ back, e.Concerns target → e.target.length < d.target.length

namespace Decides

theorem mem (h : d.Decides target ds) : d ∈ ds := by
  obtain ⟨front, back, rfl, _, _⟩ := h.split
  exact List.mem_append_right front List.mem_cons_self

theorem length_le (h : d.Decides target ds) (he : e ∈ ds) (hconcerns : e.Concerns target) :
    e.target.length ≤ d.target.length := by
  obtain ⟨front, back, rfl, hfront, hback⟩ := h.split
  rcases List.mem_append.mp he with he | he
  · exact hfront e he hconcerns
  · rcases List.mem_cons.mp he with rfl | he
    · exact Nat.le_refl _
    · exact Nat.le_of_lt (hback e he hconcerns)

/-- The earlier of two that decide would have a target that is longer, and not longer, than that
of the later. -/
theorem unique (hd : d.Decides target ds) (he : e.Decides target ds) : d = e := by
  -- `between` is what stands from the earlier one on up to the later one
  have ordered : ∀ {d e : Directive} {between back back' : List Directive},
      d.Concerns target → e.Concerns target → d :: back = between ++ e :: back' →
      (∀ x ∈ back, x.Concerns target → x.target.length < d.target.length) →
      (∀ x ∈ between, x.Concerns target → x.target.length ≤ e.target.length) → d = e := by
    intro d e between back back' hd he hsplit hback hbetween
    cases between with
    | nil => exact (List.cons.inj hsplit).1
    | cons x between =>
      obtain ⟨rfl, rfl⟩ := List.cons.inj hsplit
      have hshorter := hback e (List.mem_append_right between List.mem_cons_self) he
      have hlonger := hbetween d List.mem_cons_self hd
      omega
  obtain ⟨front, back, rfl, hfront, hback⟩ := hd.split
  obtain ⟨front', back', heq, hfront', hback'⟩ := he.split
  rcases List.append_eq_append_iff.mp heq with ⟨between, rfl, hrest⟩ | ⟨between, rfl, hrest⟩
  · exact ordered hd.concerns he.concerns hrest hback fun x hx =>
      hfront' x (List.mem_append_right front hx)
  · exact (ordered he.concerns hd.concerns hrest hback' fun x hx =>
      hfront x (List.mem_append_right front' hx)).symm

theorem concat_self (hconcerns : e.Concerns target)
    (hds : ∀ b ∈ ds, b.Concerns target → b.target.length ≤ e.target.length) :
    e.Decides target (ds ++ [e]) :=
  ⟨hconcerns, ds, [], rfl, hds, nofun⟩

theorem concat (h : d.Decides target ds)
    (he : e.Concerns target → e.target.length < d.target.length) :
    d.Decides target (ds ++ [e]) := by
  obtain ⟨front, back, rfl, hfront, hback⟩ := h.split
  refine ⟨h.concerns, front, back ++ [e], by simp, hfront, ?_⟩
  intro x hx
  rcases List.mem_append.mp hx with hx | hx
  · exact hback x hx
  · rw [List.mem_singleton.mp hx]
    exact he

end Decides
end Directive

namespace Filter

theorem directive?_concat_of_concerns (hconcerns : e.Concerns target) :
    directive? ⟨ds ++ [e]⟩ target =
      match directive? ⟨ds⟩ target with
      | some b => if b.target.length ≤ e.target.length then some e else some b
      | none => some e := by
  have hfilter : [e].filter (·.appliesTo target) = [e] := by
    simp [Directive.appliesTo_iff, hconcerns]
  unfold directive?
  rw [List.filter_append, hfilter, List.foldl_append]
  rfl

theorem directive?_concat_of_not_concerns (hconcerns : ¬ e.Concerns target) :
    directive? ⟨ds ++ [e]⟩ target = directive? ⟨ds⟩ target := by
  have hfilter : [e].filter (·.appliesTo target) = [] := by
    simp [Directive.appliesTo_iff, hconcerns]
  unfold directive?
  rw [List.filter_append, hfilter, List.append_nil]

theorem not_concerns_of_directive?_eq_none (h : directive? ⟨ds⟩ target = none) :
    ∀ e ∈ ds, ¬ e.Concerns target := by
  induction ds using List.reverseRecOn with
  | nil => nofun
  | append_singleton ds e ih =>
    by_cases hconcerns : e.Concerns target
    · rw [directive?_concat_of_concerns hconcerns] at h
      split at h
      · split at h <;> cases h
      · cases h
    · rw [directive?_concat_of_not_concerns hconcerns] at h
      intro x hx
      rcases List.mem_append.mp hx with hx | hx
      · exact ih h x hx
      · rwa [List.mem_singleton.mp hx]

theorem decides_of_directive?_eq_some (h : directive? ⟨ds⟩ target = some d) :
    d.Decides target ds := by
  induction ds using List.reverseRecOn generalizing d with
  | nil => cases h
  | append_singleton ds e ih =>
    by_cases hconcerns : e.Concerns target
    · rw [directive?_concat_of_concerns hconcerns] at h
      cases hbest : directive? ⟨ds⟩ target with
      | none =>
        obtain rfl : e = d := by simpa [hbest] using h
        exact .concat_self hconcerns fun b hb hconcerns =>
          absurd hconcerns (not_concerns_of_directive?_eq_none hbest b hb)
      | some b =>
        by_cases hle : b.target.length ≤ e.target.length
        · obtain rfl : e = d := by simpa [hbest, hle] using h
          exact .concat_self hconcerns fun c hc hconcerns =>
            Nat.le_trans ((ih hbest).length_le hc hconcerns) hle
        · obtain rfl : b = d := by simpa [hbest, hle] using h
          exact (ih hbest).concat fun _ => Nat.lt_of_not_le hle
    · rw [directive?_concat_of_not_concerns hconcerns] at h
      exact (ih h).concat fun h => absurd h hconcerns

theorem directive?_eq_none_iff {f : Filter} :
    f.directive? target = none ↔ ∀ d ∈ f.directives, ¬ d.Concerns target := by
  constructor
  · exact not_concerns_of_directive?_eq_none
  · intro h
    cases hdirective : f.directive? target with
    | none => rfl
    | some d =>
      have hdecides := decides_of_directive?_eq_some hdirective
      exact absurd hdecides.concerns (h d hdecides.mem)

theorem directive?_eq_some_iff {f : Filter} :
    f.directive? target = some d ↔ d.Decides target f.directives := by
  constructor
  · exact decides_of_directive?_eq_some
  · intro h
    cases hdirective : f.directive? target with
    | none => exact absurd h.concerns (directive?_eq_none_iff.mp hdirective d h.mem)
    | some e => rw [(decides_of_directive?_eq_some hdirective).unique h]

/-! ## Levels -/

theorem takes_iff {f : Filter} {l : Level} :
    f.takes target l = true ↔
      ∃ (d : Directive) (limit : Level), d.Decides target f.directives ∧ d.limit = some limit ∧
        limit.takes l = true := by
  unfold takes
  constructor
  · intro h
    split at h
    next limit hlimit =>
      obtain ⟨d, hd, hdlimit⟩ := Option.bind_eq_some_iff.mp hlimit
      exact ⟨d, limit, directive?_eq_some_iff.mp hd, hdlimit, h⟩
    next => cases h
  · rintro ⟨d, limit, hd, hlimit, htakes⟩
    rw [directive?_eq_some_iff.mpr hd, Option.bind_some, hlimit]
    exact htakes

/-- What takes a level takes the more severe ones. -/
theorem takes_of_takes {f : Filter} {l m : Level} (h : f.takes target l = true)
    (hlm : l.takes m = true) : f.takes target m = true := by
  obtain ⟨d, limit, hd, hlimit, htakes⟩ := takes_iff.mp h
  exact takes_iff.mpr ⟨d, limit, hd, hlimit, Level.takes_trans htakes hlm⟩

/-! ## Reading -/

theorem mapM_eq_some_filterMap {α β : Type} (g : α → Option β) (xs : List α) :
    xs.mapM g = if ∀ x ∈ xs, (g x).isSome then some (xs.filterMap g) else none := by
  induction xs with
  | nil => simp
  | cons x xs ih =>
    rw [List.mapM_cons, ih]
    cases h : g x with
    | none => simp [h]
    | some y =>
      simp only [List.mem_cons, forall_eq_or_imp, h, Option.isSome_some, true_and,
        List.filterMap_cons_some h]
      split <;> rfl

/-- What can be read strictly is read alike by both. -/
theorem ofText?_eq (s : String) :
    ofText? s = if ∀ part ∈ parts s, (Directive.ofText? part).isSome then some (ofText s)
      else none := by
  unfold ofText? ofText
  rw [mapM_eq_some_filterMap]
  split <;> rfl

/-- No part of this filter is passed over: the text in front of the equals sign is a target even
where it reads like a level, and a target may stand alone. -/
example : ofText? "error=debug,golo" = some ⟨[⟨"error", some .debug⟩, ⟨"golo", some .trace⟩]⟩ := by
  decide +kernel

end Filter

/-! ## Reading what is written -/

namespace Directive

/-- The character means nothing in a filter. -/
def isPlain (c : Char) : Bool := c != ',' && c != '=' && c != '['

/-- The text can stand for a target in a filter. -/
structure IsTarget (target : String) : Prop where
  start : target.toList.head?.any mayStart = true
  plain : MadeOf isPlain target.toList

/-- A directive for the target with this limit, as it stands in a filter. -/
def written (target : String) (l : Level) : String := target ++ "=" ++ l.name

theorem toList_written (target : String) (l : Level) :
    (written target l).toList = target.toList ++ '=' :: l.name.toList := by
  simp [written]

theorem written_ne_empty (target : String) (l : Level) : written target l ≠ "" := by
  intro h
  have hchars := congrArg String.toList h
  rw [toList_written] at hchars
  simp at hchars

theorem notMem_of_plain {c : Char} {cs : List Char} (h : MadeOf isPlain cs)
    (hc : isPlain c = false) : c ∉ cs := by
  intro hmem
  rw [h c hmem] at hc
  cases hc

theorem plain_name (l : Level) : MadeOf isPlain l.name.toList := by
  cases l <;> decide

theorem notMem_written {c : Char} (h : IsTarget target) (l : Level) (hc : isPlain c = false)
    (hne : c ≠ '=') : c ∉ (written target l).toList := by
  rw [toList_written, List.mem_append, List.mem_cons]
  rintro (hmem | rfl | hmem)
  · exact notMem_of_plain h.plain hc hmem
  · exact hne rfl
  · exact notMem_of_plain (plain_name l) hc hmem

theorem ofText?_written (h : IsTarget target) (l : Level) :
    ofText? (written target l) = some ⟨target, some l⟩ := by
  have hstart : (written target l).toList.head?.any mayStart = true := by
    have hhead := h.start
    rw [toList_written]
    cases hcs : target.toList with
    | nil =>
      rw [hcs] at hhead
      cases hhead
    | cons c cs =>
      rw [hcs] at hhead
      exact hhead
  have hbracket : (written target l).toList.contains '[' = false := by
    rw [List.contains_eq_mem, decide_eq_false_iff_not]
    exact notMem_written h l (by decide) (by decide)
  have hsplit : (written target l).toList.splitOn '=' = [target.toList, l.name.toList] := by
    rw [toList_written,
      List.splitOn_append_cons_self_of_not_mem (notMem_of_plain h.plain (by decide)),
      List.splitOn_eq_singleton (notMem_of_plain (plain_name l) (by decide))]
  have hlimit : limitAfterTarget? l.name = some (some l) := by
    cases l <;> decide +kernel
  unfold ofText?
  rw [hstart, hbracket, hsplit]
  simp [hlimit]

end Directive

namespace Filter

theorem parts_intercalate {ws : List String} (hne : ws ≠ [])
    (h : ∀ w ∈ ws, w ≠ "" ∧ ',' ∉ w.toList) : parts (String.intercalate "," ws) = ws := by
  have hsplit : (String.intercalate "," ws).toList.splitOn ',' = ws.map String.toList := by
    rw [String.toList_intercalate]
    refine List.splitOn_intercalate ',' ?_ (by simpa using hne)
    intro cs hcs
    obtain ⟨w, hw, rfl⟩ := List.mem_map.mp hcs
    exact (h w hw).2
  have hwords : (ws.map String.toList).map String.ofList = ws := by
    simp [Function.comp_def]
  rw [parts, hsplit, hwords, List.filter_eq_self]
  intro w hw
  exact decide_eq_true (h w hw).1

theorem ofDirectives_of_ne_nil (h : ds ≠ []) : ofDirectives ds = ⟨ds⟩ := by
  cases ds with
  | nil => exact absurd rfl h
  | cons d ds => rfl

/-- Directives that are written one after another are read back. -/
theorem ofText?_written {ds : List (String × Level)} (hne : ds ≠ [])
    (h : ∀ d ∈ ds, Directive.IsTarget d.1) :
    ofText? (String.intercalate "," (ds.map fun d => Directive.written d.1 d.2)) =
      some ⟨ds.map fun d => ⟨d.1, some d.2⟩⟩ := by
  have hparts : parts (String.intercalate "," (ds.map fun d => Directive.written d.1 d.2)) =
      ds.map fun d => Directive.written d.1 d.2 := by
    apply parts_intercalate (by simpa using hne)
    intro w hw
    obtain ⟨d, hd, rfl⟩ := List.mem_map.mp hw
    exact ⟨Directive.written_ne_empty d.1 d.2,
      Directive.notMem_written (h d hd) d.2 (by decide) (by decide)⟩
  have hread : (ds.map fun d => Directive.written d.1 d.2).filterMap Directive.ofText? =
      ds.map fun d => ⟨d.1, some d.2⟩ := by
    rw [List.filterMap_map, ← List.filterMap_eq_map]
    apply List.filterMap_congr
    intro d hd
    exact Directive.ofText?_written (h d hd) d.2
  have hall : ∀ part ∈ ds.map fun d => Directive.written d.1 d.2,
      (Directive.ofText? part).isSome := by
    intro part hpart
    obtain ⟨d, hd, rfl⟩ := List.mem_map.mp hpart
    rw [Directive.ofText?_written (h d hd)]
    rfl
  rw [ofText?_eq, ofText, hparts, if_pos hall, hread, ofDirectives_of_ne_nil (by simpa using hne)]

end Filter
end Log
end TreeCheck
