import Mathlib.Data.List.Basic
import Mathlib.Data.List.Pairwise
import TreeCheck.Units

/-!
# The failed units of a run

`CompilationUnit.errors` is what a check of one unit alone finds.  A run lists these,
unit by unit: `Units.failure?` says what it lists of the unit at a position, and
`Units.failed_checkUnits` that nothing else goes into the result.  So no unit learns of
another, and the entries of a longer run are those of its parts with the positions
moved (`Units.failures_append`).
-/

namespace TreeCheck

open Check

def CompilationUnit.errors (o : Options) (u : CompilationUnit) : List SemanticError :=
  Check.errors o (.compilationUnit u)

def FailedUnit.moveBy (n : Nat) (f : FailedUnit) : FailedUnit := { f with index := f.index + n }

namespace Units

/-- The entries of a result; a run that did not find errors has none. -/
def failed : Except Failure Unit → List FailedUnit
  | .error (.semantic fs) => fs
  | .error .noInput | .error (.logging _) | .ok () => []

/-- The list has one entry for each unit with errors, in the order of the units, and no
other. -/
structure Lists (o : Options) (units : List CompilationUnit) (fs : List FailedUnit) : Prop where
  ascending : (fs.map FailedUnit.index).Pairwise (· < ·)
  mem_iff : ∀ f, f ∈ fs ↔
    ∃ u, units[f.index]? = some u ∧ u.errors o ≠ [] ∧ f.root = u.id ∧ f.errors = u.errors o

/-- The entry of a unit at its position. -/
def failure? (o : Options) (p : CompilationUnit × Nat) : Option FailedUnit :=
  if p.1.errors o = [] then none else some ⟨p.2, p.1.id, p.1.errors o⟩

def failures (o : Options) (units : List CompilationUnit) : List FailedUnit :=
  units.zipIdx.filterMap (failure? o)

section Failure

variable {o : Options} {units : List CompilationUnit}

theorem failure?_eq_some {p : CompilationUnit × Nat} {f : FailedUnit} :
    failure? o p = some f ↔
      f.index = p.2 ∧ p.1.errors o ≠ [] ∧ f.root = p.1.id ∧ f.errors = p.1.errors o := by
  obtain ⟨index, root, errors⟩ := f
  unfold failure?
  by_cases h : p.1.errors o = []
  · simp [h]
  · simp [h, eq_comm]

theorem failure?_eq_none {p : CompilationUnit × Nat} : failure? o p = none ↔ p.1.errors o = [] := by
  simp [failure?]

theorem pairwise_zipIdx (units : List CompilationUnit) (start : Nat) :
    (units.zipIdx start).Pairwise fun p q => p.2 < q.2 := by
  have h := List.pairwise_lt_range' (s := start) (n := units.length)
  rw [← List.zipIdx_map_snd start units, List.pairwise_map] at h
  exact h

theorem lists_failures (o : Options) (units : List CompilationUnit) :
    Lists o units (failures o units) := by
  unfold failures
  constructor
  · rw [List.pairwise_map, List.pairwise_filterMap]
    refine (pairwise_zipIdx units 0).imp ?_
    intro p q hpq f hf g hg
    rw [(failure?_eq_some.mp hf).1, (failure?_eq_some.mp hg).1]
    exact hpq
  · intro f
    rw [List.mem_filterMap]
    constructor
    · rintro ⟨⟨u, i⟩, hp, hf⟩
      obtain ⟨hindex, herrors⟩ := failure?_eq_some.mp hf
      rw [List.mem_zipIdx_iff_getElem?] at hp
      exact ⟨u, by rw [hindex]; exact hp, herrors⟩
    · rintro ⟨u, hu, herrors⟩
      refine ⟨(u, f.index), ?_, failure?_eq_some.mpr ⟨rfl, herrors⟩⟩
      rw [List.mem_zipIdx_iff_getElem?]
      exact hu

/-- What is put together from the entries can be put together from the units, if an entry
without errors would add nothing. -/
theorem flatMap_failures {β : Type} (g : FailedUnit → List β)
    (h : ∀ index root, g ⟨index, root, []⟩ = []) :
    (failures o units).flatMap g =
      units.zipIdx.flatMap fun p => g ⟨p.2, p.1.id, p.1.errors o⟩ := by
  rw [failures, List.filterMap_eq_flatMap_toList, List.flatMap_assoc]
  apply List.flatMap_congr
  intro p _
  unfold failure?
  by_cases hclean : p.1.errors o = []
  · rw [if_pos hclean, hclean, h]
    rfl
  · rw [if_neg hclean]
    exact List.flatMap_singleton _ _

theorem failures_eq_nil_iff :
    failures o units = [] ↔ ∀ u ∈ units, u.errors o = [] := by
  rw [failures, List.filterMap_eq_nil_iff]
  constructor
  · intro h u hu
    obtain ⟨i, hi⟩ := List.mem_iff_getElem?.mp hu
    have hp : (u, i) ∈ units.zipIdx := List.mem_zipIdx_iff_getElem?.mpr hi
    exact failure?_eq_none.mp (h (u, i) hp)
  · rintro h ⟨u, i⟩ hp
    have hu : u ∈ units := List.mem_of_getElem? (List.mem_zipIdx_iff_getElem?.mp hp)
    exact failure?_eq_none.mpr (h u hu)

theorem failure?_moveBy (n : Nat) (u : CompilationUnit) (i : Nat) :
    failure? o (u, n + i) = (failure? o (u, i)).map (FailedUnit.moveBy n) := by
  unfold failure?
  by_cases h : u.errors o = []
  · simp [h]
  · simp [h, FailedUnit.moveBy, Nat.add_comm]

theorem failures_append (more : List CompilationUnit) :
    failures o (units ++ more) =
      failures o units ++ (failures o more).map (FailedUnit.moveBy units.length) := by
  rw [failures, failures, failures, List.zipIdx_append, List.filterMap_append, Nat.zero_add,
    List.zipIdx_eq_map_add (l := more) (i := units.length), List.filterMap_map, List.map_filterMap]
  congr 2
  funext ⟨u, i⟩
  exact failure?_moveBy units.length u i

end Failure

/-! ## The loop over the units -/

theorem examine_result (o : Options) (index : Nat) (u : CompilationUnit) :
    (examine o index u).result = failure? o (u, index) := by
  show (if (u.errors o).isEmpty then none else _) = _
  simp only [failure?, List.isEmpty_iff]
  rfl

theorem examineFrom_result (o : Options) (start : Nat) (us : List CompilationUnit) :
    (examineFrom o start us).result = (us.zipIdx start).filterMap (failure? o) := by
  induction us generalizing start with
  | nil => rfl
  | cons u us ih =>
    have hstep : (examineFrom o start (u :: us)).result =
        (examine o start u).result.toList ++ (examineFrom o (start + 1) us).result := rfl
    rw [hstep, ih, examine_result, List.zipIdx_cons, List.filterMap_cons]
    cases failure? o (u, start) with
    | none => rfl
    | some f => rfl

theorem checkUnits_eq (settings : Settings) (units : List CompilationUnit) :
    (checkUnits settings units).result =
      if units = [] then .error .noInput
      else if failures settings.check units = [] then .ok ()
      else .error (.semantic (failures settings.check units)) := by
  cases units with
  | nil => rfl
  | cons u us =>
    rw [if_neg (List.cons_ne_nil u us), failures, ← examineFrom_result]
    simp only [checkUnits, List.isEmpty_iff]

theorem failed_checkUnits (settings : Settings) (units : List CompilationUnit) :
    failed (checkUnits settings units).result = failures settings.check units := by
  rw [checkUnits_eq]
  by_cases hunits : units = []
  · rw [if_pos hunits, hunits]
    rfl
  · by_cases hfailures : failures settings.check units = []
    · rw [if_neg hunits, if_pos hfailures, hfailures]
      rfl
    · rw [if_neg hunits, if_neg hfailures]
      rfl

theorem checkUnits_eq_noInput_iff (settings : Settings) (units : List CompilationUnit) :
    (checkUnits settings units).result = .error .noInput ↔ units = [] := by
  rw [checkUnits_eq]
  by_cases hunits : units = []
  · simp [hunits]
  · by_cases hfailures : failures settings.check units = []
    · simp [hunits, hfailures]
    · simp [hunits, hfailures]

theorem checkUnits_eq_ok_iff (settings : Settings) (units : List CompilationUnit) :
    (checkUnits settings units).result = .ok () ↔
      units ≠ [] ∧ failures settings.check units = [] := by
  rw [checkUnits_eq]
  by_cases hunits : units = []
  · simp [hunits]
  · by_cases hfailures : failures settings.check units = []
    · simp [hunits, hfailures]
    · simp [hunits, hfailures]

theorem checkUnits_eq_semantic_iff (settings : Settings) (units : List CompilationUnit) :
    (checkUnits settings units).result = .error (.semantic (failures settings.check units)) ↔
      failures settings.check units ≠ [] := by
  rw [checkUnits_eq]
  by_cases hunits : units = []
  · simp [hunits, failures]
  · by_cases hfailures : failures settings.check units = []
    · simp [hunits, hfailures]
    · simp [hunits, hfailures]

end Units

/-- A run tells whether there was anything to check, whether all was well, and which
units have which errors.  It treats every unit as a run of this unit alone would. -/
theorem checkUnits_result (settings : Settings) (units : List CompilationUnit) :
    let result := (checkUnits settings units).result
    (result = .error .noInput ↔ units = []) ∧
    (result = .ok () ↔ units ≠ [] ∧ ∀ u ∈ units, u.errors settings.check = []) ∧
    (∃ fs, Units.Lists settings.check units fs ∧
      (result = .error (.semantic fs) ↔ ∃ u ∈ units, u.errors settings.check ≠ [])) ∧
    (∀ more, Units.failed (checkUnits settings (units ++ more)).result =
      Units.failed result ++
        (Units.failed (checkUnits settings more).result).map (FailedUnit.moveBy units.length)) ∧
    ∀ u, checkUnit settings u = checkUnits settings [u] := by
  intro result
  have hclean : Units.failures settings.check units = [] ↔
      ∀ u ∈ units, u.errors settings.check = [] :=
    Units.failures_eq_nil_iff
  have hfailing : (∃ u ∈ units, u.errors settings.check ≠ []) ↔
      Units.failures settings.check units ≠ [] := by
    rw [Ne, hclean]
    simp
  refine ⟨?_, ?_, ⟨_, Units.lists_failures settings.check units, ?_⟩, ?_, fun u => rfl⟩
  · exact Units.checkUnits_eq_noInput_iff settings units
  · rw [← hclean]
    exact Units.checkUnits_eq_ok_iff settings units
  · rw [hfailing]
    exact Units.checkUnits_eq_semantic_iff settings units
  · intro more
    rw [Units.failed_checkUnits, Units.failed_checkUnits, Units.failed_checkUnits,
      Units.failures_append]

end TreeCheck
