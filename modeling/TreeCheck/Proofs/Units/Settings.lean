import Mathlib.Order.WithBot
import TreeCheck.Proofs.Check.Verdict
import TreeCheck.Proofs.Units.Failures

/-!
# Runs under different settings

With more rules a unit can get other errors, since those of the new rules may come first and
fill up the cap.  What does not change is that it fails: a cap in force is at least one, so a
unit fails if it breaks any of the rules that are on (`CompilationUnit.errors_eq_nil_of_fewer`).
With the same rules a run does not depend on the cap but for the length of the lists of
errors, each of which is cut from the same list.
-/

namespace TreeCheck

open Check

/-- The cap in force.  No cap is above all others. -/
def Check.Options.cap (o : Options) : WithTop Nat :=
  match o.errorLimit with
  | some limit => WithTop.some limit
  | none => ⊤

/-- The unit without the list of what is wrong with it. -/
def FailedUnit.withoutErrors (f : FailedUnit) : FailedUnit := { f with errors := [] }

def Failure.withoutErrors : Failure → Failure
  | semantic units => semantic (units.map FailedUnit.withoutErrors)
  | noInput => noInput
  | logging reason => logging reason

section Options

variable {o o' : Options}

theorem Check.Options.cut_prefix_cut (h : o.cap ≤ o'.cap) (es : List SemanticError) :
    o.cut es <+: o'.cut es := by
  unfold Options.cap at h
  cases hlimit' : o'.errorLimit with
  | none =>
    rw [Options.cut_of_none hlimit']
    exact o.cut_prefix es
  | some limit' =>
    cases hlimit : o.errorLimit with
    | none =>
      rw [hlimit, hlimit'] at h
      exact absurd h (WithTop.not_top_le_coe limit')
    | some limit =>
      rw [hlimit, hlimit'] at h
      rw [Options.cut_of_some hlimit, Options.cut_of_some hlimit']
      exact List.take_prefix_take_left (WithTop.coe_le_coe.mp h)

theorem Check.findings_congr (h : ∀ r, o.isOn r = o'.isOn r) (t : Node) :
    findings o t = findings o' t := by
  unfold findings Placement.findings breaksOf
  simp only [h]

/-- More rules do not make a unit pass. -/
theorem CompilationUnit.errors_eq_nil_of_fewer
    (h : ∀ r, o.isOn r = true → o'.isOn r = true) {u : CompilationUnit} (hu : u.errors o' = []) :
    u.errors o = [] := by
  rw [CompilationUnit.errors, errors_eq_cut, Options.cut_eq_nil_iff, findings_eq_nil_iff] at hu ⊢
  intro r hr
  exact hu r (h r hr)

theorem CompilationUnit.errors_eq_nil_iff_of_same (h : ∀ r, o.isOn r = o'.isOn r)
    (u : CompilationUnit) : u.errors o = [] ↔ u.errors o' = [] := by
  constructor
  · exact errors_eq_nil_of_fewer fun r hr => (h r).trans hr
  · exact errors_eq_nil_of_fewer fun r hr => (h r).symm.trans hr

theorem CompilationUnit.errors_prefix (h : ∀ r, o.isOn r = o'.isOn r) (hcap : o.cap ≤ o'.cap)
    (u : CompilationUnit) : u.errors o <+: u.errors o' := by
  rw [CompilationUnit.errors, CompilationUnit.errors, errors_eq_cut, errors_eq_cut,
    findings_congr h]
  exact Options.cut_prefix_cut hcap _

end Options

namespace Units

section Failures

variable {o o' : Options} {units : List CompilationUnit}

theorem exists_failure_of_more (h : ∀ r, o.isOn r = true → o'.isOn r = true) {f : FailedUnit}
    (hf : f ∈ failures o units) :
    ∃ f' ∈ failures o' units, f'.index = f.index ∧ f'.root = f.root := by
  obtain ⟨u, hu, herrors, hroot, -⟩ := ((lists_failures o units).mem_iff f).mp hf
  have herrors' : u.errors o' ≠ [] := mt (CompilationUnit.errors_eq_nil_of_fewer h) herrors
  refine ⟨⟨f.index, u.id, u.errors o'⟩, ?_, rfl, hroot.symm⟩
  exact ((lists_failures o' units).mem_iff _).mpr ⟨u, hu, herrors', rfl, rfl⟩

theorem withoutErrors_failure? (h : ∀ r, o.isOn r = o'.isOn r) (p : CompilationUnit × Nat) :
    (failure? o p).map FailedUnit.withoutErrors = (failure? o' p).map FailedUnit.withoutErrors := by
  have same := p.1.errors_eq_nil_iff_of_same h
  unfold failure?
  by_cases hclean : p.1.errors o = []
  · rw [if_pos hclean, if_pos (same.mp hclean)]
  · rw [if_neg hclean, if_neg (mt same.mpr hclean)]
    rfl

theorem map_withoutErrors_failures (h : ∀ r, o.isOn r = o'.isOn r)
    (units : List CompilationUnit) :
    (failures o units).map FailedUnit.withoutErrors =
      (failures o' units).map FailedUnit.withoutErrors := by
  rw [failures, failures, List.map_filterMap, List.map_filterMap]
  exact List.filterMap_congr fun p _ => withoutErrors_failure? h p

theorem errors_prefix_of_index_eq (h : ∀ r, o.isOn r = o'.isOn r) (hcap : o.cap ≤ o'.cap)
    {f f' : FailedUnit} (hf : f ∈ failures o units) (hf' : f' ∈ failures o' units)
    (hindex : f.index = f'.index) : f.errors <+: f'.errors := by
  obtain ⟨u, hu, -, -, herrors⟩ := ((lists_failures o units).mem_iff f).mp hf
  obtain ⟨u', hu', -, -, herrors'⟩ := ((lists_failures o' units).mem_iff f').mp hf'
  have same : u = u' := by
    rw [hindex, hu', Option.some.injEq] at hu
    exact hu.symm
  rw [herrors, herrors', ← same]
  exact u.errors_prefix h hcap

end Failures

theorem withoutErrors_checkUnits (settings : Settings) (units : List CompilationUnit) :
    (checkUnits settings units).result.mapError Failure.withoutErrors =
      let fs := (failures settings.check units).map FailedUnit.withoutErrors
      if units = [] then .error .noInput
      else if fs = [] then .ok ()
      else .error (.semantic fs) := by
  rw [checkUnits_eq]
  by_cases hunits : units = []
  · simp only [if_pos hunits]
    rfl
  · by_cases hfailures : failures settings.check units = []
    · simp only [if_neg hunits, hfailures, List.map_nil, if_true]
      rfl
    · simp only [if_neg hunits, List.map_eq_nil_iff, if_neg hfailures]
      rfl

end Units

/-- A unit that fails still fails when more rules are on, whatever the caps.  With the same
rules, runs differ in nothing but where they cut the errors of a unit. -/
theorem checkUnits_of_more_rules {s s' : Settings}
    (h : ∀ r, s.check.isOn r = true → s'.check.isOn r = true) (units : List CompilationUnit) :
    let result := (checkUnits s units).result
    let result' := (checkUnits s' units).result
    (∀ f ∈ Units.failed result,
      ∃ f' ∈ Units.failed result', f'.index = f.index ∧ f'.root = f.root) ∧
    ((∀ r, s.check.isOn r = s'.check.isOn r) →
      result.mapError Failure.withoutErrors = result'.mapError Failure.withoutErrors ∧
      (s.check.cap ≤ s'.check.cap → ∀ f ∈ Units.failed result, ∀ f' ∈ Units.failed result',
        f.index = f'.index → f.errors <+: f'.errors)) := by
  intro result result'
  have hfailed : Units.failed result = Units.failures s.check units :=
    Units.failed_checkUnits s units
  have hfailed' : Units.failed result' = Units.failures s'.check units :=
    Units.failed_checkUnits s' units
  rw [hfailed, hfailed']
  refine ⟨fun f hf => Units.exists_failure_of_more h hf, fun hsame => ⟨?_, ?_⟩⟩
  · rw [Units.withoutErrors_checkUnits, Units.withoutErrors_checkUnits,
      Units.map_withoutErrors_failures hsame]
  · intro hcap f hf f' hf' hindex
    exact Units.errors_prefix_of_index_eq hsame hcap hf hf' hindex

/-- The second unit breaks two rules at once.  A cap of zero stands for one: it cuts off the
repeated import, which is the only error where imports alone are checked, and the unit fails
all the same. -/
theorem checkUnits_of_more_rules_imports :
    let units : List CompilationUnit :=
      [⟨⟨1⟩, none, [⟨⟨2⟩, "io"⟩], []⟩, ⟨⟨1⟩, none, [⟨⟨2⟩, "io"⟩, ⟨⟨2⟩, "io"⟩], []⟩]
    let imports := Settings.standard.withCheck { Options.permissive with duplicateImports := true }
    let capped := Settings.standard.withCheck { maxErrors := some 0 }
    let result := (checkUnits imports units).result
    let result' := (checkUnits capped units).result
    let full := (checkUnits .standard units).result
    Units.failed result = [⟨1, ⟨1⟩, [.duplicateImport "io" ⟨2⟩ ⟨2⟩]⟩] ∧
      Units.failed result' = [⟨1, ⟨1⟩, [.duplicateNodeId ⟨2⟩]⟩] ∧
      Units.failed full =
        [⟨1, ⟨1⟩, [.duplicateNodeId ⟨2⟩, .duplicateImport "io" ⟨2⟩ ⟨2⟩]⟩] ∧
      (∀ f ∈ Units.failed result,
        ∃ f' ∈ Units.failed result', f'.index = f.index ∧ f'.root = f.root) ∧
      result'.mapError Failure.withoutErrors = full.mapError Failure.withoutErrors ∧
      (∀ f ∈ Units.failed result', ∀ f' ∈ Units.failed full,
        f.index = f'.index → f.errors <+: f'.errors) := by
  intro units imports capped result result' full
  have hmore : ∀ r, imports.check.isOn r = true → capped.check.isOn r = true :=
    fun r _ => Options.isOn_all r
  have hsame : ∀ r, capped.check.isOn r = Settings.standard.check.isOn r := fun r => rfl
  have hequal := (checkUnits_of_more_rules (fun r => (hsame r).symm.trans) units).2 hsame
  have hfailed (s : Settings) : Units.failed (checkUnits s units).result =
      units.zipIdx.filterMap fun p =>
        let errors := s.check.cut (findings s.check (.compilationUnit p.1))
        if errors = [] then none else some ⟨p.2, p.1.id, errors⟩ := by
    rw [Units.failed_checkUnits]
    unfold Units.failures Units.failure? CompilationUnit.errors
    simp only [errors_eq_cut]
  refine ⟨?_, ?_, ?_, (checkUnits_of_more_rules hmore units).1, hequal.1, hequal.2 le_top⟩
  · rw [hfailed]
    decide
  · rw [hfailed]
    decide
  · rw [hfailed]
    decide

end TreeCheck
