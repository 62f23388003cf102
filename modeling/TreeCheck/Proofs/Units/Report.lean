import TreeCheck.Proofs.Check.Reference
import TreeCheck.Proofs.Text.Lines
import TreeCheck.Proofs.Tree.Line
import TreeCheck.Proofs.Units.Failures

/-!
# The report on a failure

A report is printed by a loop over the failed units around a loop over the errors of each, and
the errors of a failure are listed by joining the lists of the units.  Both come to the same
(`Failure.printOn_eq`): the report has a line for each error, in the order of the list, and the
line names the unit that holds the error.

Names stand in an error as they are.  So the text of a report is split into its lines again
only if no name holds a line feed; index and root of a line can be read in any case, since they
stand before the first name (`Diagnostic.text_inj`).
-/

namespace TreeCheck

open Check

/-! ## Lines -/

/-- The line of a diagnostic without its line feed. -/
def Diagnostic.text (d : Diagnostic) : String :=
  "in unit " ++ d.index.repr ++ " (root #" ++ d.root.text ++ "): " ++ d.error.diagnostic

theorem Diagnostic.line_eq (d : Diagnostic) : d.line = d.text ++ "\n" := rfl

theorem Diagnostic.toList_text (d : Diagnostic) :
    d.text.toList = "in unit ".toList ++ (d.index.repr.toList ++ (' ' ::
      ("(root #".toList ++ (d.root.text.toList ++ (')' ::
        (": ".toList ++ d.error.diagnostic.toList)))))) := by
  simp [text]

theorem Diagnostic.text_inj {d d' : Diagnostic} :
    d.text = d'.text ↔
      d.index = d'.index ∧ d.root = d'.root ∧ d.error.diagnostic = d'.error.diagnostic := by
  constructor
  · intro h
    -- both numbers are runs of digits, which a blank and a parenthesis end
    rw [← String.toList_inj, toList_text, toList_text, List.append_cancel_left_eq] at h
    obtain ⟨hindex, h⟩ := Text.append_inj_of_stopsAt (digits_repr _) (digits_repr _)
      (Text.stopsAt_cons (by decide) _) (Text.stopsAt_cons (by decide) _) h
    rw [List.cons.injEq, List.append_cancel_left_eq] at h
    obtain ⟨hroot, h⟩ := Text.append_inj_of_stopsAt (digits_repr _) (digits_repr _)
      (Text.stopsAt_cons (by decide) _) (Text.stopsAt_cons (by decide) _) h.2
    rw [List.cons.injEq, List.append_cancel_left_eq] at h
    exact ⟨Nat.repr_inj.mp (String.toList_inj.mp hindex),
      NodeId.text_inj (String.toList_inj.mp hroot), String.toList_inj.mp h.2⟩
  · rintro ⟨hindex, hroot, herror⟩
    rw [text, text, hindex, hroot, herror]

/-! ## Printing -/

/-- Prints a line for each error of the unit after what is already printed. -/
def FailedUnit.printOn (out : String) (u : FailedUnit) : String :=
  u.errors.foldl (fun out e => out ++ (Diagnostic.mk u.index u.root e).line) out

theorem FailedUnit.printOn_eq (u : FailedUnit) (out : String) :
    u.printOn out = out ++ Text.ofLines (u.diagnostics.map Diagnostic.text) := by
  rw [printOn, FailedUnit.diagnostics]
  induction u.errors generalizing out with
  | nil => exact (String.append_empty).symm
  | cons e es ih =>
    rw [List.foldl_cons, ih, List.map_cons, List.map_cons, Text.ofLines_cons,
      ← String.append_assoc, Diagnostic.line_eq]

namespace Failure

/-- What a report tells of the errors, one after another. -/
def diagnostics : Failure → List Diagnostic
  | semantic units => units.flatMap FailedUnit.diagnostics
  | noInput | logging _ => []

/-- The lines of a report. -/
def printed : Failure → List String
  | semantic units => (semantic units).diagnostics.map Diagnostic.text
  | f => ["Error: " ++ f.message]

/-- Prints the report after what is already printed. -/
def printOn (out : String) : Failure → String
  | semantic units => units.foldl FailedUnit.printOn out
  | f => out ++ ("Error: " ++ f.message ++ "\n")

theorem report_eq (f : Failure) : f.report = Text.ofLines f.printed := by
  cases f with
  | semantic units =>
    show String.join _ = String.join _
    rw [printed, diagnostics, List.map_map]
    rfl
  | noInput | logging => exact (Text.ofLines_singleton _).symm

theorem printOn_eq (f : Failure) (out : String) : f.printOn out = out ++ f.report := by
  cases f with
  | semantic units =>
    rw [report_eq, printed, diagnostics, printOn]
    induction units generalizing out with
    | nil => exact (String.append_empty).symm
    | cons u us ih =>
      rw [List.foldl_cons, ih, u.printOn_eq, List.flatMap_cons, List.map_append,
        Text.ofLines_append, String.append_assoc]
  | noInput => rfl
  | logging reason => rfl

theorem map_error_diagnostics (f : Failure) :
    f.diagnostics.map Diagnostic.error = f.semanticErrors := by
  cases f with
  | semantic units =>
    rw [diagnostics, semanticErrors, List.map_flatMap]
    apply List.flatMap_congr
    intro u _
    rw [FailedUnit.diagnostics, List.map_map]
    exact List.map_id _
  | noInput => rfl
  | logging reason => rfl

theorem diagnostics_eq (f : Failure) :
    f.diagnostics = (Units.failed (.error f)).flatMap FailedUnit.diagnostics := by
  cases f <;> rfl

theorem diagnostics_checkUnits {settings : Settings} {units : List CompilationUnit} {f : Failure}
    (h : (checkUnits settings units).result = .error f) :
    f.diagnostics = units.zipIdx.flatMap fun p =>
      (p.1.errors settings.check).map fun e => ⟨p.2, p.1.id, e⟩ := by
  rw [diagnostics_eq, ← h, Units.failed_checkUnits]
  exact Units.flatMap_failures FailedUnit.diagnostics fun _ _ => rfl

/-- A report tells of every error of a failure once, in the order of the units and under the
unit that holds it, and of a failure that is not about errors in one line. -/
theorem report_tells (f : Failure) :
    (∀ out, f.printOn out = out ++ f.report) ∧
    f.report = Text.ofLines f.printed ∧
    ((∀ l ∈ f.printed, '\n' ∉ l.toList) → Text.lines f.report = f.printed) ∧
    (match f with
      | semantic _ => f.printed = f.diagnostics.map Diagnostic.text
      | noInput | logging _ => f.semanticErrors = [] ∧ f.printed = ["Error: " ++ f.message]) ∧
    f.diagnostics.map Diagnostic.error = f.semanticErrors ∧
    (∀ front u back, f = semantic (front ++ u :: back) →
      f.semanticErrors =
        (semantic front).semanticErrors ++ u.errors ++ (semantic back).semanticErrors ∧
      f.diagnostics =
        (semantic front).diagnostics ++ u.errors.map (Diagnostic.mk u.index u.root) ++
          (semantic back).diagnostics) ∧
    (∀ d d' : Diagnostic, d.text = d'.text ↔
      d.index = d'.index ∧ d.root = d'.root ∧ d.error.diagnostic = d'.error.diagnostic) ∧
    ∀ settings units, (checkUnits settings units).result = .error f →
      f.diagnostics = units.zipIdx.flatMap fun p =>
        (p.1.errors settings.check).map (Diagnostic.mk p.2 p.1.id) := by
  refine ⟨f.printOn_eq, f.report_eq, ?_, ?_, f.map_error_diagnostics, ?_,
    fun d d' => Diagnostic.text_inj, fun settings units => diagnostics_checkUnits⟩
  · intro h
    rw [report_eq, Text.lines_ofLines h]
  · cases f with
    | semantic units => rfl
    | noInput => exact ⟨rfl, rfl⟩
    | logging reason => exact ⟨rfl, rfl⟩
  · rintro front u back rfl
    constructor
    · simp only [semanticErrors, List.flatMap_append, List.flatMap_cons, List.append_assoc]
    · simp only [diagnostics, List.flatMap_append, List.flatMap_cons, List.append_assoc]
      rfl

/-- Two units have the root of a third one between them that is in order.  Their errors stand
under different positions. -/
theorem report_tells_equal_roots :
    let u : CompilationUnit := ⟨⟨1⟩, none, [⟨⟨2⟩, "io"⟩, ⟨⟨3⟩, "io"⟩], []⟩
    let units : List CompilationUnit := [u, ⟨⟨1⟩, none, [⟨⟨2⟩, "io"⟩], []⟩, u]
    let e : SemanticError := .duplicateImport "io" ⟨3⟩ ⟨2⟩
    let f := semantic [⟨0, ⟨1⟩, [e]⟩, ⟨2, ⟨1⟩, [e]⟩]
    (checkUnits .standard units).result = .error f ∧
      (units.zipIdx.flatMap fun p =>
        (p.1.errors Settings.standard.check).map (Diagnostic.mk p.2 p.1.id)) =
          [⟨0, ⟨1⟩, e⟩, ⟨2, ⟨1⟩, e⟩] ∧
      (∀ l ∈ f.printed, '\n' ∉ l.toList) ∧
      Text.lines f.report =
        ["in unit 0 (root #1): [semantic::duplicate_import] " ++
          "module 'io' is imported more than once (node #3)",
         "in unit 2 (root #1): [semantic::duplicate_import] " ++
          "module 'io' is imported more than once (node #3)"] := by
  intro u units e f
  have hfailures : Units.failures Settings.standard.check units =
      [⟨0, ⟨1⟩, [e]⟩, ⟨2, ⟨1⟩, [e]⟩] := by
    unfold Units.failures Units.failure? CompilationUnit.errors
    simp only [errors_eq_cut]
    decide
  have hresult : (checkUnits .standard units).result = .error f := by
    rw [Units.checkUnits_eq, hfailures]
    rfl
  have hprinted : ∀ l ∈ f.printed, '\n' ∉ l.toList := by decide +kernel
  obtain ⟨-, -, hlines, -, -, hparts, -, hunits⟩ := report_tells f
  refine ⟨hresult, ?_, hprinted, ?_⟩
  · rw [← hunits _ _ hresult, (hparts [] _ _ rfl).2]
    rfl
  · rw [hlines hprinted]
    decide +kernel

end Failure
end TreeCheck
