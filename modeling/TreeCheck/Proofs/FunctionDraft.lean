import Mathlib.Data.List.Infix
import TreeCheck.FunctionDraft
import TreeCheck.Proofs.Equality
import TreeCheck.Proofs.Tree.Head

/-!
# The last edit of a part holds

An edit sets one part of a draft and leaves the others as they are.  So the parts can be
followed one by one: a `Part` says what a draft holds of it and which edits set it, and a
draft holds what the last of these edits has set (`Part.held_foldl`).  In which order edits
of different parts come, and in which form each is made, does not matter.

`build_after` tells what function a draft gives.  Functions can be compared in two ways, which
differ for bodies with a NaN in them, and for both it states when two sequences of calls give
equal functions.
-/

namespace TreeCheck

/-- Functions are equal as values if and only if their bodies are and they agree in the rest. -/
theorem Function.ieeeEq_iff {f g : Function} :
    (Node.function f).ieeeEq (.function g) = true ↔
      f.id = g.id ∧ f.parameters = g.parameters ∧ f.variadic = g.variadic ∧
        Option.Rel (fun b c => (Node.block b).ieeeEq (.block c) = true) f.body g.body := by
  have hroot : (Node.function f).rootEq (.function g) = true ↔
      f.id = g.id ∧ f.parameters = g.parameters ∧ f.variadic = g.variadic ∧
        f.body.map (·.id) = g.body.map (·.id) := by
    rw [Node.rootEq_iff, Node.rootAlikeBy_iff_sameHead, Node.SameHead]
  rw [Node.ieeeEq_eq, Bool.and_eq_true, hroot]
  cases hf : f.body with
  | none =>
    cases hg : g.body with
    | none => simp [Node.children, hf, hg, allPairs]
    | some c => simp
  | some b =>
    cases hg : g.body with
    | none => simp
    | some c =>
      -- equal bodies have one identifier, so the slot adds nothing to the children
      have hid : (Node.block b).ieeeEq (.block c) = true → b.id = c.id :=
        fun h => (Node.ieeeEq_iff.mp h).root.id
      simp only [Option.map_some, Option.some.injEq, Node.children, hf, hg, Option.toList_some,
        List.map_singleton, allPairs, Bool.and_true, Option.rel_some_some, and_assoc]
      constructor
      · rintro ⟨hf, hparameters, hvariadic, -, hbody⟩
        exact ⟨hf, hparameters, hvariadic, hbody⟩
      · rintro ⟨hf, hparameters, hvariadic, hbody⟩
        exact ⟨hf, hparameters, hvariadic, hid hbody, hbody⟩

namespace FunctionDraft

/-- A part of a function: what a draft holds of it, and what an edit sets it to. -/
structure Part (α : Type) where
  held : FunctionDraft → α
  set? : Edit → Option α
  held_edit : ∀ d e, held (d.edit e) = (set? e).getD (held d)

namespace Part

def parameters : Part (List String) where
  held := FunctionDraft.parameters
  set?
    | .parameters names => some names
    | .variadic _ | .body _ => none
  held_edit d e := by cases e <;> rfl

def variadic : Part Bool where
  held := FunctionDraft.variadic
  set?
    | .variadic flag => some flag
    | .parameters _ | .body _ => none
  held_edit d e := by cases e <;> rfl

/-- The body is either missing or set, and no edit takes it away. -/
def body : Part (Option Block) where
  held := FunctionDraft.body
  set?
    | .body block => some (some block)
    | .parameters _ | .variadic _ => none
  held_edit d e := by cases e <;> rfl

variable {α : Type}

/-- What the last of the edits of the part sets it to. -/
def last? (p : Part α) (es : List Edit) : Option α := (es.filterMap p.set?).getLast?

theorem last?_cons (p : Part α) (e : Edit) (es : List Edit) :
    p.last? (e :: es) = (p.last? es).or (p.set? e) := by
  rw [last?, List.filterMap_cons]
  cases he : p.set? e with
  | none => rw [Option.or_none, last?]
  | some a =>
    rw [List.getLast?_cons, last?]
    cases (es.filterMap p.set?).getLast? <;> rfl

theorem held_foldl (p : Part α) (d : FunctionDraft) (es : List Edit) :
    p.held (es.foldl edit d) = (p.last? es).getD (p.held d) := by
  induction es generalizing d with
  | nil => rfl
  | cons e es ih =>
    rw [List.foldl_cons, ih, p.held_edit, last?_cons]
    cases p.last? es <;> rfl

end Part

/-! ## Calls -/

/-- The draft that a sequence of calls leaves behind. -/
def after (d : FunctionDraft) (ss : List Setter) : FunctionDraft := ((ss.forM Setter.call).run d).2

theorem run_call (s : Setter) (d : FunctionDraft) : s.call.run d = ((), d.edit s.edit) := by
  cases s <;> rfl

theorem after_cons (d : FunctionDraft) (s : Setter) (ss : List Setter) :
    d.after (s :: ss) = (d.edit s.edit).after ss := by
  rw [after, List.forM_eq_forM, List.forM_cons, StateT.run_bind, run_call]
  rfl

theorem after_eq_foldl (d : FunctionDraft) (ss : List Setter) :
    d.after ss = (ss.map Setter.edit).foldl edit d := by
  induction ss generalizing d with
  | nil => rfl
  | cons s ss ih => rw [after_cons, ih, List.map_cons, List.foldl_cons]

theorem Part.held_after {α : Type} (p : Part α) (d : FunctionDraft) (ss : List Setter) :
    p.held (d.after ss) = (p.last? (ss.map Setter.edit)).getD (p.held d) := by
  rw [after_eq_foldl, p.held_foldl]

theorem id_after (d : FunctionDraft) (ss : List Setter) : (d.after ss).id = d.id := by
  induction ss generalizing d with
  | nil => rfl
  | cons s ss ih => rw [after_cons, ih, edit_id]

theorem build_after_eq (d : FunctionDraft) (ss : List Setter) :
    (d.after ss).build =
      ⟨d.id, (Part.parameters.last? (ss.map Setter.edit)).getD d.parameters,
        (Part.variadic.last? (ss.map Setter.edit)).getD d.variadic,
        (Part.body.last? (ss.map Setter.edit)).getD d.body⟩ := by
  rw [build, Function.mk.injEq]
  exact ⟨d.id_after ss, Part.parameters.held_after d ss, Part.variadic.held_after d ss,
    Part.body.held_after d ss⟩

/-- Every draft is a new one after some calls. -/
theorem exists_after_new (d : FunctionDraft) : ∃ ss, (new d.id).after ss = d := by
  obtain ⟨id, parameters, variadic, body⟩ := d
  refine ⟨.inPlace (.parameters parameters) :: .inPlace (.variadic variadic) ::
    body.toList.map fun b => .inPlace (.body b), ?_⟩
  cases body <;> rfl

theorem stages_map_edit (d : FunctionDraft) (ss : List Setter) :
    d.stages (ss.map Setter.edit) = ss.inits.map fun front => (d.after front).build := by
  induction ss generalizing d with
  | nil => rfl
  | cons s ss ih =>
    rw [List.map_cons, stages, ih, List.inits_cons, List.map_cons, List.map_map]
    simp only [Function.comp_def, after_cons]
    rfl

/-- A function has the identifier of its draft, and of each part what the last call for it has
set.  It does not matter what the calls before set, nor in which order the parts come. -/
theorem build_after (id : NodeId) (ss : List Setter) :
    let names (ss : List Setter) : List String :=
      (Part.parameters.last? (ss.map Setter.edit)).getD []
    let flag (ss : List Setter) : Bool := (Part.variadic.last? (ss.map Setter.edit)).getD false
    let body (ss : List Setter) : Option Block :=
      (Part.body.last? (ss.map Setter.edit)).getD none
    let built (ss : List Setter) : Function := ((new id).after ss).build
    built ss = ⟨id, names ss, flag ss, body ss⟩ ∧
      (∀ e, (Setter.inPlace e).call = (Setter.givenBack e).call) ∧
      (∀ d : FunctionDraft, ∃ ss, (new d.id).after ss = d) ∧
      (new id).stages (ss.map Setter.edit) = ss.inits.map built ∧
      (∀ ss', built ss = built ss' ↔
        names ss = names ss' ∧ flag ss = flag ss' ∧ body ss = body ss') ∧
      (∀ ss', (Node.function (built ss)).ieeeEq (.function (built ss')) = true ↔
        names ss = names ss' ∧ flag ss = flag ss' ∧
          Option.Rel (fun b c => (Node.block b).ieeeEq (.block c) = true) (body ss) (body ss')) ∧
      ∀ name, (built ss).variadicParameter? = some name ↔
        flag ss = true ∧ ∃ front, names ss = front ++ [name] := by
  intro names flag body built
  have hbuilt : ∀ ss, built ss = ⟨id, names ss, flag ss, body ss⟩ :=
    fun ss => (new id).build_after_eq ss
  refine ⟨hbuilt ss, fun e => rfl, exists_after_new, (new id).stages_map_edit ss, ?_, ?_, ?_⟩
  · intro ss'
    rw [hbuilt, hbuilt, Function.mk.injEq]
    exact and_iff_right rfl
  · intro ss'
    rw [Function.ieeeEq_iff, hbuilt, hbuilt]
    exact and_iff_right rfl
  · intro name
    rw [hbuilt, Function.variadicParameter?, ← List.getLast?_eq_some_iff]
    cases flag ss with
    | true => simp
    | false => simp

end FunctionDraft
end TreeCheck
