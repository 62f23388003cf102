import TreeCheck.Proofs.Tree.Line

/-!
# What the line of a node tells

The head of a tree is all that belongs to its root alone: the kind, the identifier, the names,
flags and values of the root, and the identifiers of its children in the slots where they stand.
`Node.SameHead` says so kind by kind and does not go through the slots, from which the line is
written.  `line_eq_iff_sameHead` says that the line of a node tells its head and nothing else.
-/

namespace TreeCheck

variable {same : Binary64 → Binary64 → Prop}

/-- The trees have one head, if doubles count as one that are related by `same`. -/
def Node.SameHead (same : Binary64 → Binary64 → Prop) : Node → Node → Prop
  | .compilationUnit u, .compilationUnit w =>
    u.id = w.id ∧ u.module.map (·.id) = w.module.map (·.id) ∧
      u.imports.map (·.id) = w.imports.map (·.id) ∧
      u.functions.map (·.id) = w.functions.map (·.id)
  | .moduleDeclaration m, .moduleDeclaration k => m.id = k.id ∧ m.name = k.name
  | .importDeclaration i, .importDeclaration j => i.id = j.id ∧ i.name = j.name
  | .functionDeclaration d, .functionDeclaration e =>
    d.id = e.id ∧ d.name = e.name ∧ d.isLocal = e.isLocal ∧ d.function.id = e.function.id
  | .function f, .function g =>
    f.id = g.id ∧ f.parameters = g.parameters ∧ f.variadic = g.variadic ∧
      f.body.map (·.id) = g.body.map (·.id)
  | .block b, .block c => b.id = c.id ∧ b.statements.map Node.id = c.statements.map Node.id
  | .returnStatement x value, .returnStatement y value' =>
    x = y ∧ value.map Node.id = value'.map Node.id
  | .letOrVar x binding name value, .letOrVar y binding' name' value' =>
    x = y ∧ binding = binding' ∧ name = name' ∧ value.id = value'.id
  | .reference x name, .reference y name' => x = y ∧ name = name'
  | .literal x value, .literal y value' => x = y ∧ value.AlikeBy same value'
  | .functionInvocation x name arguments, .functionInvocation y name' arguments' =>
    x = y ∧ name = name' ∧ arguments.map Node.id = arguments'.map Node.id
  | _, _ => False

@[simp] theorem Slot.alikeBy_mk_iff {label label' : String} {v w : SlotValue} :
    Slot.AlikeBy same ⟨label, v⟩ ⟨label', w⟩ ↔ label = label' ∧ v.AlikeBy same w :=
  ⟨fun h => ⟨h.label, h.value⟩, fun ⟨hlabel, hvalue⟩ => ⟨hlabel, hvalue⟩⟩

theorem Node.rootAlikeBy_iff {n m : Node} :
    n.RootAlikeBy same m ↔
      n.kind = m.kind ∧ n.id = m.id ∧ List.Forall₂ (Slot.AlikeBy same) n.slots m.slots :=
  ⟨fun h => ⟨h.kind, h.id, h.slots⟩, fun ⟨hkind, hid, hslots⟩ => ⟨hkind, hid, hslots⟩⟩

theorem Node.SameHead.kind {n m : Node} (h : n.SameHead same m) : n.kind = m.kind := by
  unfold SameHead at h
  split at h
  case h_12 => exact h.elim
  all_goals rfl

theorem Node.rootAlikeBy_iff_sameHead {n m : Node} :
    n.RootAlikeBy same m ↔ n.SameHead same m := by
  by_cases hkind : n.kind = m.kind
  · -- the kind fixes the labels of the slots, so that only their values are left to compare
    rw [rootAlikeBy_iff]
    cases n with
    | compilationUnit u =>
      cases m with
      | compilationUnit w => simp [SameHead, kind, id, slots, SlotValue.AlikeBy]
      | _ => cases hkind
    | moduleDeclaration d =>
      cases m with
      | moduleDeclaration e => simp [SameHead, kind, id, slots, SlotValue.AlikeBy]
      | _ => cases hkind
    | importDeclaration d =>
      cases m with
      | importDeclaration e => simp [SameHead, kind, id, slots, SlotValue.AlikeBy]
      | _ => cases hkind
    | functionDeclaration d =>
      cases m with
      | functionDeclaration e => simp [SameHead, kind, id, slots, SlotValue.AlikeBy]
      | _ => cases hkind
    | function f =>
      cases m with
      | function g => simp [SameHead, kind, id, slots, SlotValue.AlikeBy]
      | _ => cases hkind
    | block b =>
      cases m with
      | block c => simp [SameHead, kind, id, slots, SlotValue.AlikeBy]
      | _ => cases hkind
    | returnStatement x value =>
      cases m with
      | returnStatement y value' => simp [SameHead, kind, id, slots, SlotValue.AlikeBy]
      | _ => cases hkind
    | letOrVar x binding name value =>
      cases m with
      | letOrVar y binding' name' value' => simp [SameHead, kind, id, slots, SlotValue.AlikeBy]
      | _ => cases hkind
    | reference x name =>
      cases m with
      | reference y name' => simp [SameHead, kind, id, slots, SlotValue.AlikeBy]
      | _ => cases hkind
    | literal x value =>
      cases m with
      | literal y value' => simp [SameHead, kind, id, slots, SlotValue.AlikeBy]
      | _ => cases hkind
    | functionInvocation x name arguments =>
      cases m with
      | functionInvocation y name' arguments' => simp [SameHead, kind, id, slots, SlotValue.AlikeBy]
      | _ => cases hkind
  · exact ⟨fun h => absurd h.kind hkind, fun h => absurd h.kind hkind⟩

/-- Lines are equal if and only if the nodes have one head, up to doubles that are written alike.
No character in a name, in a list of parameters or in a literal makes two of these look the
same. -/
theorem Node.line_eq_iff_sameHead :
    (∀ a b : Node, a.line = b.line ↔ a.SameHead Binary64.SameText b) ∧
      (∀ s t, Text.quote s = Text.quote t ↔ s = t) ∧
      (∀ ss ts, Text.quoteList ss = Text.quoteList ts ↔ ss = ts) ∧
      ∀ v w : LiteralValue, v.text = w.text ↔ v.AlikeBy Binary64.SameText w := by
  refine ⟨fun a b => ?_, fun s t => ?_, fun ss ts => ?_, fun v w => LiteralValue.text_eq_iff⟩
  · rw [line_eq_iff, rootAlikeBy_iff_sameHead]
  · exact ⟨fun h => Text.legible_quote.same_of_eq (congrArg String.toList h), congrArg _⟩
  · exact ⟨fun h => Text.legible_quoteList.same_of_eq (congrArg String.toList h), congrArg _⟩

end TreeCheck
