import TreeCheck.Proofs.Tree.LiteralText

/-!
# The line of a node can be read back

The kind of a node fixes the labels of its slots and what each of them holds.  So a reader
who has read the kind knows what comes next on the line, and only has to see where each
value ends.  Values are legible, and what follows one is the comma before the next slot or
the closing brace.

`Node.line_append_inj` reads a line at the start of a longer text, and `Node.line_eq_iff`
compares two lines.  Whatever the names and literals hold, it stays on the one line
(`Node.inline_line`).
-/

namespace TreeCheck

open Text (Legible MadeOf StopsAt isInline isWordChar)

/-! ## Layouts -/

/-- What a slot holds. -/
inductive SlotSort where
  | name
  | names
  | flag
  | binding
  | literal
  | child
  | children
  deriving DecidableEq

def SlotValue.sort : SlotValue → SlotSort
  | .name _ => .name
  | .names _ => .names
  | .flag _ => .flag
  | .binding _ => .binding
  | .literal _ => .literal
  | .child _ => .child
  | .children _ => .children

def Slot.header (s : Slot) : String × SlotSort := (s.label, s.value.sort)

/-- The labels of the slots of a node of this kind, and what they hold. -/
def NodeKind.layout : NodeKind → List (String × SlotSort)
  | .compilationUnit => [("module", .child), ("imports", .children), ("functions", .children)]
  | .moduleDeclaration => [("name", .name)]
  | .importDeclaration => [("name", .name)]
  | .functionDeclaration => [("name", .name), ("is_local", .flag), ("function", .child)]
  | .function => [("parameters", .names), ("variadic", .flag), ("body", .child)]
  | .block => [("statements", .children)]
  | .returnStatement => [("value", .child)]
  | .letOrVar => [("binding", .binding), ("name", .name), ("value", .child)]
  | .reference => [("name", .name)]
  | .literal => [("value", .literal)]
  | .functionInvocation => [("name", .name), ("arguments", .children)]

theorem Node.map_header_slots (n : Node) : n.slots.map Slot.header = n.kind.layout := by
  cases n <;> rfl

/-! ## The values of slots -/

theorem NodeId.word_text (x : NodeId) : MadeOf isWordChar x.text.toList :=
  (digits_repr x.toNat).imp Text.isWordChar_of_isDigit

theorem NodeId.text_inj {x y : NodeId} (h : x.text = y.text) : x = y :=
  toNat_inj.mp (Nat.repr_inj.mp h)

theorem NodeId.toList_mark (x : NodeId) : x.mark.toList = '#' :: x.text.toList := by
  rw [mark, String.toList_append]
  rfl

theorem NodeId.word_mark (x : NodeId) : MadeOf isWordChar x.mark.toList := by
  have hash : MadeOf isWordChar ['#'] := by decide
  rw [toList_mark]
  exact hash.append x.word_text

theorem NodeId.mark_inj {x y : NodeId} (h : x.mark.toList = y.mark.toList) : x = y := by
  rw [toList_mark, toList_mark, List.cons.injEq] at h
  exact text_inj (String.toList_inj.mp h.2)

theorem NodeId.legible_mark : Legible (· = ·) fun x : NodeId => x.mark.toList :=
  Text.legible_of_word NodeId.word_mark fun _ _ h => mark_inj h

theorem SlotValue.legible_flag : Legible (· = ·) fun b => (SlotValue.flag b).text.toList := by
  apply Text.legible_of_word
  · decide
  · decide

theorem SlotValue.legible_binding :
    Legible (· = ·) fun b => (SlotValue.binding b).text.toList := by
  apply Text.legible_of_word
  · intro b
    cases b <;> decide
  · intro b c h
    cases b <;> cases c <;> first | rfl | cases h

theorem SlotValue.word_child (id : Option NodeId) :
    MadeOf isWordChar (SlotValue.child id).text.toList := by
  cases id with
  | none => decide
  | some x => exact x.word_mark

theorem SlotValue.legible_child : Legible (· = ·) fun id => (SlotValue.child id).text.toList := by
  apply Text.legible_of_word SlotValue.word_child
  intro id id' h
  cases id with
  | none =>
    cases id' with
    | none => rfl
    | some y =>
      rw [text, text, NodeId.toList_mark] at h
      cases h
  | some x =>
    cases id' with
    | none =>
      rw [text, text, NodeId.toList_mark] at h
      cases h
    | some y => exact congrArg some (NodeId.mark_inj h)

theorem SlotValue.toList_text_children (ids : List NodeId) :
    (SlotValue.children ids).text.toList =
      '[' :: ([',', ' '].intercalate (ids.map fun x => x.mark.toList) ++ [']']) := by
  simp [text, String.toList_intercalate, Function.comp_def]

theorem SlotValue.legible_children :
    Legible (· = ·) fun ids => (SlotValue.children ids).text.toList := by
  have marks := NodeId.legible_mark.bracketed '#' (by decide) fun x => by
    rw [NodeId.toList_mark, List.head?_cons]
  simp only [toList_text_children]
  rwa [List.forall₂_eq_eq_eq] at marks

theorem SlotValue.text_append_inj {v w : SlotValue} {r s : List Char} (hsort : v.sort = w.sort)
    (hr : StopsAt isWordChar r) (hs : StopsAt isWordChar s)
    (h : v.text.toList ++ r = w.text.toList ++ s) :
    v.AlikeBy Binary64.SameText w ∧ r = s := by
  cases v with
  | name x =>
    cases w with
    | name y =>
      obtain ⟨hxy, hrs⟩ := Text.legible_quote hr hs h
      exact ⟨congrArg name hxy, hrs⟩
    | _ => cases hsort
  | names xs =>
    cases w with
    | names ys =>
      obtain ⟨hxy, hrs⟩ := Text.legible_quoteList hr hs h
      exact ⟨congrArg names hxy, hrs⟩
    | _ => cases hsort
  | flag b =>
    cases w with
    | flag c =>
      obtain ⟨hbc, hrs⟩ := legible_flag hr hs h
      exact ⟨congrArg flag hbc, hrs⟩
    | _ => cases hsort
  | binding b =>
    cases w with
    | binding c =>
      obtain ⟨hbc, hrs⟩ := legible_binding hr hs h
      exact ⟨congrArg binding hbc, hrs⟩
    | _ => cases hsort
  | literal v =>
    cases w with
    | literal w => exact LiteralValue.legible_text hr hs h
    | _ => cases hsort
  | child id =>
    cases w with
    | child id' =>
      obtain ⟨hid, hrs⟩ := legible_child hr hs h
      exact ⟨congrArg child hid, hrs⟩
    | _ => cases hsort
  | children ids =>
    cases w with
    | children ids' =>
      obtain ⟨hids, hrs⟩ := legible_children hr hs h
      exact ⟨congrArg children hids, hrs⟩
    | _ => cases hsort

/-! ## Slots -/

theorem Slot.toList_text (s : Slot) :
    s.text.toList = ',' :: ' ' :: (s.label.toList ++ '=' :: s.value.text.toList) := by
  simp [text]

/-- The slots of a node as they stand on its line. -/
def slotsText (ss : List Slot) : List Char := ss.flatMap fun s => s.text.toList

theorem slotsText_cons_append (s : Slot) (ss : List Slot) (r : List Char) :
    slotsText (s :: ss) ++ r =
      ',' :: ' ' :: (s.label.toList ++ '=' :: (s.value.text.toList ++ (slotsText ss ++ r))) := by
  rw [slotsText, List.flatMap_cons, Slot.toList_text]
  simp [slotsText]

theorem stopsAt_slotsText (ss : List Slot) (r : List Char) :
    StopsAt isWordChar (slotsText ss ++ '}' :: r) := by
  cases ss with
  | nil => exact Text.stopsAt_cons (by decide) r
  | cons s ss =>
    rw [slotsText_cons_append]
    exact Text.stopsAt_cons (by decide) _

theorem slotsText_append_inj {ss ts : List Slot} {r u : List Char}
    (hheader : ss.map Slot.header = ts.map Slot.header)
    (h : slotsText ss ++ '}' :: r = slotsText ts ++ '}' :: u) :
    List.Forall₂ (Slot.AlikeBy Binary64.SameText) ss ts ∧ r = u := by
  -- equal headers leave no case where one list of slots has ended and the other has not
  induction ss generalizing ts with
  | nil =>
    cases ts with
    | nil => exact ⟨.nil, (List.cons.inj h).2⟩
    | cons t ts => cases hheader
  | cons s ss ih =>
    cases ts with
    | nil => cases hheader
    | cons t ts =>
      rw [List.map_cons, List.map_cons, List.cons.injEq] at hheader
      obtain ⟨hst, hrest⟩ := hheader
      have hlabel : s.label = t.label := congrArg Prod.fst hst
      have hsort : s.value.sort = t.value.sort := congrArg Prod.snd hst
      rw [slotsText_cons_append, slotsText_cons_append, hlabel, List.cons.injEq, List.cons.injEq,
        List.append_cancel_left_eq, List.cons.injEq] at h
      obtain ⟨hvalue, htail⟩ := SlotValue.text_append_inj hsort (stopsAt_slotsText ss r)
        (stopsAt_slotsText ts u) h.2.2.2
      obtain ⟨hslots, hru⟩ := ih hrest htail
      exact ⟨.cons ⟨hlabel, hvalue⟩ hslots, hru⟩

/-! ## Lines -/

theorem NodeKind.word_name (k : NodeKind) : MadeOf isWordChar k.name.toList := by
  cases k <;> decide

theorem NodeKind.name_inj {k l : NodeKind} (h : k.name = l.name) : k = l := by
  have different : ∀ k ∈ all, ∀ l ∈ all, k.name = l.name → k = l := by decide
  exact different k k.mem_all l l.mem_all h

theorem Node.toList_line_append (n : Node) (r : List Char) :
    n.line.toList ++ r =
      n.kind.name.toList ++ '{' :: 'i' :: 'd' :: '=' ::
        (n.id.text.toList ++ (slotsText n.slots ++ '}' :: r)) := by
  simp [line, slotsText, String.toList_join, List.flatMap_map]

theorem Node.line_append_inj {n m : Node} {r s : List Char}
    (h : n.line.toList ++ r = m.line.toList ++ s) :
    n.RootAlikeBy Binary64.SameText m ∧ r = s := by
  rw [toList_line_append, toList_line_append] at h
  obtain ⟨hname, hline⟩ := Text.append_inj_of_stopsAt n.kind.word_name
    m.kind.word_name (Text.stopsAt_cons (by decide) _) (Text.stopsAt_cons (by decide) _) h
  simp only [List.cons.injEq, true_and] at hline
  obtain ⟨hid, hslots⟩ := Text.append_inj_of_stopsAt n.id.word_text m.id.word_text
    (stopsAt_slotsText n.slots r) (stopsAt_slotsText m.slots s) hline
  have hkind : n.kind = m.kind := NodeKind.name_inj (String.toList_inj.mp hname)
  have hheader : n.slots.map Slot.header = m.slots.map Slot.header := by
    rw [n.map_header_slots, m.map_header_slots, hkind]
  obtain ⟨hslots, hrs⟩ := slotsText_append_inj hheader hslots
  exact ⟨⟨hkind, NodeId.text_inj (String.toList_inj.mp hid), hslots⟩, hrs⟩

theorem Slot.AlikeBy.text_eq {s t : Slot} (h : s.AlikeBy Binary64.SameText t) :
    s.text = t.text := by
  have hvalue : s.value.text = t.value.text := by
    obtain ⟨-, h⟩ := h
    generalize s.value = v at h
    generalize t.value = w at h
    cases v with
    | literal v =>
      cases w with
      | literal w => exact LiteralValue.text_eq_iff.mpr h
      | _ => cases h
    | _ => rw [show _ = w from h]
  rw [text, text, h.label, hvalue]

theorem Node.line_eq_iff {n m : Node} : n.line = m.line ↔ n.RootAlikeBy Binary64.SameText m := by
  constructor
  · intro h
    have h' : n.line.toList ++ [] = m.line.toList ++ [] := by rw [h]
    exact (line_append_inj h').1
  · intro h
    have hslots : n.slots.map Slot.text = m.slots.map Slot.text := by
      rw [← List.forall₂_eq_eq_eq]
      apply List.rel_map (fun s t hst => ?_) h.slots
      exact hst.text_eq
    rw [line, line, h.kind, h.id, hslots]

/-! ## One line -/

theorem SlotValue.inline_text (v : SlotValue) : MadeOf isInline v.text.toList := by
  cases v with
  | name s => exact Text.inline_quote s
  | names ss => exact Text.inline_quoteList ss
  | flag b => cases b <;> decide
  | binding b => cases b <;> decide
  | literal v => exact v.inline_text
  | child id => exact (word_child id).imp Text.isInline_of_isWordChar
  | children ids =>
    rw [toList_text_children]
    apply Text.inline_bracketed
    intro cs hcs
    obtain ⟨x, _, rfl⟩ := List.mem_map.mp hcs
    exact x.word_mark.imp Text.isInline_of_isWordChar

theorem Node.inline_label {n : Node} {s : Slot} (h : s ∈ n.slots) :
    MadeOf isInline s.label.toList := by
  have labels : ∀ k ∈ NodeKind.all, ∀ l ∈ k.layout, MadeOf isInline l.1.toList := by decide
  apply labels n.kind n.kind.mem_all s.header
  rw [← n.map_header_slots]
  exact List.mem_map_of_mem h

theorem Node.inline_slotsText (n : Node) : MadeOf isInline (slotsText n.slots) := by
  intro c hc
  obtain ⟨s, hs, hmem⟩ := List.mem_flatMap.mp hc
  have comma : MadeOf isInline [',', ' '] := by decide
  have equals : MadeOf isInline ['='] := by decide
  have text := comma.append ((Node.inline_label hs).append (equals.append s.value.inline_text))
  rw [Slot.toList_text] at hmem
  exact text c hmem

theorem Node.inline_line (n : Node) : MadeOf isInline n.line.toList := by
  have name := n.kind.word_name.imp Text.isInline_of_isWordChar
  have opening : MadeOf isInline ['{', 'i', 'd', '='] := by decide
  have id := n.id.word_text.imp Text.isInline_of_isWordChar
  have closing : MadeOf isInline ['}'] := by decide
  rw [← List.append_nil n.line.toList, toList_line_append]
  exact name.append (opening.append (id.append (n.inline_slotsText.append closing)))

end TreeCheck
