import TreeCheck.Proofs.Check.Findings

/-!
# What a session remembers

A session is driven by signals that need not come from a walk: a node can be left
before it is entered, and a function can come without its declaration.  What the
session remembers is nevertheless determined by two lists, the nodes it was told of
on arrival and the nodes it was told to enter.  `Remembers` says how, field by field,
and `Remembers.receive` carries it over any signal.

The cap does not occur in it.  Recording an error touches no field that is
remembered, so the fields go on being filled after the cap is reached.
-/

namespace TreeCheck

/-- What a node does to the name that waits for a function: a declaration leaves its
own, and a function takes it. -/
def Node.handover? : Node → Option (Option String)
  | .functionDeclaration d => some (some d.name)
  | .function _ => some none
  | _ => none

/-- The name of the latest declaration, unless a function has come after it. -/
def pendingName (met : List Node) : Option String :=
  (met.filterMap Node.handover?).getLast?.join

theorem pendingName_concat (met : List Node) (n : Node) :
    pendingName (met ++ [n]) = n.handover?.getD (pendingName met) := by
  rw [pendingName, List.filterMap_append]
  cases h : n.handover? with
  | none =>
    rw [List.filterMap_cons_none h, List.filterMap_nil, List.append_nil]
    rfl
  | some name =>
    rw [List.filterMap_cons_some h, List.filterMap_nil, List.getLast?_concat]
    rfl

theorem pendingName_concat_of_none {met : List Node} {n : Node} (h : n.handover? = none) :
    pendingName (met ++ [n]) = pendingName met := by
  rw [pendingName_concat, h, Option.getD_none]

/-- The name that waits is the one that the later nodes leave, unless there are neither
declarations nor functions among them. -/
theorem pendingName_append (met ns : List Node) :
    pendingName (met ++ ns) =
      if ns.filterMap Node.handover? = [] then pendingName met else pendingName ns := by
  rw [pendingName, List.filterMap_append]
  by_cases h : ns.filterMap Node.handover? = []
  · rw [if_pos h, h, List.append_nil]
    rfl
  · rw [if_neg h, List.getLast?_append_of_ne_nil _ h]
    rfl

theorem pendingName_append_of_none {met : List Node} (h : pendingName met = none)
    (ns : List Node) : pendingName (met ++ ns) = pendingName ns := by
  rw [pendingName_append]
  split
  case isTrue hns =>
    rw [h, pendingName, hns]
    rfl
  case isFalse => rfl

namespace Check

/-! ## Maps of first occurrences -/

section MapsFirst

variable {κ : Type} [BEq κ] [Hashable κ] [DecidableEq κ] {on : Bool}
  {m : Std.HashMap κ NodeId} {key : Node → Option κ} {met : List Node} {n : Node} {k : κ}

/-- The map holds for every key the first node that has it.  A map that is off is
empty. -/
def MapsFirst (on : Bool) (m : Std.HashMap κ NodeId) (key : Node → Option κ)
    (met : List Node) : Prop :=
  ∀ k, m[k]? = if on then firstWith? key met k else none

theorem MapsFirst.skip (h : MapsFirst on m key met) (hn : on = true → key n = none) :
    MapsFirst on m key (met ++ [n]) := by
  intro k
  rw [h k]
  cases on with
  | false => rfl
  | true =>
    have hk : key n ≠ some k := by
      rw [hn rfl]
      exact nofun
    rw [if_pos rfl, if_pos rfl, firstWith?_append, firstWith?_singleton, if_neg hk, Option.or_none]

theorem MapsFirst.known {previous : NodeId} (h : MapsFirst on m key met) (hn : key n = some k)
    (hk : m[k]? = some previous) : MapsFirst on m key (met ++ [n]) := by
  intro j
  rw [h k] at hk
  rw [h j]
  cases on with
  | false => rfl
  | true =>
    rw [if_pos rfl, if_pos rfl, firstWith?_append, firstWith?_singleton, hn]
    by_cases hj : k = j
    · subst hj
      rw [if_pos rfl] at hk
      rw [hk, Option.some_or]
    · rw [if_neg (mt Option.some.inj hj), Option.or_none]

theorem MapsFirst.insert [LawfulBEq κ] (h : MapsFirst on m key met) (hon : on = true)
    (hn : key n = some k) (hk : m[k]? = none) :
    MapsFirst on (m.insert k n.id) key (met ++ [n]) := by
  intro j
  subst hon
  rw [h k, if_pos rfl] at hk
  rw [Std.HashMap.getElem?_insert, h j, if_pos rfl, if_pos rfl, firstWith?_append,
    firstWith?_singleton, hn]
  by_cases hj : k = j
  · subst hj
    rw [hk, if_pos (beq_self_eq_true k), if_pos rfl, Option.none_or]
  · rw [if_neg (mt beq_iff_eq.mp hj), if_neg (mt Option.some.inj hj), Option.or_none]

end MapsFirst

/-! ## The memory of a session -/

/-- The session was told of the nodes `arrived` on arrival and of `entered` on entry. -/
structure Remembers (o : Options) (arrived entered : List Node) (s : Session) : Prop where
  ids : ∀ x, x ∈ s.ids ↔ o.duplicateNodeIds = true ∧ x ∈ arrived.map Node.id
  imports : MapsFirst o.duplicateImports s.imports Node.importedName? entered
  functions : MapsFirst o.duplicateFunctions s.functions Node.signature? entered
  pendingName : s.pendingName = pendingName entered

namespace Remembers

variable {o : Options} {arrived entered : List Node} {s : Session}

theorem fresh (o : Options) : Remembers o [] [] .fresh where
  ids x := by simp [Session.fresh]
  imports k := by simp [Session.fresh, firstWith?]
  functions k := by simp [Session.fresh, firstWith?]
  pendingName := rfl

theorem record (h : Remembers o arrived entered s) (e : SemanticError) :
    Remembers o arrived entered (s.record o e) := by
  unfold Session.record
  split
  · exact h
  · exact ⟨h.ids, h.imports, h.functions, h.pendingName⟩

theorem recordAll (h : Remembers o arrived entered s) (es : List SemanticError) :
    Remembers o arrived entered (es.foldl (Session.record o) s) := by
  induction es generalizing s with
  | nil => exact h
  | cons e es ih => exact ih (h.record e)

theorem meetNode (h : Remembers o arrived entered s) (n : Node) :
    Remembers o (arrived ++ [n]) entered (s.meetNode o n.id) := by
  have mem : ∀ x, x ∈ (arrived ++ [n]).map Node.id ↔ n.id = x ∨ x ∈ arrived.map Node.id := by
    intro x
    rw [List.map_append, List.mem_append, List.map_singleton, List.mem_singleton, or_comm, eq_comm]
  unfold Session.meetNode
  by_cases on : o.duplicateNodeIds = true
  · rw [on, Bool.not_true, if_neg Bool.false_ne_true]
    by_cases known : n.id ∈ s.ids
    · have same : Remembers o (arrived ++ [n]) entered s := by
        refine ⟨fun x => ?_, h.imports, h.functions, h.pendingName⟩
        rw [mem, h.ids]
        constructor
        · exact fun hx => ⟨hx.1, Or.inr hx.2⟩
        · rintro ⟨_, rfl | hx⟩
          · exact (h.ids _).mp known
          · exact ⟨on, hx⟩
      rw [if_pos (Std.HashSet.contains_iff_mem.mpr known)]
      exact same.record _
    · rw [if_neg (mt Std.HashSet.contains_iff_mem.mp known)]
      refine ⟨fun x => ?_, h.imports, h.functions, h.pendingName⟩
      rw [Std.HashSet.mem_insert, beq_iff_eq, mem, h.ids]
      simp [on]
  · rw [Bool.eq_false_iff.mpr on, Bool.not_false, if_pos rfl]
    refine ⟨fun x => ?_, h.imports, h.functions, h.pendingName⟩
    rw [h.ids]
    simp [on]

theorem meetImport (h : Remembers o arrived entered s) (i : ImportDeclaration) :
    Remembers o arrived (entered ++ [.importDeclaration i]) (s.meetImport o i) := by
  have functions := h.functions.skip (n := .importDeclaration i) fun _ => rfl
  have pending : s.pendingName = TreeCheck.pendingName (entered ++ [.importDeclaration i]) := by
    rw [pendingName_concat_of_none rfl, h.pendingName]
  unfold Session.meetImport
  by_cases on : o.duplicateImports = true
  · rw [on, Bool.not_true, if_neg Bool.false_ne_true]
    cases hname : s.imports[i.name]? with
    | some previous =>
      have imports := h.imports.known (n := .importDeclaration i) rfl hname
      exact record ⟨h.ids, imports, functions, pending⟩ _
    | none =>
      have imports := h.imports.insert (n := .importDeclaration i) on rfl hname
      exact ⟨h.ids, imports, functions, pending⟩
  · have imports := h.imports.skip (n := .importDeclaration i) fun hon => absurd hon on
    rw [Bool.eq_false_iff.mpr on, Bool.not_false, if_pos rfl]
    exact ⟨h.ids, imports, functions, pending⟩

theorem meetDeclaration (h : Remembers o arrived entered s) (d : FunctionDeclaration) :
    Remembers o arrived (entered ++ [.functionDeclaration d]) (s.meetDeclaration o d) := by
  have imports := h.imports.skip (n := .functionDeclaration d) fun _ => rfl
  have pending : some d.name = TreeCheck.pendingName (entered ++ [.functionDeclaration d]) := by
    rw [pendingName_concat]
    rfl
  have left : MapsFirst o.duplicateFunctions s.functions Node.signature?
        (entered ++ [.functionDeclaration d]) →
      Remembers o arrived (entered ++ [.functionDeclaration d])
        { s with pendingName := some d.name } :=
    fun functions => ⟨h.ids, imports, functions, pending⟩
  unfold Session.meetDeclaration
  by_cases on : o.duplicateFunctions = true
  · rw [on, Bool.not_true, if_neg Bool.false_ne_true]
    cases hkey : s.functions[(d.name, d.arity)]? with
    | some previous => exact (left (h.functions.known rfl hkey)).record _
    | none =>
      have functions := h.functions.insert (n := .functionDeclaration d) on rfl hkey
      exact ⟨h.ids, imports, functions, pending⟩
  · rw [Bool.eq_false_iff.mpr on, Bool.not_false, if_pos rfl]
    exact left (h.functions.skip fun hon => absurd hon on)

theorem meetFunction (h : Remembers o arrived entered s) (f : Function) :
    Remembers o arrived (entered ++ [.function f]) (s.meetFunction o f) := by
  have imports := h.imports.skip (n := .function f) fun _ => rfl
  have functions := h.functions.skip (n := .function f) fun _ => rfl
  have pending : none = TreeCheck.pendingName (entered ++ [.function f]) := by
    rw [pendingName_concat]
    rfl
  have taken : Remembers o arrived (entered ++ [.function f]) { s with pendingName := none } :=
    ⟨h.ids, imports, functions, pending⟩
  exact taken.recordAll _

theorem skip (h : Remembers o arrived entered s) {n : Node} (himport : n.importedName? = none)
    (hsignature : n.signature? = none) (hhandover : n.handover? = none) :
    Remembers o arrived (entered ++ [n]) s := by
  refine ⟨h.ids, h.imports.skip fun _ => himport, h.functions.skip fun _ => hsignature, ?_⟩
  rw [pendingName_concat_of_none hhandover, h.pendingName]

end Remembers
end Check
end TreeCheck
