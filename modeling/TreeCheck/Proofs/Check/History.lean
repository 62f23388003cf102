import TreeCheck.Proofs.Check.Memory
import TreeCheck.Proofs.Tree.Walk

/-!
# Sessions and their histories

The history of a session is the list of all signals it has received.  What a signal
gives cause for is `Signal.findings`, which looks at the signals before it and at no
state.  `Reflects` is the invariant that ties the two: the session remembers its
history, and its errors are the findings of the history up to the cap.
-/

namespace TreeCheck

open Check

def Phase.rules : Phase → List Rule
  | .arrive => [.duplicateNodeId]
  | .enter =>
    [.duplicateImport, .duplicateFunction, .variadicWithoutParameters, .duplicateParameter]
  | .leave | .depart => []

/-- What is wrong with the node of a signal that comes after the signals `before`. -/
def Signal.findings (o : Options) (before : List Signal) (g : Signal) : List SemanticError :=
  let met := nodesAt g.phase before
  breaksOf o g.phase.rules met ((pendingName met).getD closureName) g.node

namespace Check

/-! ## The cap -/

theorem Options.cut_of_none {o : Options} (h : o.errorLimit = none) (es : List SemanticError) :
    o.cut es = es := by
  rw [Options.cut, h]

theorem Options.cut_of_some {o : Options} {limit : Nat} (h : o.errorLimit = some limit)
    (es : List SemanticError) : o.cut es = es.take limit := by
  rw [Options.cut, h]

/-- Of what comes after other errors, a cap keeps a part at the front. -/
theorem Options.cut_append (o : Options) (es fs : List SemanticError) :
    ∃ gs, o.cut (es ++ fs) = o.cut es ++ gs ∧ gs <+: fs ∧ (o.errorLimit = none → gs = fs) := by
  cases h : o.errorLimit with
  | none =>
    refine ⟨fs, ?_, List.prefix_refl fs, fun _ => rfl⟩
    rw [Options.cut_of_none h, Options.cut_of_none h]
  | some limit =>
    refine ⟨fs.take (limit - es.length), ?_, List.take_prefix _ fs, nofun⟩
    rw [Options.cut_of_some h, Options.cut_of_some h, List.take_append]

theorem Options.cut_prefix (o : Options) (es : List SemanticError) : o.cut es <+: es := by
  unfold Options.cut
  cases o.errorLimit with
  | none => exact List.prefix_refl es
  | some limit => exact List.take_prefix limit es

theorem Options.cut_map (o : Options) (g : SemanticError → SemanticError)
    (es : List SemanticError) : o.cut (es.map g) = (o.cut es).map g := by
  unfold Options.cut
  cases o.errorLimit with
  | none => rfl
  | some limit => exact List.map_take.symm

theorem Options.length_cut_le {o : Options} {limit : Nat} (h : o.errorLimit = some limit)
    (es : List SemanticError) : (o.cut es).length ≤ limit := by
  rw [Options.cut_of_some h]
  exact List.length_take_le limit es

/-- The cap in force is positive, so it never hides that there are errors. -/
theorem Options.cut_eq_nil_iff {o : Options} {es : List SemanticError} :
    o.cut es = [] ↔ es = [] := by
  cases h : o.errorLimit with
  | none => rw [Options.cut_of_none h]
  | some limit =>
    have pos := Options.errorLimit_pos h
    rw [Options.cut_of_some h, List.take_eq_nil_iff]
    constructor
    · rintro (hzero | hnil)
      · omega
      · exact hnil
    · exact Or.inr

namespace Session

variable {o : Options} {s : Session} {es : List SemanticError}

theorem errors_record (h : s.errors.toList = o.cut es) (e : SemanticError) :
    (s.record o e).errors.toList = o.cut (es ++ [e]) := by
  unfold record limitReached
  cases hlimit : o.errorLimit with
  | none =>
    rw [Options.cut_of_none hlimit] at h ⊢
    show (s.errors.push e).toList = es ++ [e]
    rw [Array.toList_push, h]
  | some limit =>
    rw [Options.cut_of_some hlimit] at h ⊢
    have hsize : s.errors.size = min limit es.length := by
      rw [← Array.length_toList, h, List.length_take]
    show (if decide (limit ≤ s.errors.size) = true then s else _).errors.toList = _
    by_cases full : limit ≤ s.errors.size
    · rw [if_pos (decide_eq_true full), h, List.take_append_of_le_length (by omega)]
    · have hshort : es.length < limit := by omega
      rw [if_neg (mt of_decide_eq_true full)]
      show (s.errors.push e).toList = _
      rw [Array.toList_push, h, List.take_of_length_le (by omega : es.length ≤ limit),
        List.take_of_length_le (by rw [List.length_append, List.length_singleton]; omega)]

theorem errors_recordAll (h : s.errors.toList = o.cut es) (fs : List SemanticError) :
    (fs.foldl (record o) s).errors.toList = o.cut (es ++ fs) := by
  induction fs generalizing s es with
  | nil => rw [List.append_nil]; exact h
  | cons f fs ih =>
    rw [List.foldl_cons, ih (errors_record h f), List.append_assoc, List.singleton_append]

theorem errors_recordPrevious (h : s.errors.toList = o.cut es) {kept : Session}
    (hkept : kept.errors = s.errors) (error : NodeId → SemanticError)
    (previous? : Option NodeId) :
    (match previous? with
      | some previous => s.record o (error previous)
      | none => kept).errors.toList = o.cut (es ++ previous?.toList.map error) := by
  cases previous? with
  | some previous => exact errors_record h (error previous)
  | none =>
    show kept.errors.toList = o.cut (es ++ [])
    rw [hkept, List.append_nil, h]

/-! ## The errors of one step -/

section Step

variable {arrived entered : List Node}

theorem errors_meetNode (h : Remembers o arrived entered s) (he : s.errors.toList = o.cut es)
    (n : Node) (name : String) :
    (s.meetNode o n.id).errors.toList =
      o.cut (es ++ breaksOf o Phase.arrive.rules arrived name n) := by
  have hbreaks : breaksOf o Phase.arrive.rules arrived name n =
      if o.duplicateNodeIds = true ∧ n.id ∈ arrived.map Node.id then [.duplicateNodeId n.id]
      else [] := by
    by_cases on : o.duplicateNodeIds = true
    · simp [breaksOf, Phase.rules, breaks, Options.isOn, on]
    · simp [breaksOf, Phase.rules, Options.isOn, on]
  rw [hbreaks]
  unfold meetNode
  by_cases on : o.duplicateNodeIds = true
  · rw [on, Bool.not_true, if_neg Bool.false_ne_true]
    by_cases known : n.id ∈ s.ids
    · rw [if_pos (Std.HashSet.contains_iff_mem.mpr known),
        if_pos ⟨rfl, ((h.ids n.id).mp known).2⟩]
      exact errors_record he _
    · have absent : n.id ∉ arrived.map Node.id := fun hmem => known ((h.ids n.id).mpr ⟨on, hmem⟩)
      rw [if_neg (mt Std.HashSet.contains_iff_mem.mp known), if_neg fun hc => absent hc.2,
        List.append_nil]
      exact he
  · rw [Bool.eq_false_iff.mpr on, Bool.not_false, if_pos rfl,
      if_neg fun hc => Bool.false_ne_true hc.1, List.append_nil]
    exact he

theorem errors_meetImport (h : Remembers o arrived entered s) (he : s.errors.toList = o.cut es)
    (i : ImportDeclaration) (name : String) :
    (s.meetImport o i).errors.toList =
      o.cut (es ++ breaksOf o Phase.enter.rules entered name (.importDeclaration i)) := by
  have hbreaks : breaksOf o Phase.enter.rules entered name (.importDeclaration i) =
      s.imports[i.name]?.toList.map (.duplicateImport i.name i.id) := by
    rw [h.imports i.name]
    by_cases on : o.duplicateImports = true
    · simp [breaksOf, Phase.rules, breaks, Options.isOn, on]
    · simp [breaksOf, Phase.rules, breaks, Options.isOn, on]
  unfold meetImport
  by_cases on : o.duplicateImports = true
  · rw [hbreaks, on, Bool.not_true, if_neg Bool.false_ne_true]
    refine errors_recordPrevious he ?_ _ _
    rfl
  · have off : s.imports[i.name]? = none := by
      rw [h.imports i.name, if_neg on]
    rw [hbreaks, off, Bool.eq_false_iff.mpr on, Bool.not_false, if_pos rfl, Option.toList_none,
      List.map_nil, List.append_nil, he]

theorem errors_meetDeclaration (h : Remembers o arrived entered s)
    (he : s.errors.toList = o.cut es) (d : FunctionDeclaration) (name : String) :
    (s.meetDeclaration o d).errors.toList =
      o.cut (es ++ breaksOf o Phase.enter.rules entered name (.functionDeclaration d)) := by
  have hbreaks : breaksOf o Phase.enter.rules entered name (.functionDeclaration d) =
      s.functions[(d.name, d.arity)]?.toList.map (.duplicateFunction d.name d.arity d.id) := by
    rw [h.functions (d.name, d.arity)]
    by_cases on : o.duplicateFunctions = true
    · simp [breaksOf, Phase.rules, breaks, Options.isOn, on]
    · simp [breaksOf, Phase.rules, breaks, Options.isOn, on]
  unfold meetDeclaration
  by_cases on : o.duplicateFunctions = true
  · rw [hbreaks, on, Bool.not_true, if_neg Bool.false_ne_true]
    refine errors_recordPrevious (s := { s with pendingName := some d.name }) he ?_ _ _
    rfl
  · have off : s.functions[(d.name, d.arity)]? = none := by
      rw [h.functions (d.name, d.arity), if_neg on]
    rw [hbreaks, off, Bool.eq_false_iff.mpr on, Bool.not_false, if_pos rfl, Option.toList_none,
      List.map_nil, List.append_nil]
    exact he

theorem breaksOf_function (name : String) (f : Function) :
    breaksOf o Phase.enter.rules entered name (.function f) = parameterErrors o name f := by
  have variadic : breaks entered name (.function f) .variadicWithoutParameters =
      if f.variadic && f.parameters.isEmpty then [.variadicWithoutParameters name f.id] else [] := by
    simp [breaks]
  have repetition : breaks entered name (.function f) .duplicateParameter =
      (repeated f.parameters).map fun p => .duplicateParameter name p f.id := by
    rw [repeated_eq, breaks]
  have others : breaks entered name (.function f) .duplicateImport = [] ∧
      breaks entered name (.function f) .duplicateFunction = [] := ⟨rfl, rfl⟩
  simp only [breaksOf, Phase.rules, List.flatMap_cons, List.flatMap_nil, others.1, others.2,
    variadic, repetition, ite_self, List.nil_append, List.append_nil, parameterErrors,
    Options.isOn]
  cases o.variadicWithoutParameters with
  | false => rfl
  | true => rfl

theorem errors_meetFunction (h : Remembers o arrived entered s) (he : s.errors.toList = o.cut es)
    (f : Function) :
    (s.meetFunction o f).errors.toList =
      o.cut (es ++ breaksOf o Phase.enter.rules entered
        ((TreeCheck.pendingName entered).getD closureName) (.function f)) := by
  rw [breaksOf_function, ← h.pendingName]
  exact errors_recordAll (s := { s with pendingName := none }) he _

end Step

end Session

/-- A session that has received these signals since it was fresh. -/
structure Reflects (o : Options) (gs : List Signal) (s : Session) : Prop where
  memory : Remembers o (nodesAt .arrive gs) (nodesAt .enter gs) s
  errors : s.errors.toList = o.cut (gather (Signal.findings o) gs)

namespace Reflects

variable {o : Options} {gs : List Signal} {s : Session}

theorem fresh (o : Options) : Reflects o [] .fresh where
  memory := .fresh o
  errors := (Options.cut_eq_nil_iff.mpr rfl).symm

theorem receive (h : Reflects o gs s) (g : Signal) : Reflects o (gs ++ [g]) (s.receive o g) := by
  obtain ⟨phase, n⟩ := g
  have hm := h.memory
  have he := h.errors
  constructor
  · rw [nodesAt_append, nodesAt_append]
    cases phase with
    | arrive =>
      show Remembers o (nodesAt .arrive gs ++ [n]) (nodesAt .enter gs ++ []) (s.meetNode o n.id)
      rw [List.append_nil]
      exact hm.meetNode n
    | enter =>
      show Remembers o (nodesAt .arrive gs ++ []) (nodesAt .enter gs ++ [n]) _
      rw [List.append_nil]
      cases n with
      | importDeclaration i => exact hm.meetImport i
      | functionDeclaration d => exact hm.meetDeclaration d
      | function f => exact hm.meetFunction f
      | _ => exact hm.skip rfl rfl rfl
    | leave | depart =>
      show Remembers o (nodesAt .arrive gs ++ []) (nodesAt .enter gs ++ []) s
      rw [List.append_nil, List.append_nil]
      exact hm
  · have nothing : Signal.findings o gs ⟨phase, n⟩ = [] →
        s.errors.toList = o.cut (gather (Signal.findings o) gs ++ Signal.findings o gs ⟨phase, n⟩) :=
      fun hnil => by rw [hnil, List.append_nil, he]
    rw [gather_concat]
    cases phase with
    | arrive => exact Session.errors_meetNode hm he n _
    | enter =>
      cases n with
      | importDeclaration i => exact Session.errors_meetImport hm he i _
      | functionDeclaration d => exact Session.errors_meetDeclaration hm he d _
      | function f => exact Session.errors_meetFunction hm he f
      | _ => exact nothing (by simp [Signal.findings, breaksOf, Phase.rules, breaks])
    | leave | depart => exact nothing rfl

theorem foldl (h : Reflects o gs s) (hs : List Signal) :
    Reflects o (gs ++ hs) (hs.foldl (Session.receive o) s) := by
  induction hs generalizing gs s with
  | nil => rw [List.append_nil]; exact h
  | cons g hs ih =>
    rw [List.foldl_cons, List.append_cons gs g hs]
    exact ih (h.receive g)

theorem follow (h : Reflects o gs s) (c : Call) : Reflects o (gs ++ c.signals) (s.follow o c) :=
  h.foldl c.signals

theorem followAll (h : Reflects o gs s) (calls : List Call) :
    Reflects o (gs ++ calls.flatMap Call.signals) (calls.foldl (Session.follow o) s) := by
  induction calls generalizing gs s with
  | nil => rw [List.flatMap_nil, List.append_nil]; exact h
  | cons c calls ih =>
    rw [List.foldl_cons, List.flatMap_cons, ← List.append_assoc]
    exact ih (h.follow c)

theorem walkAll (o : Options) (ts : List Node) :
    Reflects o (ts.flatMap Node.signals) ((ts.map Call.walk).foldl (Session.follow o) .fresh) := by
  have h := (Reflects.fresh o).followAll (ts.map Call.walk)
  rw [List.nil_append, List.flatMap_map] at h
  exact h

/-- A call adds what its signals give cause for, up to the cap. -/
theorem errors_follow (h : Reflects o gs s) (c : Call) :
    ∃ new, (s.follow o c).errors.toList = s.errors.toList ++ new ∧
      new <+: gatherFrom (Signal.findings o) gs c.signals ∧
      (o.errorLimit = none → new = gatherFrom (Signal.findings o) gs c.signals) := by
  rw [h.errors, (h.follow c).errors, gather_append]
  exact o.cut_append _ _

theorem errors_prefix_follow (h : Reflects o gs s) (c : Call) :
    s.errors.toList <+: (s.follow o c).errors.toList := by
  obtain ⟨new, hnew, -⟩ := h.errors_follow c
  exact ⟨new, hnew.symm⟩

theorem size_errors_le (h : Reflects o gs s) {limit : Nat} (hlimit : o.errorLimit = some limit) :
    s.errors.size ≤ limit := by
  rw [← Array.length_toList, h.errors]
  exact Options.length_cut_le hlimit _

end Reflects

/-- However a fresh session is called, it remembers exactly what its signals have told
it, whether or not the cap is reached; its errors only grow, and stay within the cap. -/
theorem remembers_of_calls (o : Options) (calls : List Call) :
    let gs := calls.flatMap Call.signals
    let s := calls.foldl (Session.follow o) .fresh
    Remembers o (nodesAt .arrive gs) (nodesAt .enter gs) s ∧
      (∀ c, s.errors.toList <+: (s.follow o c).errors.toList) ∧
      ∀ limit, o.errorLimit = some limit → s.errors.size ≤ limit := by
  intro gs s
  have h : Reflects o gs s := (Reflects.fresh o).followAll calls
  exact ⟨h.memory, h.errors_prefix_follow, fun _ => h.size_errors_le⟩

end Check
end TreeCheck
