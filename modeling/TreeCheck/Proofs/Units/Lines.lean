import TreeCheck.Log.Subscriber
import TreeCheck.Proofs.Log.Filter
import TreeCheck.Proofs.Tree.Line
import TreeCheck.Proofs.Units.Log

/-!
# The lines of a run

What a subscriber writes of a run is written down in `Units.linesAt` from the result, as the
entries are in `Units.seenAt`: a unit has a line for each of its errors, one for their number and
one if there is none, as far as the filter takes them, and its span stands on each of them if the
filter takes the span.

Names come from a source file and may hold any character.  None of them reaches a line that could
steer the terminal (`tame_lines`): what is quoted is printable, and what is not quoted is a message,
in which these characters are escaped.
-/

namespace TreeCheck

open Check
open Text (MadeOf)

namespace Log

variable {f : Filter} {inside : Option Span}

/-! ## Texts -/

theorem Span.shown_eq (s : Span) :
    s.shown = "check_unit\x7bindex=" ++ s.index.repr ++ " root=" ++ s.root.text ++ " module=" ++
      Text.quote s.module ++ "\x7d: " := by
  rw [← String.toList_inj]
  simp [shown, fields, Field.shown, Value.shown, name, NodeId.text]

theorem line_recorded (e : SemanticError) :
    line inside (.recorded e) =
      "WARN " ++ (inside.map Span.shown).getD "" ++ "analyzer::checker: " ++
        String.ofList (e.message.toList.flatMap terminalSafe) ++ " node=" ++ e.node.text := by
  rw [← String.toList_inj]
  simp [line, Event.shown, Event.level, Level.name, Event.target, checkTarget, Event.message,
    Event.fields, Field.shown, Value.shown, NodeId.text]

theorem line_finished (root : NodeId) (errors : Nat) :
    line inside (.finished root errors) =
      "DEBUG " ++ (inside.map Span.shown).getD "" ++
        "analyzer::checker: semantic check finished root=" ++ root.text ++ " errors=" ++
        errors.repr := by
  have hmessage : "semantic check finished".toList.flatMap terminalSafe =
      "semantic check finished".toList := by decide
  rw [line, Event.shown, Event.message, hmessage, String.ofList_toList, ← String.toList_inj]
  simp [Event.level, Level.name, Event.target, checkTarget, Event.fields, Field.shown, Value.shown,
    NodeId.text]

theorem line_clean :
    line inside .clean =
      "INFO " ++ (inside.map Span.shown).getD "" ++ "golo_front::analyzing: unit is clean" := by
  have hmessage : "unit is clean".toList.flatMap terminalSafe = "unit is clean".toList := by decide
  rw [line, Event.shown, Event.message, hmessage, String.ofList_toList, ← String.toList_inj]
  simp [Event.level, Level.name, Event.target, unitsTarget, Event.fields]

/-! ## Characters -/

/-- Bell, backspace, form feed, escape and delete. -/
def steeringMarks : List Char := ['\x07', '\x08', '\x0c', '\x1b', '\x7f']

/-- The character cannot steer a terminal: it is none of these marks, nor a control from U+0080 to
U+009F. -/
def isTame (c : Char) : Bool :=
  decide (c ∉ steeringMarks) && decide (¬ (0x80 ≤ c.toNat ∧ c.toNat ≤ 0x9f))

theorem isTame_of_isPrintable (c : Char) (h : Text.isPrintable c = true) : isTame c = true := by
  rw [isTame, Bool.and_eq_true, decide_eq_true_eq, decide_eq_true_eq]
  constructor
  · intro hmark
    have marks : MadeOf (fun d => !Text.isPrintable d) steeringMarks := by decide
    have hc : (!Text.isPrintable c) = true := marks c hmark
    rw [h] at hc
    cases hc
  · rintro ⟨hfrom, hto⟩
    have hrange : Text.inRanges Text.unprintableLow c = true :=
      Text.inRanges_iff.mpr ⟨(0x7f, 0xa0), List.mem_cons_self, by omega, by omega⟩
    rw [Text.isPrintable, if_neg (by omega), if_pos (by omega), hrange] at h
    cases h

theorem tame_terminalSafe (c : Char) : MadeOf isTame (terminalSafe c) := by
  unfold terminalSafe
  split
  case h_6 bell backspace formFeed escape delete =>
    split
    · exact (Text.printable_numericEscape c).imp isTame_of_isPrintable
    next hrange =>
      intro d hd
      rw [List.mem_singleton.mp hd, isTame, Bool.and_eq_true, decide_eq_true_eq, decide_eq_true_eq]
      refine ⟨fun hmark => ?_, hrange⟩
      simp only [steeringMarks, List.mem_cons, List.not_mem_nil, or_false] at hmark
      rcases hmark with h | h | h | h | h
      · exact bell h
      · exact backspace h
      · exact formFeed h
      · exact escape h
      · exact delete h
  all_goals decide

theorem tame_quote (s : String) : MadeOf isTame (Text.quote s).toList :=
  (Text.printable_quote s).imp isTame_of_isPrintable

theorem tame_repr (n : Nat) : MadeOf isTame n.repr.toList := by
  refine (digits_repr n).imp fun c hc => isTame_of_isPrintable c ?_
  simp only [Char.isDigit, Bool.and_eq_true, decide_eq_true_eq, ge_iff_le,
    UInt32.le_iff_toNat_le] at hc
  have hfrom : 48 ≤ c.toNat := hc.1
  have hto : c.toNat ≤ 57 := hc.2
  rw [Text.isPrintable_ascii (by omega), decide_eq_true_eq]
  omega

theorem tame_shown (s : Span) : MadeOf isTame s.shown.toList := by
  obtain ⟨hindex, hroot, hmodule, hend⟩ : MadeOf isTame "check_unit\x7bindex=".toList ∧
      MadeOf isTame " root=".toList ∧ MadeOf isTame " module=".toList ∧
      MadeOf isTame "\x7d: ".toList := by decide
  rw [Span.shown_eq]
  simp only [String.toList_append]
  exact ((((((hindex.append (tame_repr _)).append hroot).append (tame_repr _)).append
    hmodule).append (tame_quote _)).append hend)

theorem tame_line (e : Event) : MadeOf isTame (line inside e).toList := by
  have hinside : MadeOf isTame ((inside.map Span.shown).getD "").toList := by
    cases inside with
    | none => nofun
    | some s => exact tame_shown s
  cases e with
  | recorded error =>
    obtain ⟨hlevel, htarget, hnode⟩ : MadeOf isTame "WARN ".toList ∧
        MadeOf isTame "analyzer::checker: ".toList ∧ MadeOf isTame " node=".toList := by decide
    have hmessage : MadeOf isTame (error.message.toList.flatMap terminalSafe) := by
      intro c hc
      obtain ⟨d, _, hd⟩ := List.mem_flatMap.mp hc
      exact tame_terminalSafe d c hd
    rw [line_recorded]
    simp only [String.toList_append, String.toList_ofList]
    exact ((((hlevel.append hinside).append htarget).append hmessage).append hnode).append
      (tame_repr _)
  | finished root errors =>
    obtain ⟨hlevel, hmessage, herrors⟩ : MadeOf isTame "DEBUG ".toList ∧
        MadeOf isTame "analyzer::checker: semantic check finished root=".toList ∧
        MadeOf isTame " errors=".toList := by decide
    rw [line_finished]
    simp only [String.toList_append]
    exact ((((hlevel.append hinside).append hmessage).append (tame_repr _)).append
      herrors).append (tame_repr _)
  | clean =>
    obtain ⟨hlevel, hmessage⟩ : MadeOf isTame "INFO ".toList ∧
        MadeOf isTame "golo_front::analyzing: unit is clean".toList := by decide
    rw [line_clean]
    simp only [String.toList_append]
    exact (hlevel.append hinside).append hmessage

theorem tame_lines {es : List Entry} : ∀ l ∈ lines f inside es, MadeOf isTame l.toList := by
  induction es generalizing inside with
  | nil => nofun
  | cons entry es ih =>
    cases entry with
    | opened s => exact ih
    | entered s => exact ih
    | exited s => exact ih
    | event e =>
      intro l hl
      rw [lines] at hl
      split at hl
      · rcases List.mem_cons.mp hl with rfl | hl
        · exact tame_line e
        · exact ih l hl
      · exact ih l hl

/-! ## Spans and events -/

theorem lines_map_event_append (es : List Event) (rest : List Entry) :
    lines f inside (es.map .event ++ rest) =
      (es.filter fun e => f.takes e.target e.level).map (line inside) ++ lines f inside rest := by
  induction es with
  | nil => rfl
  | cons e es ih =>
    rw [List.map_cons, List.cons_append, lines, ih]
    by_cases htakes : f.takes e.target e.level = true
    · rw [if_pos htakes, List.filter_cons, if_pos htakes, List.map_cons, List.cons_append]
    · rw [if_neg htakes, List.filter_cons, if_neg htakes]

/-- Events of one target and level are taken together. -/
theorem filter_takes {es : List Event} {target : String} {l : Level}
    (h : ∀ e ∈ es, e.target = target ∧ e.level = l) :
    (es.filter fun e => f.takes e.target e.level) = if f.takes target l then es else [] := by
  apply filter_eq_ite
  intro e he
  rw [(h e he).1, (h e he).2]

end Log

/-! ## The lines of all units -/

namespace Units

open Log

/-- The lines of the unit at a position under a filter, if the result holds `es` for it. -/
def linesAt (f : Filter) (es : List SemanticError) (index : Nat) (u : CompilationUnit) :
    List String :=
  let module :=
    match u.module with
    | some m => m.name
    | none => "<anonymous>"
  let span :=
    if f.takes "golo_front::analyzing" .info then
      "check_unit\x7bindex=" ++ index.repr ++ " root=" ++ u.id.text ++ " module=" ++
        Text.quote module ++ "\x7d: "
    else ""
  (if f.takes "analyzer::checker" .warn then
    es.map fun e => "WARN " ++ span ++ "analyzer::checker: " ++
      String.ofList (e.message.toList.flatMap terminalSafe) ++ " node=" ++ e.node.text
  else []) ++
  (if f.takes "analyzer::checker" .debug then
    ["DEBUG " ++ span ++ "analyzer::checker: semantic check finished root=" ++ u.id.text ++
      " errors=" ++ es.length.repr]
  else []) ++
  if f.takes "golo_front::analyzing" .info ∧ es = [] then
    ["INFO " ++ span ++ "golo_front::analyzing: unit is clean"]
  else []

/-- The span that the lines of a unit show, if the filter takes it. -/
def spanTaken (f : Filter) (index : Nat) (u : CompilationUnit) : Option Span :=
  if f.takes "golo_front::analyzing" .info then some (span index u) else none

theorem shown_spanTaken (f : Filter) (index : Nat) (u : CompilationUnit) :
    ((spanTaken f index u).map Span.shown).getD "" =
      if f.takes "golo_front::analyzing" .info then
        "check_unit\x7bindex=" ++ index.repr ++ " root=" ++ u.id.text ++ " module=" ++
          Text.quote u.moduleName ++ "\x7d: "
      else "" := by
  unfold spanTaken
  split
  · exact Span.shown_eq _
  · rfl

theorem lines_examine_log (f : Filter) (o : Options) (index : Nat) (u : CompilationUnit)
    (rest : List Entry) :
    lines f none ((examine o index u).log ++ rest) =
      ((events (u.errors o) u).filter fun e => f.takes e.target e.level).map
        (line (spanTaken f index u)) ++ lines f none rest := by
  rw [examine_log, List.append_assoc, List.append_assoc]
  exact lines_map_event_append (events (u.errors o) u) ([.exited (span index u)] ++ rest)

theorem map_line_events (f : Filter) (es : List SemanticError) (index : Nat) (u : CompilationUnit) :
    ((events es u).filter fun e => f.takes e.target e.level).map (line (spanTaken f index u)) =
      linesAt f es index u := by
  have hrecorded : (es.map Event.recorded).filter (fun e => f.takes e.target e.level) =
      if f.takes "analyzer::checker" .warn then es.map .recorded else [] := by
    apply filter_takes
    intro e he
    obtain ⟨error, _, rfl⟩ := List.mem_map.mp he
    exact ⟨rfl, rfl⟩
  have hfinished : [Event.finished u.id es.length].filter (fun e => f.takes e.target e.level) =
      if f.takes "analyzer::checker" .debug then [.finished u.id es.length] else [] := by
    apply filter_takes
    intro e he
    rw [List.mem_singleton.mp he]
    exact ⟨rfl, rfl⟩
  have hclean : (if es = [] then [Event.clean] else []).filter (fun e => f.takes e.target e.level) =
      if f.takes "golo_front::analyzing" .info then if es = [] then [.clean] else [] else [] := by
    apply filter_takes
    intro e he
    split at he
    · rw [List.mem_singleton.mp he]
      exact ⟨rfl, rfl⟩
    · cases he
  rw [events, List.filter_append, List.filter_append, hrecorded, hfinished, hclean]
  simp only [List.map_append, apply_ite (List.map (line (spanTaken f index u))), List.map_map,
    List.map_cons, List.map_nil, Function.comp_def, line_recorded, line_finished, line_clean,
    shown_spanTaken, linesAt, ite_and]
  rfl

/-- What a subscriber writes of a run is told by the result. -/
theorem lines_checkUnits (f : Filter) (settings : Settings) (units : List CompilationUnit) :
    lines f none (checkUnits settings units).log = units.zipIdx.flatMap fun p =>
      linesAt f (reported (checkUnits settings units).result p.2) p.2 p.1 := by
  have hrun : ∀ ps : List (CompilationUnit × Nat),
      lines f none (ps.flatMap fun p => (examine settings.check p.2 p.1).log) =
        ps.flatMap fun p => linesAt f (p.1.errors settings.check) p.2 p.1 := by
    intro ps
    induction ps with
    | nil => rfl
    | cons p ps ih =>
      rw [List.flatMap_cons, lines_examine_log, map_line_events, ih, List.flatMap_cons]
  rw [checkUnits_log, hrun]
  apply List.flatMap_congr
  intro p hp
  rw [reported_checkUnits settings hp]

end Units

/-! ## Setting up -/

namespace Log
namespace Subscriber

theorem installTimes_of_some (environment : Option String) (settings : Settings) (n : Nat)
    (f : Filter) :
    installTimes environment settings n ⟨some f⟩ =
      (List.replicate n
        (.error (.logging "a global default trace dispatcher has already been set")),
       ⟨some f⟩) := by
  induction n with
  | zero => rfl
  | succ n ih =>
    rw [installTimes, List.replicate_succ]
    simp only [install, ih]

/-- The first attempt succeeds and decides about the filter; the others fail and change nothing. -/
theorem installTimes_absent (environment : Option String) (settings : Settings) (n : Nat) :
    installTimes environment settings (n + 1) absent =
      (.ok () :: List.replicate n
        (.error (.logging "a global default trace dispatcher has already been set")),
       ⟨some (requestedFilter environment settings)⟩) := by
  rw [installTimes]
  simp only [absent, install, installTimes_of_some]

/-- The environment decides about the filter only if all that is set there can be read. -/
theorem requestedFilter_eq (environment : Option String) (settings : Settings) :
    requestedFilter environment settings =
      match environment with
      | some s =>
        if ∀ part ∈ Filter.parts s, (Directive.ofText? part).isSome then Filter.ofText s
        else Filter.ofText settings.logFilter
      | none => Filter.ofText settings.logFilter := by
  cases environment with
  | none => rfl
  | some s =>
    rw [requestedFilter, Option.bind_some, Filter.ofText?_eq]
    show _ = if _ then _ else _
    split <;> rfl

/-- However often the log was set up before a run, what is written of the run is told by the result
and the filter of the first time. -/
theorem written_checkUnits (environment : Option String) (settings : Settings)
    (units : List CompilationUnit) (n : Nat) :
    let outcome := checkUnits settings units
    (installTimes environment settings n absent).2.written outcome.log =
      if n = 0 then [] else units.zipIdx.flatMap fun p =>
        Units.linesAt (requestedFilter environment settings) (Units.reported outcome.result p.2)
          p.2 p.1 := by
  intro outcome
  cases n with
  | zero => rfl
  | succ n =>
    rw [installTimes_absent, if_neg (Nat.succ_ne_zero n)]
    exact Units.lines_checkUnits _ settings units

end Subscriber
end Log
end TreeCheck
