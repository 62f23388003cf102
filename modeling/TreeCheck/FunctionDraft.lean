import TreeCheck.Tree.Basic

/-!
# Drafts of functions

A parser meets the parts of a function one after another, in any order.  A draft
takes them as edits; of two edits of one part the later one holds.  An edit is made
in a draft that stays where it is, or in one that is given away for it and got back.
-/

namespace TreeCheck

/-- A function whose parts can still be set.  Its identifier is fixed. -/
structure FunctionDraft where
  id : NodeId
  parameters : List String
  variadic : Bool
  body : Option Block

namespace FunctionDraft

/-- Nothing is set at first: no parameters, not variadic, no body. -/
def new (id : NodeId) : FunctionDraft := ⟨id, [], false, none⟩

/-- A part of a function to set. -/
inductive Edit where
  | parameters (names : List String)
  | variadic (flag : Bool)
  | body (block : Block)

def edit (d : FunctionDraft) : Edit → FunctionDraft
  | .parameters names => { d with parameters := names }
  | .variadic flag => { d with variadic := flag }
  | .body block => { d with body := some block }

def build (d : FunctionDraft) : Function := ⟨d.id, d.parameters, d.variadic, d.body⟩

/-- The functions that a draft gives before the first edit and after each. -/
def stages : FunctionDraft → List Edit → List Function
  | d, [] => [d.build]
  | d, e :: es => d.build :: stages (d.edit e) es

/-! ## Setters -/

/-- Makes an edit in a draft that stays where it is. -/
def put (e : Edit) : StateM FunctionDraft Unit := modify fun d => d.edit e

/-- Takes a draft and gives it back with an edit made in it. -/
def giveBack (d : FunctionDraft) (e : Edit) : FunctionDraft := ((put e).run d).2

/-- A call that makes an edit, in either of the two forms. -/
inductive Setter where
  | inPlace (e : Edit)
  | givenBack (e : Edit)

namespace Setter

def edit : Setter → Edit
  | inPlace e | givenBack e => e

/-- The effect of a call on the draft that the caller holds. -/
def call : Setter → StateM FunctionDraft Unit
  | inPlace e => put e
  | givenBack e => modify fun d => d.giveBack e

end Setter

@[simp] theorem build_id (d : FunctionDraft) : d.build.id = d.id := rfl

/-- No edit changes the identifier. -/
theorem edit_id (d : FunctionDraft) (e : Edit) : (d.edit e).id = d.id := by
  cases e <;> rfl

end FunctionDraft
end TreeCheck
