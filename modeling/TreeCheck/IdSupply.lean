import TreeCheck.NodeId

/-!
# Handing out identifiers

A supply hands out consecutive identifiers, each once.  The greatest 32-bit
number is handed out too; after it the supply is exhausted and stays so.
-/

namespace TreeCheck

/-- A supply is the identifier to hand out next, absent once all are used. -/
structure IdSupply where
  next : Option NodeId
  deriving DecidableEq, Repr

namespace IdSupply

/-- The reason for which a supply refuses a request. -/
inductive Refusal where
  | exhausted
  deriving DecidableEq, Repr

def Refusal.message : Refusal → String
  | .exhausted => "node id space exhausted"

def startingAt (first : NodeId) : IdSupply := ⟨some first⟩

/-- A new supply starts at zero. -/
def fresh : IdSupply := startingAt ⟨0⟩

/-- The identifier the next request yields. -/
def peek (s : IdSupply) : Option NodeId := s.next

/-- Hands out the next identifier.  A refusal leaves the supply as it is. -/
def take (s : IdSupply) : Except Refusal NodeId × IdSupply :=
  match s.next with
  | some x => (.ok x, ⟨x.succ?⟩)
  | none => (.error .exhausted, s)

/-- What a caller can ask of a supply. -/
inductive Request where
  | take
  | peek
  deriving DecidableEq, Repr

/-- The outcome of one request: what a `take` yielded, and what a look at the
supply shows afterwards. -/
structure Reply where
  taken : Option (Except Refusal NodeId)
  peeked : Option NodeId

def serve (s : IdSupply) : Request → Reply × IdSupply
  | .take => (⟨some s.take.1, s.take.2.peek⟩, s.take.2)
  | .peek => (⟨none, s.peek⟩, s)

/-- The replies to a sequence of requests, which goes on after a refusal. -/
def serveAll : IdSupply → List Request → List Reply
  | _, [] => []
  | s, r :: rs => (s.serve r).1 :: serveAll (s.serve r).2 rs

theorem take_some (x : NodeId) : (IdSupply.mk (some x)).take = (.ok x, ⟨x.succ?⟩) := rfl

theorem take_none : (IdSupply.mk none).take = (.error .exhausted, ⟨none⟩) := rfl

end IdSupply
end TreeCheck
