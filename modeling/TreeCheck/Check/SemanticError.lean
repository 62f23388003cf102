import TreeCheck.Check.Options
import TreeCheck.NodeId

/-!
# Semantic errors

An error names the rule that is broken by what it holds: the node, and what of
the node and of an earlier one shows the break.  Texts are in `message`, `help`
and `Rule.code`.
-/

namespace TreeCheck
namespace Check

/-- A break of one of the rules. -/
inductive SemanticError where
  /-- The function takes further arguments but has no parameter to hold them. -/
  | variadicWithoutParameters (function : String) (node : NodeId)
  /-- A parameter of the function occurs more than once. -/
  | duplicateParameter (function name : String) (node : NodeId)
  /-- A function of this name and number of parameters was declared before. -/
  | duplicateFunction (name : String) (arity : Nat) (node previous : NodeId)
  /-- This module was imported before. -/
  | duplicateImport (name : String) (node previous : NodeId)
  /-- Another node has this identifier. -/
  | duplicateNodeId (node : NodeId)
  deriving DecidableEq, Repr

/-- The code under which breaks of a rule are reported. -/
def Rule.code : Rule → String
  | .variadicWithoutParameters => "semantic::variadic_without_parameters"
  | .duplicateParameter => "semantic::duplicate_parameter"
  | .duplicateFunction => "semantic::function_defined"
  | .duplicateImport => "semantic::duplicate_import"
  | .duplicateNodeId => "semantic::duplicate_node_id"

/-- How to mend a break of the rule, where the message leaves that open. -/
def Rule.help? : Rule → Option String
  | .variadicWithoutParameters =>
    some "the variadic marker applies to the last declared parameter"
  | .duplicateNodeId =>
    some "node ids must be allocated from a single NodeIdGen per parse session"
  | .duplicateParameter | .duplicateFunction | .duplicateImport => none

namespace SemanticError

def rule : SemanticError → Rule
  | variadicWithoutParameters _ _ => .variadicWithoutParameters
  | duplicateParameter _ _ _ => .duplicateParameter
  | duplicateFunction _ _ _ _ => .duplicateFunction
  | duplicateImport _ _ _ => .duplicateImport
  | duplicateNodeId _ => .duplicateNodeId

/-- The node at which the rule is broken. -/
def node : SemanticError → NodeId
  | variadicWithoutParameters _ node => node
  | duplicateParameter _ _ node => node
  | duplicateFunction _ _ node _ => node
  | duplicateImport _ node _ => node
  | duplicateNodeId node => node

/-- The error in words.  Names stand in it as they are. -/
def message : SemanticError → String
  | variadicWithoutParameters function node =>
    "function '" ++ function ++ "' is variadic but declares no parameters (node #" ++
      node.text ++ ")"
  | duplicateParameter function name node =>
    "parameter '" ++ name ++ "' is declared more than once in function '" ++ function ++
      "' (node #" ++ node.text ++ ")"
  | duplicateFunction name arity node _ =>
    "function '" ++ name ++ "' with " ++ arity.repr ++
      " parameter(s) is already defined (node #" ++ node.text ++ ")"
  | duplicateImport name node _ =>
    "module '" ++ name ++ "' is imported more than once (node #" ++ node.text ++ ")"
  | duplicateNodeId node =>
    "node id #" ++ node.text ++ " is used by more than one node"

def code (e : SemanticError) : String := e.rule.code

def help? (e : SemanticError) : Option String := e.rule.help?

/-- An error on one line, with its help if there is one. -/
def diagnostic (e : SemanticError) : String :=
  "[" ++ e.code ++ "] " ++ e.message ++
    match e.help? with
    | some help => " (help: " ++ help ++ ")"
    | none => ""

end SemanticError
end Check
end TreeCheck
