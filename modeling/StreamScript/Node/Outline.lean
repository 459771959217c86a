import StreamScript.Node

/-! # Outlines

The outline of a program lists every node, a node before its children, with its depth and the
place where it hangs.  An empty slot has a row too; a body has none of its own. -/

namespace StreamScript

/-- Where a node hangs on its parent. -/
inductive Place where
  /-- Among the statements of the program. -/
  | statement
  /-- Among the statements of a body. -/
  | body
  | init
  | condition
  | increment
  | operand
  | value
  | left
  | right
deriving DecidableEq, Repr

/-- The name of the place. -/
def Place.name : Place → String
  | statement => "statement"
  | body => "body"
  | init => "init"
  | condition => "condition"
  | increment => "increment"
  | operand => "operand"
  | value => "value"
  | left => "left"
  | right => "right"

/-- A row of an outline: a node by its kind and its own texts, or an empty slot. -/
structure OutlineRow where
  depth : Nat
  place : Place
  node : Option (String × List String)
deriving DecidableEq, Repr

/-- The row of a node itself. -/
def Node.row (depth : Nat) (place : Place) (node : Node) : OutlineRow :=
  ⟨depth, place, some (node.kindName, node.texts)⟩

mutual

/-- The rows of all nodes below a node whose children have the given depth. -/
def Node.rowsBelow (depth : Nat) : Node → List OutlineRow
  | .identifier .. | .numberLiteral .. | .declaration .. => []
  | .handleDeclaration .. | .memberCall .. => []
  | .assignment _ value => value.row depth .value :: value.rowsBelow (depth + 1)
  | .unaryOperation _ operand => slotRows depth .operand operand
  | .binaryOperation _ left right =>
    left.row depth .left :: left.rowsBelow (depth + 1) ++
      right.row depth .right :: right.rowsBelow (depth + 1)
  | .forLoop init condition increment body =>
    slotRows depth .init init ++ slotRows depth .condition condition ++
      slotRows depth .increment increment ++ listRows depth .body body
  | .whileLoop condition body | .ifThen condition body =>
    slotRows depth .condition condition ++ listRows depth .body body

/-- The rows of a slot. -/
def Node.slotRows (depth : Nat) (place : Place) : Option Node → List OutlineRow
  | none => [⟨depth, place, none⟩]
  | some node => node.row depth place :: node.rowsBelow (depth + 1)

/-- The rows of a list of statements. -/
def Node.listRows (depth : Nat) (place : Place) : List Node → List OutlineRow
  | [] => []
  | node :: rest => node.row depth place :: node.rowsBelow (depth + 1) ++ listRows depth place rest

end

/-- The outline of a program, its statements at depth zero. -/
def Program.outline (p : Program) : List OutlineRow := Node.listRows 0 .statement p.statements

/-- For every statement of a program, its kind and the number of statements directly in its body,
if it has one. -/
def Program.bodySizes (p : Program) : List (String × Option Nat) :=
  p.statements.map fun node => (node.kindName, node.body?.map List.length)

end StreamScript
