import StreamScript.Node

/-! # Tree text

The text of a program's tree has one line for each node, two spaces deeper than its parent.  An
empty slot is a line `_`.  The statements of a body follow a line `Body` that stands beside the
slots, and are one level deeper than it. -/

namespace StreamScript

/-- A line of a tree's text: how deep it stands, and what it says. -/
structure TreeLine where
  depth : Nat
  label : String
deriving DecidableEq, Repr

/-- The line as text, with its line end. -/
def TreeLine.text (l : TreeLine) : String :=
  String.join (List.replicate l.depth "  ") ++ l.label ++ "\n"

/-- What the line of the node itself says. -/
def Node.label : Node → String
  | .identifier name => "Identifier " ++ name
  | .numberLiteral text => "NumberLiteral " ++ text
  | .declaration typeName names => "Declaration " ++ typeName ++ " " ++ ", ".intercalate names
  | .assignment target _ => "Assignment " ++ target
  | .unaryOperation operator _ => "UnaryOperation " ++ operator
  | .binaryOperation operator _ _ => "BinaryOperation " ++ operator
  | .forLoop .. => "ForLoop"
  | .whileLoop .. => "WhileLoop"
  | .ifThen .. => "If"
  | .handleDeclaration handleType name path =>
    "HandleDeclaration " ++ handleType ++ " " ++ name ++ " " ++ path
  | .memberCall target method => "MemberCall " ++ target ++ "." ++ method ++ "()"

mutual

/-- The lines of all that is below a node whose children have the given depth. -/
def Node.linesBelow (depth : Nat) : Node → List TreeLine
  | .identifier .. | .numberLiteral .. | .declaration .. => []
  | .handleDeclaration .. | .memberCall .. => []
  | .assignment _ value => ⟨depth, value.label⟩ :: value.linesBelow (depth + 1)
  | .unaryOperation _ operand => slotLines depth operand
  | .binaryOperation _ left right =>
    ⟨depth, left.label⟩ :: left.linesBelow (depth + 1) ++
      ⟨depth, right.label⟩ :: right.linesBelow (depth + 1)
  | .forLoop init condition increment body =>
    slotLines depth init ++ slotLines depth condition ++ slotLines depth increment ++
      ⟨depth, "Body"⟩ :: listLines (depth + 1) body
  | .whileLoop condition body | .ifThen condition body =>
    slotLines depth condition ++ ⟨depth, "Body"⟩ :: listLines (depth + 1) body

/-- The lines of a slot. -/
def Node.slotLines (depth : Nat) : Option Node → List TreeLine
  | none => [⟨depth, "_"⟩]
  | some node => ⟨depth, node.label⟩ :: node.linesBelow (depth + 1)

/-- The lines of a list of statements. -/
def Node.listLines (depth : Nat) : List Node → List TreeLine
  | [] => []
  | node :: rest => ⟨depth, node.label⟩ :: node.linesBelow (depth + 1) ++ listLines depth rest

end

/-- The lines of a program: a heading, and its statements one level below. -/
def Program.treeLines (p : Program) : List TreeLine :=
  ⟨0, "Program"⟩ :: Node.listLines 1 p.statements

/-- The tree of a program as text. -/
def Program.treeText (p : Program) : String := String.join (p.treeLines.map TreeLine.text)

end StreamScript
