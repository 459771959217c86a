/-! # Programs as trees

A program is a list of statements, and a statement is a node.  The places of an expression are
slots, which may be empty.  The type has more kinds of node than programs in source form can
have, so that trees can also be built by hand. -/

namespace StreamScript

/-- A node of a program's tree. -/
inductive Node where
  /-- A name by itself. -/
  | identifier (name : String)
  /-- A number, as it is written. -/
  | numberLiteral (text : String)
  /-- The declaration `int a, b;`. -/
  | declaration (typeName : String) (names : List String)
  | assignment (target : String) (value : Node)
  | unaryOperation (operator : String) (operand : Option Node)
  | binaryOperation (operator : String) (left right : Node)
  | forLoop (init condition increment : Option Node) (body : List Node)
  | whileLoop (condition : Option Node) (body : List Node)
  | ifThen (condition : Option Node) (body : List Node)
  /-- The declaration `ifstream name("path");`, the path with its quotes. -/
  | handleDeclaration (handleType name path : String)
  /-- The call `target.method();`. -/
  | memberCall (target method : String)
deriving Repr

/-- The statements of a program, in order. -/
structure Program where
  statements : List Node
deriving Repr

namespace Node

/-- The name of the node's kind. -/
def kindName : Node → String
  | identifier .. => "Identifier"
  | numberLiteral .. => "NumberLiteral"
  | declaration .. => "Declaration"
  | assignment .. => "Assignment"
  | unaryOperation .. => "UnaryOperation"
  | binaryOperation .. => "BinaryOperation"
  | forLoop .. => "ForLoop"
  | whileLoop .. => "WhileLoop"
  | ifThen .. => "If"
  | handleDeclaration .. => "HandleDeclaration"
  | memberCall .. => "MemberCall"

/-- The statements directly inside the node, if it has a body. -/
def body? : Node → Option (List Node)
  | forLoop _ _ _ body | whileLoop _ body | ifThen _ body => some body
  | _ => none

/-- The texts that the node itself carries, in the order in which they are written. -/
def texts : Node → List String
  | identifier name => [name]
  | numberLiteral text => [text]
  | declaration typeName names => typeName :: names
  | assignment target _ => [target]
  | unaryOperation operator _ | binaryOperation operator _ _ => [operator]
  | forLoop .. | whileLoop .. | ifThen .. => []
  | handleDeclaration handleType name path => [handleType, name, path]
  | memberCall target method => [target, method]

end Node

namespace Program

/-- The program without statements. -/
def empty : Program := ⟨[]⟩

/-- The program with one more statement at its end. -/
def push (p : Program) (node : Node) : Program := ⟨p.statements ++ [node]⟩

@[simp] theorem statements_push (p : Program) (node : Node) :
    (p.push node).statements = p.statements ++ [node] := rfl

end Program

end StreamScript
