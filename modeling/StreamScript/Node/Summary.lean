import StreamScript.Node

/-! # Summaries

The summary of a program counts its statements, the statements nested in bodies at every depth,
and the statements of each kind at top level. -/

namespace StreamScript

/-- The names of the kinds of node, in alphabetical order. -/
def Node.kindNames : List String :=
  ["Assignment", "BinaryOperation", "Declaration", "ForLoop", "HandleDeclaration", "Identifier",
    "If", "MemberCall", "NumberLiteral", "UnaryOperation", "WhileLoop"]

mutual

/-- The number of statements in the body of a node, at every depth. -/
def Node.nested : Node → Nat
  | .forLoop _ _ _ body | .whileLoop _ body | .ifThen _ body => nestedList body
  | .identifier .. | .numberLiteral .. | .declaration .. | .assignment .. => 0
  | .unaryOperation .. | .binaryOperation .. | .handleDeclaration .. | .memberCall .. => 0

/-- The number of statements in a list, those nested in them included. -/
def Node.nestedList : List Node → Nat
  | [] => 0
  | node :: rest => 1 + node.nested + nestedList rest

end

namespace Program

/-- The number of statements that are nested in the bodies of others. -/
def nested (p : Program) : Nat := p.statements.foldr (fun node count => node.nested + count) 0

/-- How many statements of each kind the program has at top level, in the order of the names;
kinds without a statement are left out. -/
def tally (p : Program) : List (String × Nat) :=
  (Node.kindNames.map fun name => (name, p.statements.countP (·.kindName == name))).filter
    fun entry => 0 < entry.2

/-- The summary as text. -/
def summary (p : Program) : String :=
  let counts := p.tally.map fun (name, count) => s!"{count} {name}"
  s!"{p.statements.length} statement(s), {p.nested} nested: " ++ ", ".intercalate counts

end Program

end StreamScript
