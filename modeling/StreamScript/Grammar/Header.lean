import StreamScript.Node.Equality

/-! # Headers of blocks

A block has a header: an `if` or a `while` with one condition, or a `for` with three parts.  The
header is read slot by slot, and closed with the statements of the block into a node. -/

namespace StreamScript

/-- The words that guard a block by one condition. -/
inductive Guard where
  | ifThen
  | whileLoop
deriving DecidableEq, Repr

/-- The guard's word in a program. -/
def Guard.word : Guard → String
  | ifThen => "if"
  | whileLoop => "while"

/-- A header that has been read. -/
inductive Header where
  | guarded (guard : Guard) (condition : Option Node)
  | forLoop (init condition increment : Option Node)
deriving DecidableEq, Repr

/-- The node made of a header and the statements of its block. -/
def Header.node (body : List Node) : Header → Node
  | guarded .ifThen condition => .ifThen condition body
  | guarded .whileLoop condition => .whileLoop condition body
  | forLoop init condition increment => .forLoop init condition increment body

/-- The slot of a header that is being read, with the slots before it. -/
inductive HeaderSlot where
  /-- The condition of a guard. -/
  | guarded (guard : Guard)
  /-- The first part of a `for` header. -/
  | init
  /-- The second part of a `for` header. -/
  | condition (init : Option Node)
  /-- The third part of a `for` header. -/
  | increment (init condition : Option Node)
deriving DecidableEq, Repr

/-- What a slot holds whose expression has `count` signs `!`: nothing, or `!` upon `!` upon an
empty operand.  The token after the signs leaves no node. -/
def negations : Nat → Option Node
  | 0 => none
  | count + 1 => some (.unaryOperation "!" (negations count))

end StreamScript
