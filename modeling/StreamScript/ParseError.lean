import StreamScript.Bracket

/-! # Parse errors

Why a list of tokens is no program, and the line to blame for it. -/

namespace StreamScript

/-- The cause of a parse error. -/
inductive ErrorKind where
  /-- Something was required and another token stood there, or none was left. -/
  | expectedToken (expected : String) (found : Option String)
  /-- No statement begins with this token. -/
  | unexpectedToken (text : String)
  /-- The tokens end while the bracket is open. -/
  | mismatchedBracket (bracket : Bracket)
  /-- More than `limit` blocks are open at once, or more than `limit` signs `!` stand in a row. -/
  | nestingTooDeep (limit : Nat)
deriving DecidableEq, Repr

/-- The cause in words. -/
def ErrorKind.message : ErrorKind → String
  | expectedToken expected none => s!"Expected {expected}"
  | expectedToken expected (some found) => s!"Expected {expected}, got '{found}'"
  | unexpectedToken text => s!"Unexpected token: {text}"
  | mismatchedBracket bracket => s!"Mismatched brackets detected, unclosed '{bracket.name}'"
  | nestingTooDeep limit => s!"Nesting deeper than {limit} levels"

/-- A cause with the line on which it shows. -/
structure ParseError where
  kind : ErrorKind
  line : Nat
deriving DecidableEq, Repr

/-- The error in words. -/
def ParseError.message (e : ParseError) : String := s!"{e.kind.message} at line {e.line}."

end StreamScript
