import StreamScript.Grammar.Header

/-! # Expectations

What may be missing at each place of a program, and the words in which an error says so. -/

namespace StreamScript

/-- What a place of a program requires. -/
inductive Expectation where
  /-- A place between statements may also be the end of the program or of a block, so no error
  names this one. -/
  | statement
  | expression
  | declarationName
  | declarationEnd
  | handleName
  | handleOpening
  | handlePath
  | handleClosing
  | handleEnd
  | callDot
  | callMethod
  | callOpening
  | callClosing
  | callEnd
  | guardOpening (guard : Guard)
  | guardClosing (guard : Guard)
  | guardBlock (guard : Guard)
  | forOpening
  | forInitEnd
  | forConditionEnd
  | forClosing
  | forBlock
deriving DecidableEq, Repr

/-- The requirement in words. -/
def Expectation.text : Expectation → String
  | statement => "statement"
  | expression => "expression"
  | declarationName => "identifier in variable declaration"
  | declarationEnd => "';' at the end of variable declaration"
  | handleName => "identifier after file declaration keyword"
  | handleOpening => "'(' after file declaration identifier"
  | handlePath => "filename literal in file declaration"
  | handleClosing => "')' after filename literal in file declaration"
  | handleEnd => "';' at the end of file declaration"
  | callDot => "'.' after file identifier"
  | callMethod => "method name after '.' in file operation"
  | callOpening => "'(' after method name in file operation"
  | callClosing => "')' in file operation"
  | callEnd => "';' at the end of file operation"
  | guardOpening guard => s!"'(' after '{guard.word}'"
  | guardClosing guard => s!"')' after condition in '{guard.word}' statement"
  | guardBlock guard => "'\x7b' after '" ++ guard.word ++ "' condition"
  | forOpening => "'(' after 'for'"
  | forInitEnd => "';' after initialization in 'for' statement"
  | forConditionEnd => "';' after condition in 'for' statement"
  | forClosing => "')' after increment in 'for' statement"
  | forBlock => "'\x7b' after 'for' header"

end StreamScript
