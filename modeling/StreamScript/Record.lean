import StreamScript.Record.Quoted
import StreamScript.Token

/-! # Records

A run of the scanner and of the parser leaves records of what it did, in the order in which it
did it.  Each record has a level and a message. -/

namespace StreamScript

/-- How detailed a record is. -/
inductive Level where
  | trace
  | debug
deriving DecidableEq, Repr

/-- The level's name. -/
def Level.name : Level → String
  | trace => "trace"
  | debug => "debug"

/-- What happened in a run. -/
inductive Record where
  /-- A token was found. -/
  | token (token : Token)
  /-- A token was taken as the first of a statement. -/
  | statement (line : Nat) (text : String)
  /-- A bracket was opened. -/
  | push (bracket : Bracket) (line : Nat)
  /-- A bracket was closed that was opened on the line. -/
  | pop (bracket : Bracket) (line : Nat)
  /-- The tokens ended while the bracket was open. -/
  | unclosed (bracket : Bracket) (line : Nat)
  /-- A program of so many statements was read. -/
  | parsed (count : Nat)
deriving DecidableEq, Repr

namespace Record

/-- The level of a record: statements and results are debug records, single tokens and brackets
trace records. -/
def level : Record → Level
  | token .. | push .. | pop .. => .trace
  | statement .. | unclosed .. | parsed .. => .debug

/-- The record in words. -/
def message : Record → String
  | token t => s!"line {t.line}: {t.kind.name} " ++ Quoted.encode t.text
  | statement line text => s!"line {line}: statement at " ++ Quoted.encode text
  | push bracket line => s!"push {bracket.name} from line {line}"
  | pop bracket line => s!"pop {bracket.name} from line {line}"
  | unclosed bracket line => s!"unclosed '{bracket.name}' from line {line}"
  | parsed count => s!"parsed {count} top-level statement(s)"

end Record

end StreamScript
