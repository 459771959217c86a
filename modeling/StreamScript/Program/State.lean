import StreamScript.Bracket.Tracker
import StreamScript.Grammar.Point
import StreamScript.ParseError
import StreamScript.Record

/-! # The state of reading a program

A program is read token by token.  The state is the point that has been reached, the statements
read so far on the innermost open level, the blocks around it, and the open brackets.

* `State.step s t` is what the token `t` does in the state `s`: the records it leaves, and the
  next state or an error.
* `State.finish s` is what the end of the tokens does there: a program or an error.

An end of the tokens inside a block is found only at the very end, by the brackets left open. -/

namespace StreamScript

/-- A result, or an error, with the records left on the way to it. -/
structure Logged (α : Type) where
  records : List Record
  result : Except ParseError α

/-- A block that is open: its header, and the statements before it on the level around it, last
first. -/
structure Frame where
  header : Header
  before : List Node
deriving DecidableEq, Repr

/-- How far a program has been read. -/
structure State where
  point : Point
  /-- The statements of the innermost level so far, last first. -/
  level : List Node
  /-- The open blocks, innermost first. -/
  frames : List Frame
  tracker : Tracker
  /-- The line of the last token, one before the first. -/
  line : Nat
deriving DecidableEq, Repr

namespace State

/-- Nothing has been read. -/
def start : State := ⟨.statement, [], [], .empty, 1⟩

/-- The error that the state's expectation is not met; `found` is the text of the token that is
there instead. -/
def unmet (s : State) (found : Option String) (line : Nat) : ParseError :=
  ⟨.expectedToken s.point.expectation.text found, line⟩

/-- Open a bracket on a line. -/
def opened (s : State) (bracket : Bracket) (line : Nat) : State :=
  { s with tracker := s.tracker.push bracket line }

/-- Close a bracket, with the record of it. -/
def closed (s : State) (bracket : Bracket) : List Record × State :=
  match s.tracker.pop bracket with
  | (some (b, line), tracker) => ([.pop b line], { s with tracker })
  | (none, tracker) => ([], { s with tracker })

/-- What a token with the given move does in a state that has taken note of its line. -/
def apply (s : State) (t : Token) : Move → Logged State
  | .start next => ⟨[.statement t.line t.text], .ok { s with point := next }⟩
  | .shift next => ⟨[], .ok { s with point := next }⟩
  | .openParen next =>
    ⟨[.push .paren t.line], .ok { s.opened .paren t.line with point := next }⟩
  | .closeParen next =>
    let (records, s) := s.closed .paren
    ⟨records, .ok { s with point := next }⟩
  | .finish node => ⟨[], .ok { s with point := .statement, level := node :: s.level }⟩
  | .openBlock header =>
    let inner := s.opened .brace t.line
    if maxDepth < inner.tracker.depth then
      let line := (inner.tracker.innermost.map Prod.snd).getD s.line
      ⟨[.push .brace t.line], .error ⟨.nestingTooDeep maxDepth, line⟩⟩
    else
      ⟨[.push .brace t.line],
        .ok { inner with
          point := .statement, level := [], frames := ⟨header, s.level⟩ :: s.frames }⟩
  | .closeBlock =>
    match s.frames with
    | [] => ⟨[.statement t.line t.text], .error ⟨.unexpectedToken t.text, t.line⟩⟩
    | frame :: frames =>
      let (records, s) := s.closed .brace
      let node := frame.header.node s.level.reverse
      ⟨records, .ok { s with point := .statement, level := node :: frame.before, frames }⟩
  | .noStatement => ⟨[.statement t.line t.text], .error ⟨.unexpectedToken t.text, t.line⟩⟩
  | .refuse => ⟨[], .error (s.unmet (some t.text) t.line)⟩
  | .overlong => ⟨[], .error ⟨.nestingTooDeep maxDepth, t.line⟩⟩

/-- What a token does in a state. -/
def step (s : State) (t : Token) : Logged State :=
  { s with line := t.line }.apply t (s.point.move t)

/-- What the end of the tokens does in a state. -/
def finish (s : State) : Logged Program :=
  match s.point with
  | .statement =>
    match s.tracker.innermost with
    | some (bracket, line) => ⟨[.unclosed bracket line], .error ⟨.mismatchedBracket bracket, line⟩⟩
    | none => ⟨[.parsed s.level.length], .ok ⟨s.level.reverse⟩⟩
  | _ => ⟨[], .error (s.unmet none s.line)⟩

end State

end StreamScript
