import StreamScript.Program.State
import StreamScript.Token.Scan

/-! # From tokens to programs

`parse` reads a list of tokens as a program or gives the first error, `parseSource` does so with
a source, and `trace` is the same run with its records. -/

namespace StreamScript

/-- A run over tokens: the records so far, last first, and the state reached or the error that
ended the run. -/
structure Run where
  log : List Record
  state : Except ParseError State

namespace Run

/-- The run before the first token. -/
def start : Run := ⟨[], .ok .start⟩

/-- Read one more token.  A run that has ended with an error stays as it is. -/
def read (r : Run) (t : Token) : Run :=
  match r.state with
  | .error _ => r
  | .ok s =>
    let next := s.step t
    ⟨next.records.reverse ++ r.log, next.result⟩

/-- The run over a list of tokens. -/
def ofTokens (tokens : List Token) : Run := tokens.foldl read start

/-- End the run: its records in order, and its result. -/
def finish (r : Run) : Logged Program :=
  match r.state with
  | .error e => ⟨r.log.reverse, .error e⟩
  | .ok s =>
    let last := s.finish
    ⟨r.log.reverse ++ last.records, last.result⟩

theorem foldl_read_of_error {r : Run} {e : ParseError} (h : r.state = .error e)
    (tokens : List Token) : tokens.foldl read r = r := by
  induction tokens with
  | nil => rfl
  | cons t ts ih => rw [List.foldl_cons, read, h]; exact ih

end Run

/-- The program that the tokens spell, or the first error. -/
def parse (tokens : List Token) : Except ParseError Program := (Run.ofTokens tokens).finish.result

/-- The program that a source spells, or the first error. -/
def parseSource (source : String) : Except ParseError Program := parse (tokenize source)

/-- Scan and parse a source, and keep the records: one for each token, then those of the
parser. -/
def trace (source : String) : Logged Program :=
  let tokens := tokenize source
  let run := (Run.ofTokens tokens).finish
  ⟨tokens.map .token ++ run.records, run.result⟩

end StreamScript
