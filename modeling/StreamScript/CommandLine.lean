import StreamScript.FileTree
import StreamScript.Node.Summary
import StreamScript.Node.Tree
import StreamScript.Program.Parse
import StreamScript.Token.Listing

/-! # The command line

What the program does with its arguments, given what reading a path gives.  A run of the program
is an `Outcome`: the exit code and what is written to the two outputs.

The commands `tokens`, `parse` and `check` go over a list of files, and a file that cannot be
read or parsed does not keep the others from being treated.  The command word is looked at only
when a file has been read. -/

namespace StreamScript.CommandLine

/-- The result of a run of the program. -/
structure Outcome where
  exit : Nat
  stdout : String
  stderr : String
deriving DecidableEq, Repr

/-- The commands that go over files. -/
inductive Command where
  /-- Print the tokens of each file. -/
  | tokens
  /-- Print the tree of each file. -/
  | parse
  /-- Say of each file whether it parses. -/
  | check
deriving DecidableEq, Repr

/-- The command with the given word. -/
def Command.ofWord? (word : String) : Option Command :=
  if word = "tokens" then some tokens
  else if word = "parse" then some parse
  else if word = "check" then some check
  else none

/-- How to call the program. -/
def usage : String :=
  String.join <| List.map (· ++ "\n")
    ["Usage: ccfront <command> [files...]",
      "",
      "Commands:",
      "  tokens    Print the token stream of each file",
      "  parse     Print the syntax tree of each file",
      "  check     Check that each file parses",
      "  demo      Tokenize and parse a built-in sample program",
      "",
      "Set RUST_LOG=debug to trace parser decisions."]

/-- A sample program with a statement of every form.  Its last statement but one lacks a
bracket. -/
def sample : String :=
  String.join <| List.map (· ++ "\n")
    ["",
      "int a;",
      "int b,c;",
      "ifstream inputFile(\"input.txt\");",
      "ofstream outputFile(\"output.txt\");",
      "while (!done) \x7b",
      "    inputFile.read();",
      "    for (i; ready; step) \x7b",
      "        outputFile.write();",
      "    \x7d",
      "\x7d",
      "if (ok) \x7b",
      "    outputFile.flush();",
      "\x7d",
      "inputFile.close(;",
      "outputFile.close();"]

/-- Show the tokens of the sample program, and its tree or the error in it. -/
def demo : Outcome :=
  let tokens := tokenize sample
  let shown := "Lexer output:\n" ++ listing tokens ++ "\n"
  match StreamScript.parse tokens with
  | .ok program =>
    ⟨0, shown ++ program.treeText ++ s!"Parsing completed successfully ({program.summary}).\n", ""⟩
  | .error e => ⟨1, shown, e.message ++ "\n"⟩

namespace Outcome

/-- Nothing has been written, and nothing has failed. -/
def clean : Outcome := ⟨0, "", ""⟩

/-- Write to the first output. -/
def print (o : Outcome) (text : String) : Outcome := { o with stdout := o.stdout ++ text }

/-- Write to the second output. -/
def note (o : Outcome) (text : String) : Outcome := { o with stderr := o.stderr ++ text }

/-- Say of a file what is wrong with it, which makes the run fail. -/
def fail (o : Outcome) (path reason : String) : Outcome :=
  { o.note s!"{path}: {reason}\n" with exit := 1 }

end Outcome

/-- What a command does with a file that has been read. -/
def Command.treat (o : Outcome) (path source : String) : Command → Outcome
  | tokens => o.print (listing (tokenize source))
  | parse =>
    match parseSource source with
    | .ok program => o.print program.treeText
    | .error e => o.fail path e.message
  | check =>
    match parseSource source with
    | .ok program => o.note s!"{path}: valid ({program.summary})\n"
    | .error e => o.fail path e.message

/-- Go over the files at the paths under a command word, `o` being what came before. -/
def overFiles (read : String → Except ReadError String) (word : String) (o : Outcome) :
    List String → Outcome
  | [] => o
  | path :: paths =>
    match read path with
    | .error e => overFiles read word (o.fail path e.message) paths
    | .ok source =>
      match Command.ofWord? word with
      | some command => overFiles read word (command.treat o path source) paths
      | none => { o.note s!"Unknown command: {word}\n" with exit := 2 }

/-- What the arguments ask for. -/
inductive Request where
  | usage
  | demo
  /-- A command word stands alone. -/
  | noFiles
  | files (word : String) (paths : List String)
deriving DecidableEq, Repr

namespace Request

/-- The request that a list of arguments makes. -/
def ofArgs : List String → Request
  | [] => usage
  | word :: paths =>
    if word = "--help" ∨ word = "-h" then usage
    else if word = "demo" then demo
    else if paths = [] then noFiles
    else files word paths

/-- The paths of the files that the request is about. -/
def paths : Request → List String
  | files _ paths => paths
  | _ => []

/-- Fulfil a request. -/
def fulfil (read : String → Except ReadError String) : Request → Outcome
  | usage => ⟨2, "", CommandLine.usage⟩
  | demo => CommandLine.demo
  | noFiles => ⟨2, "", "Error: no files specified\n"⟩
  | files word paths => overFiles read word .clean paths

end Request

/-- Run the program with the arguments; `read` says what reading a path gives. -/
def run (read : String → Except ReadError String) (args : List String) : Outcome :=
  (Request.ofArgs args).fulfil read

end StreamScript.CommandLine
