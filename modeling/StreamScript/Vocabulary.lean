/-! # The vocabulary of the language

The reserved words, operators and punctuation characters, each table in the order in which the
scanner tries it, and the words with which the two kinds of declaration begin. -/

namespace StreamScript

/-- The reserved words.  A word stands before every word that begins it: `ifstream` before `if`. -/
def keywords : List String :=
  ["std", "ifstream", "ofstream", "fstream", "string", "while", "if", "else", "return", "int", "for"]

/-- The operators, those of two characters first. -/
def operators : List String :=
  ["::", ".", "<<", ">>", "&&", "||", "++", "--", "<=", ">=", "==", "!=", "+=", "-=", "*=", "/=",
    "+", "-", "*", "/", "%", "<", ">", "=", "!"]

/-- The punctuation characters.  `<` and `>` are operators too, and operators are tried first. -/
def punctuation : String := ";()\x7b\x7d<>[],"

/-- The reserved words that begin a declaration of variables. -/
def declarationTypes : List String := ["int", "string"]

/-- The reserved words that begin the declaration of a stream handle. -/
def handleTypes : List String := ["ifstream", "ofstream", "fstream"]

/-- The most blocks that may be open at once, and the most `!` in one expression. -/
def maxDepth : Nat := 128

end StreamScript
