import StreamScript.Token.Rule

/-! # From source text to tokens

A scan moves a cursor over the bytes of a source, lexeme by lexeme, and counts the lines as it
passes the line feeds.  It never fails: every text has a list of tokens, `tokenize s`.

`Cursor.scan_eq_token_append` is the scan's equation: first the token at the cursor, then the
tokens from the next place on. -/

namespace StreamScript

/-- A place in a source: the bytes still to be read, and the line on which they begin. -/
structure Cursor where
  rest : List UInt8
  line : Nat
deriving DecidableEq, Repr

namespace Cursor

/-- The start of a source, on line one. -/
def ofSource (source : String) : Cursor := ⟨Utf8.encode source, 1⟩

/-- The lexeme at the cursor. -/
def lexeme (c : Cursor) : Lexeme := Lexeme.start c.rest

/-- The bytes of the lexeme at the cursor. -/
def slice (c : Cursor) : List UInt8 := c.rest.take c.lexeme.length

/-- The token at the cursor; `none` where skipped text stands. -/
def token? (c : Cursor) : Option Token :=
  c.lexeme.kind?.map fun kind => ⟨kind, Utf8.text c.slice, c.line⟩

/-- The place after the lexeme at the cursor. -/
def next (c : Cursor) : Cursor :=
  ⟨c.rest.drop c.lexeme.length, c.line + c.lexeme.newlines⟩

theorem length_rest_next_lt {c : Cursor} (h : c.rest ≠ []) :
    c.next.rest.length < c.rest.length := by
  have := Lexeme.length_pos h
  have := List.length_pos_iff.2 h
  simp only [next, lexeme, List.length_drop]
  omega

/-- The tokens from the cursor on, after those already `found`, which are given last first. -/
def scan (c : Cursor) (found : List Token) : List Token :=
  if _h : c.rest = [] then found.reverse
  else c.next.scan (c.token?.toList ++ found)
termination_by c.rest.length
decreasing_by exact length_rest_next_lt ‹_›

theorem scan_of_rest_eq_nil {c : Cursor} (h : c.rest = []) (found : List Token) :
    c.scan found = found.reverse := by
  rw [scan, dif_pos h]

theorem scan_of_rest_ne_nil {c : Cursor} (h : c.rest ≠ []) (found : List Token) :
    c.scan found = c.next.scan (c.token?.toList ++ found) := by
  rw [scan, dif_neg h]

/-- The tokens that a scan adds do not depend on those found before. -/
theorem scan_eq_append (c : Cursor) (found : List Token) :
    c.scan found = found.reverse ++ c.scan [] := by
  by_cases h : c.rest = []
  · rw [scan_of_rest_eq_nil h, scan_of_rest_eq_nil h]
    simp
  · rw [scan_of_rest_ne_nil h, scan_of_rest_ne_nil h, scan_eq_append c.next,
      scan_eq_append c.next (c.token?.toList ++ [])]
    cases c.token? <;> simp
termination_by c.rest.length
decreasing_by all_goals exact length_rest_next_lt h

theorem scan_eq_token_append {c : Cursor} (h : c.rest ≠ []) :
    c.scan [] = c.token?.toList ++ c.next.scan [] := by
  rw [scan_of_rest_ne_nil h, scan_eq_append]
  cases c.token? <;> simp

end Cursor

/-- The tokens of a source, in order. -/
def tokenize (source : String) : List Token := (Cursor.ofSource source).scan []

end StreamScript
