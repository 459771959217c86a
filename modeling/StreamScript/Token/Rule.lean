import StreamScript.Token
import StreamScript.Utf8
import StreamScript.Vocabulary

/-! # Lexical rules

What stands at the start of a list of bytes.  Seven rules are tried in a fixed order and the
first that applies is taken, even where a later one would reach further; bytes to which none
applies begin with a character that is a token of unknown kind by itself.

Every rule looks for ASCII characters only, and a byte of a longer character is never one, so
the tests are written on the character with the byte's number.  `Lexeme.length_pos` says that
what stands at the start of a non-empty list is not empty. -/

namespace StreamScript

/-- The rules of the scanner. -/
inductive Rule where
  | keyword
  | identifier
  | literal
  | operator
  | punctuation
  /-- A run of spaces, tabs and carriage returns, which is skipped. -/
  | blank
  /-- A line feed, which is skipped and begins a line. -/
  | newline
deriving DecidableEq, Repr

namespace Rule

/-- All rules, in the order in which they are tried. -/
def inOrder : List Rule :=
  [keyword, identifier, literal, operator, punctuation, blank, newline]

/-- The kind of token that a rule finds; `none` for skipped text. -/
def kind? : Rule → Option TokenKind
  | keyword => some .keyword
  | identifier => some .identifier
  | literal => some .literal
  | operator => some .operator
  | punctuation => some .punctuation
  | blank | newline => none

/-- The length of the first of `words` with which `rest` begins. -/
def leadingWord? (words : List (List UInt8)) (rest : List UInt8) : Option Nat :=
  (words.find? (·.isPrefixOf rest)).map List.length

/-- The bytes of the reserved words. -/
def keywordBytes : List (List UInt8) := keywords.map Utf8.encode

/-- The bytes of the operators. -/
def operatorBytes : List (List UInt8) := operators.map Utf8.encode

/-- The bytes of the punctuation characters. -/
def punctuationBytes : List UInt8 := Utf8.encode StreamScript.punctuation

/-- Whether an identifier may begin with the character. -/
def isWordStart (c : Char) : Bool := c.isAlpha || c == '_'

/-- Whether the character may stand in an identifier. -/
def isWordPart (c : Char) : Bool := c.isAlphanum || c == '_'

/-- Whether the character is skipped without ending the line. -/
def isBlank (c : Char) : Bool := c == ' ' || c == '\t' || c == '\r'

/-- Whether the character ends a literal, or shows that there is none. -/
def isLiteralStop (c : Char) : Bool := c == '"' || c == '\n'

/-- How many bytes the rule takes from the start of `rest`; `none` if it does not apply.  A
literal reaches to the next double quote, and there must be one before the line ends. -/
def length? : Rule → List UInt8 → Option Nat
  | keyword, rest => leadingWord? keywordBytes rest
  | identifier, rest =>
    match rest with
    | [] => none
    | b :: _ =>
      if isWordStart (Utf8.ascii b) then some (rest.takeWhile (isWordPart <| Utf8.ascii ·)).length else none
  | literal, rest =>
    match rest with
    | [] => none
    | b :: body =>
      if Utf8.ascii b == '"' then
        match body.findIdx? (isLiteralStop <| Utf8.ascii ·) with
        | none => none
        | some i => if body[i]?.map Utf8.ascii == some '"' then some (i + 2) else none
      else none
  | operator, rest => leadingWord? operatorBytes rest
  | punctuation, rest =>
    match rest with
    | [] => none
    | b :: _ => if punctuationBytes.contains b then some 1 else none
  | blank, rest =>
    let n := (rest.takeWhile (isBlank <| Utf8.ascii ·)).length
    if 0 < n then some n else none
  | newline, rest =>
    match rest with
    | [] => none
    | b :: _ => if Utf8.ascii b == '\n' then some 1 else none

end Rule

/-- The piece of source at a place: the rule that found it, if one did, and its length in bytes. -/
structure Lexeme where
  rule? : Option Rule
  length : Nat
deriving DecidableEq, Repr

namespace Lexeme

/-- The lexeme with which a list of bytes begins: by the first rule that applies, else one whole
character. -/
def start : List UInt8 → Lexeme
  | [] => ⟨none, 0⟩
  | rest@(b :: _) =>
    match Rule.inOrder.findSome? fun r => (r.length? rest).map fun n => (r, n) with
    | some (r, n) => ⟨some r, n⟩
    | none => ⟨none, Utf8.width b⟩

/-- The kind of token that the lexeme is; `none` for skipped text. -/
def kind? (x : Lexeme) : Option TokenKind :=
  match x.rule? with
  | some r => r.kind?
  | none => some .unknown

/-- The number of lines that begin after the lexeme. -/
def newlines (x : Lexeme) : Nat := if x.rule? = some .newline then 1 else 0

end Lexeme

/-! ### Progress -/

namespace Rule

theorem keywordBytes_ne_nil : ∀ w ∈ keywordBytes, w ≠ [] := by
  simp [keywordBytes, keywords, Utf8.encode]

theorem operatorBytes_ne_nil : ∀ w ∈ operatorBytes, w ≠ [] := by
  simp [operatorBytes, operators, Utf8.encode]

theorem leadingWord?_pos {words : List (List UInt8)} (h : ∀ w ∈ words, w ≠ [])
    {rest : List UInt8} {n : Nat} (hn : leadingWord? words rest = some n) : 0 < n := by
  obtain ⟨w, hw, rfl⟩ := Option.map_eq_some_iff.1 hn
  exact List.length_pos_iff.2 (h w (List.mem_of_find?_eq_some hw))

theorem isWordPart_of_isWordStart {c : Char} (h : isWordStart c = true) : isWordPart c = true := by
  simp only [isWordStart, isWordPart, Char.isAlphanum, Bool.or_eq_true] at h ⊢
  exact h.imp_left .inl

/-- A rule that applies takes at least one byte. -/
theorem length?_pos {r : Rule} {rest : List UInt8} {n : Nat} (h : r.length? rest = some n) :
    0 < n := by
  cases r with
  | keyword => exact leadingWord?_pos keywordBytes_ne_nil h
  | operator => exact leadingWord?_pos operatorBytes_ne_nil h
  | identifier =>
    cases rest with
    | nil => simp [length?] at h
    | cons b bs =>
      simp only [length?] at h
      split at h
      · next hb =>
        rw [List.takeWhile_cons, if_pos (isWordPart_of_isWordStart hb)] at h
        cases h; simp
      · cases h
  | literal =>
    cases rest with
    | nil => simp [length?] at h
    | cons b body =>
      simp only [length?] at h
      split at h
      · split at h
        · cases h
        · split at h <;> cases h
          omega
      · cases h
  | punctuation =>
    cases rest with
    | nil => simp [length?] at h
    | cons b bs => simp only [length?] at h; split at h <;> cases h; decide
  | blank => simp only [length?] at h; split at h <;> cases h; assumption
  | newline =>
    cases rest with
    | nil => simp [length?] at h
    | cons b bs => simp only [length?] at h; split at h <;> cases h; decide

end Rule

theorem Lexeme.length_pos {rest : List UInt8} (h : rest ≠ []) : 0 < (start rest).length := by
  cases rest with
  | nil => exact absurd rfl h
  | cons b bs =>
    simp only [start]
    split
    · next r n hf =>
      obtain ⟨s, _, hs⟩ := List.exists_of_findSome?_eq_some hf
      obtain ⟨m, hm, he⟩ := Option.map_eq_some_iff.1 hs
      cases he
      exact Rule.length?_pos hm
    · exact Utf8.width_pos b

end StreamScript
