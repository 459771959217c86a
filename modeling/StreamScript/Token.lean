import StreamScript.Bracket

/-! # Tokens

A token is a piece of source text with its kind and the line on which it stands.  Lines are
counted from one by the scanner, but a token may carry any line. -/

namespace StreamScript

/-- The six kinds of token. -/
inductive TokenKind where
  /-- A reserved word. -/
  | keyword
  /-- A letter or `_`, then letters, digits and `_`. -/
  | identifier
  /-- A text between double quotes, the quotes included. -/
  | literal
  | operator
  /-- One punctuation character. -/
  | punctuation
  /-- One character that no rule accepts. -/
  | unknown
deriving DecidableEq, Repr

/-- The kind's name in listings and records. -/
def TokenKind.name : TokenKind → String
  | keyword => "keyword"
  | identifier => "identifier"
  | literal => "literal"
  | operator => "operator"
  | punctuation => "punctuation"
  | unknown => "unknown"

/-- A piece of text with its kind and line. -/
structure Token where
  kind : TokenKind
  text : String
  line : Nat
deriving DecidableEq, Repr

/-- Whether the token has this kind and this text, on whatever line. -/
def Token.is (t : Token) (kind : TokenKind) (text : String) : Bool :=
  t.kind == kind && t.text == text

/-- Whether the token is the opening bracket of the kind. -/
def Token.opens (t : Token) (bracket : Bracket) : Bool := t.is .punctuation bracket.opening

/-- Whether the token is the closing bracket of the kind. -/
def Token.closes (t : Token) (bracket : Bracket) : Bool := t.is .punctuation bracket.closing

theorem TokenKind.name_injective {k l : TokenKind} (h : k.name = l.name) : k = l := by
  cases k <;> cases l <;> simp_all [TokenKind.name]

@[simp] theorem Token.is_iff {t : Token} {kind : TokenKind} {text : String} :
    t.is kind text = true ↔ t.kind = kind ∧ t.text = text := by
  simp [Token.is]

@[simp] theorem Token.opens_iff {t : Token} {bracket : Bracket} :
    t.opens bracket = true ↔ t.kind = .punctuation ∧ t.text = bracket.opening := Token.is_iff

@[simp] theorem Token.closes_iff {t : Token} {bracket : Bracket} :
    t.closes bracket = true ↔ t.kind = .punctuation ∧ t.text = bracket.closing := Token.is_iff

end StreamScript
