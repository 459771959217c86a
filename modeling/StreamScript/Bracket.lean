/-! # Brackets

The two kinds of bracket that a program can leave open. -/

namespace StreamScript

/-- A kind of bracket. -/
inductive Bracket where
  /-- The round bracket of a header, a call or a handle declaration. -/
  | paren
  /-- The curly bracket of a block. -/
  | brace
deriving DecidableEq, Repr

namespace Bracket

/-- The text of the opening bracket. -/
@[simp] def opening : Bracket → String
  | paren => "("
  | brace => "\x7b"

/-- The text of the closing bracket. -/
@[simp] def closing : Bracket → String
  | paren => ")"
  | brace => "\x7d"

/-- The name of the kind in messages, which is its opening bracket. -/
def name (b : Bracket) : String := b.opening

theorem name_injective {b c : Bracket} (h : b.name = c.name) : b = c := by
  cases b <;> cases c <;> simp_all [name]

end Bracket

end StreamScript
