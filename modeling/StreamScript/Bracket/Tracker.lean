import StreamScript.Bracket

/-! # Open brackets

A tracker holds the brackets that are open at a moment, and the line of each, on two stacks that
grow and shrink together.  The innermost bracket is on top.  A bracket can be taken off only
under its own kind. -/

namespace StreamScript

/-- The open brackets and their lines, innermost first. -/
structure Tracker where
  openers : List Bracket
  lines : List Nat
deriving DecidableEq, Repr

namespace Tracker

/-- The tracker with nothing open. -/
def empty : Tracker := ⟨[], []⟩

/-- Open a bracket on a line. -/
def push (t : Tracker) (bracket : Bracket) (line : Nat) : Tracker :=
  ⟨bracket :: t.openers, line :: t.lines⟩

/-- Close the innermost bracket if it is of the expected kind.  The bracket and its line come
with the tracker that is left; if nothing was closed the tracker is as before. -/
def pop (t : Tracker) (expected : Bracket) : Option (Bracket × Nat) × Tracker :=
  match t.openers with
  | [] => (none, t)
  | bracket :: openers =>
    if bracket = expected then
      match t.lines with
      | [] => (none, ⟨openers, []⟩)
      | line :: lines => (some (bracket, line), ⟨openers, lines⟩)
    else (none, t)

/-- The innermost open bracket and its line. -/
def innermost (t : Tracker) : Option (Bracket × Nat) :=
  match t.openers, t.lines with
  | bracket :: _, line :: _ => some (bracket, line)
  | _, _ => none

/-- The number of open brackets. -/
def depth (t : Tracker) : Nat := t.openers.length

/-- Whether nothing is open. -/
def isEmpty (t : Tracker) : Bool := t.openers.isEmpty

@[simp] theorem innermost_push (t : Tracker) (b : Bracket) (l : Nat) :
    (t.push b l).innermost = some (b, l) := rfl

@[simp] theorem depth_push (t : Tracker) (b : Bracket) (l : Nat) :
    (t.push b l).depth = t.depth + 1 := rfl

@[simp] theorem pop_push (t : Tracker) (b : Bracket) (l : Nat) :
    (t.push b l).pop b = (some (b, l), t) := by simp [push, pop]

end Tracker

end StreamScript
