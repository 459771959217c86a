import StreamScript.Bracket.Tracker

/-! # Sessions with a tracker

A session works on one tracker and keeps a saved copy of it.  Each operation has an answer, and
after it the tracker can be observed. -/

namespace StreamScript

/-- What can be done in a session. -/
inductive TrackerOp where
  | push (bracket : Bracket) (line : Nat)
  | pop (expected : Bracket)
  /-- Copy the tracker to the saved one. -/
  | save
  /-- Copy the saved tracker back. -/
  | restore
  /-- Compare the tracker with the saved one. -/
  | same
deriving DecidableEq, Repr

/-- The answer of an operation. -/
inductive TrackerAnswer where
  | done
  /-- The bracket that was closed and its line, or nothing. -/
  | popped (entry : Option (Bracket × Nat))
  | compared (equal : Bool)
deriving DecidableEq, Repr

/-- What is seen after an operation: its answer and the state of the tracker. -/
structure TrackerView where
  answer : TrackerAnswer
  depth : Nat
  isEmpty : Bool
  innermost : Option (Bracket × Nat)
deriving DecidableEq, Repr

/-- The tracker in use and the saved copy. -/
structure Session where
  current : Tracker
  saved : Tracker
deriving DecidableEq, Repr

namespace Session

/-- The session that begins with two empty trackers. -/
def empty : Session := ⟨.empty, .empty⟩

/-- Carry out one operation. -/
def perform (s : Session) : TrackerOp → TrackerAnswer × Session
  | .push bracket line => (.done, { s with current := s.current.push bracket line })
  | .pop expected =>
    let (entry, left) := s.current.pop expected
    (.popped entry, { s with current := left })
  | .save => (.done, { s with saved := s.current })
  | .restore => (.done, { s with current := s.saved })
  | .same => (.compared (s.current == s.saved), s)

/-- What is seen of the tracker in use, with an answer. -/
def view (s : Session) (answer : TrackerAnswer) : TrackerView :=
  ⟨answer, s.current.depth, s.current.isEmpty, s.current.innermost⟩

/-- What is seen after each of the operations. -/
def views (s : Session) : List TrackerOp → List TrackerView
  | [] => []
  | op :: ops =>
    let (answer, after) := s.perform op
    after.view answer :: after.views ops

end Session

end StreamScript
