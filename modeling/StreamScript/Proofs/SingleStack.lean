import StreamScript.Bracket.Session
import StreamScript.Proofs.Entries

/-! # Sessions on a single stack

A tracker keeps its brackets on one stack and their lines on another.  `StackSession` carries out
the same operations on one stack of entries, where a closing takes off the head if that is of the
expected kind.  `StackSession.paired` splits the entries into the two stacks of a tracker.  One
operation has the same answer before and after the splitting and leads to states of which one is the
other split (`perform_paired`), and so all that is seen in a sequence of operations is the same
(`views_paired`).

So what holds of the two stacks is read off the single one: they have the same length
(`Session.Even`), and a closing that fails changes neither.  Only `save` changes the saved copy
(`Session.saved_after`).  `session_on_single_stack` puts all of this together. -/

namespace StreamScript

/-- A session that works on one stack of entries, innermost first, and keeps a copy of it. -/
structure StackSession where
  current : List (Bracket × Nat)
  saved : List (Bracket × Nat)
deriving DecidableEq, Repr

/-- Take the head off if it is of the expected kind. -/
def popEntry (expected : Bracket) :
    List (Bracket × Nat) → Option (Bracket × Nat) × List (Bracket × Nat)
  | [] => (none, [])
  | entry :: entries =>
    if entry.1 = expected then (some entry, entries) else (none, entry :: entries)

theorem popEntry_of_none {expected : Bracket} {entries : List (Bracket × Nat)}
    (h : (popEntry expected entries).1 = none) : (popEntry expected entries).2 = entries := by
  cases entries with
  | nil => rfl
  | cons entry entries =>
      rw [popEntry] at h ⊢
      by_cases hb : entry.1 = expected
      · rw [if_pos hb] at h
        cases h
      · rw [if_neg hb]

namespace StackSession

/-- The session that begins with nothing open. -/
def empty : StackSession := ⟨[], []⟩

/-- Carry out one operation. -/
def perform (s : StackSession) : TrackerOp → TrackerAnswer × StackSession
  | .push bracket line => (.done, { s with current := (bracket, line) :: s.current })
  | .pop expected =>
    let (entry, left) := popEntry expected s.current
    (.popped entry, { s with current := left })
  | .save => (.done, { s with saved := s.current })
  | .restore => (.done, { s with current := s.saved })
  | .same => (.compared (decide (s.current = s.saved)), s)

/-- What is seen of the stack in use, with an answer. -/
def view (s : StackSession) (answer : TrackerAnswer) : TrackerView :=
  ⟨answer, s.current.length, s.current.isEmpty, s.current.head?⟩

/-- What is seen after each of the operations. -/
def views (s : StackSession) : List TrackerOp → List TrackerView
  | [] => []
  | op :: ops =>
    let (answer, after) := s.perform op
    after.view answer :: after.views ops

/-- The session after the operations. -/
def after (s : StackSession) (ops : List TrackerOp) : StackSession :=
  ops.foldl (fun s op => (s.perform op).2) s

/-- The session with the brackets and the lines of the entries on stacks of their own. -/
def paired (s : StackSession) : Session := ⟨.ofEntries s.current, .ofEntries s.saved⟩

@[simp] theorem paired_empty : empty.paired = Session.empty := rfl

end StackSession

namespace Session

/-- The session after the operations. -/
def after (s : Session) (ops : List TrackerOp) : Session :=
  ops.foldl (fun s op => (s.perform op).2) s

theorem after_cons (s : Session) (op : TrackerOp) (ops : List TrackerOp) :
    s.after (op :: ops) = (s.perform op).2.after ops := rfl

/-- In both trackers there is a line for every bracket. -/
structure Even (s : Session) : Prop where
  current : s.current.openers.length = s.current.lines.length
  saved : s.saved.openers.length = s.saved.lines.length

end Session

/-! ### One operation -/

namespace Tracker

theorem pop_ofEntries (expected : Bracket) (entries : List (Bracket × Nat)) :
    (ofEntries entries).pop expected =
      ((popEntry expected entries).1, ofEntries (popEntry expected entries).2) := by
  cases entries with
  | nil => rfl
  | cons entry entries =>
      obtain ⟨bracket, line⟩ := entry
      unfold popEntry
      by_cases h : bracket = expected
      · subst h
        rw [pop_ofEntries_cons]
        simp
      · simp [ofEntries, pop, h]

theorem ofEntries_beq (entries more : List (Bracket × Nat)) :
    (ofEntries entries == ofEntries more) = decide (entries = more) := by
  rw [Bool.eq_iff_iff, beq_iff_eq, decide_eq_true_iff]
  constructor
  · exact ofEntries_injective
  · rintro rfl
    rfl

end Tracker

namespace StackSession

/-- Each operation has the same answer on one stack and on two, and the same effect. -/
theorem perform_paired (s : StackSession) (op : TrackerOp) :
    s.paired.perform op = ((s.perform op).1, (s.perform op).2.paired) := by
  unfold paired Session.perform perform
  cases op with
  | push bracket line => rfl
  | pop expected => simp only [Tracker.pop_ofEntries]
  | save => rfl
  | restore => rfl
  | same => simp only [Tracker.ofEntries_beq]

theorem view_paired (s : StackSession) (answer : TrackerAnswer) :
    s.paired.view answer = s.view answer := by
  unfold paired Session.view view
  simp

/-! ### Any sequence of operations -/

theorem views_paired (s : StackSession) (ops : List TrackerOp) :
    s.paired.views ops = s.views ops := by
  induction ops generalizing s with
  | nil => rfl
  | cons op ops ih =>
      rw [Session.views, views, perform_paired]
      simp only [view_paired, ih]

theorem after_paired (s : StackSession) (ops : List TrackerOp) :
    s.paired.after ops = (s.after ops).paired := by
  induction ops generalizing s with
  | nil => rfl
  | cons op ops ih =>
      rw [Session.after_cons, perform_paired]
      exact ih (s.perform op).2

theorem even_paired (s : StackSession) : s.paired.Even := by
  constructor <;> simp [paired, Tracker.ofEntries]

/-- A closing that fails changes neither stack. -/
theorem perform_paired_of_popped_none {s : StackSession} {expected : Bracket}
    (h : (s.paired.perform (.pop expected)).1 = .popped none) :
    (s.paired.perform (.pop expected)).2 = s.paired := by
  rw [perform_paired] at h ⊢
  unfold perform at h ⊢
  simp only [TrackerAnswer.popped.injEq] at h
  simp only [popEntry_of_none h]

end StackSession

namespace Session

/-- Only `save` changes the saved copy. -/
theorem saved_perform (s : Session) {op : TrackerOp} (h : op ≠ .save) :
    (s.perform op).2.saved = s.saved := by
  cases op with
  | save => exact absurd rfl h
  | _ => rfl

theorem saved_after (s : Session) {ops : List TrackerOp} (h : .save ∉ ops) :
    (s.after ops).saved = s.saved := by
  induction ops generalizing s with
  | nil => rfl
  | cons op ops ih =>
      rw [List.mem_cons, not_or] at h
      rw [after_cons, ih _ h.2, saved_perform s (Ne.symm h.1)]

end Session

/-- All that is seen in a session is what is seen in one on a single stack.  After every sequence of
operations the two stacks of each tracker have the same length, a closing that fails leaves them as
they are, and the saved copy stays as it is until the next `save`. -/
theorem session_on_single_stack (ops : List TrackerOp) :
    Session.empty.views ops = StackSession.empty.views ops ∧
    Session.empty.after ops = (StackSession.empty.after ops).paired ∧
    (Session.empty.after ops).Even ∧
    (∀ expected, ((Session.empty.after ops).perform (.pop expected)).1 = .popped none →
      ((Session.empty.after ops).perform (.pop expected)).2 = Session.empty.after ops) ∧
    ∀ later, .save ∉ later →
      ((Session.empty.after ops).after later).saved = (Session.empty.after ops).saved := by
  have hviews := StackSession.empty.views_paired ops
  have hafter := StackSession.empty.after_paired ops
  rw [StackSession.paired_empty] at hviews hafter
  refine ⟨hviews, hafter, ?_, fun expected h => ?_, fun later h => Session.saved_after _ h⟩
  · rw [hafter]
    exact StackSession.even_paired _
  · rw [hafter] at h ⊢
    exact StackSession.perform_paired_of_popped_none h

/-- A bracket inside a block, and a copy of both. -/
def savedInside : List TrackerOp := [.push .brace 1, .push .paren 4, .save, .push .paren 4]

/-- Both brackets are closed, and another one is opened before the copy is taken back. -/
def closedAfter : List TrackerOp := [.pop .paren, .pop .paren, .push .brace 9, .restore, .same]

theorem session_on_single_stack_savedInside :
    ((Session.empty.after savedInside).perform (.pop .brace)).1 = .popped none ∧
    .save ∉ closedAfter ∧
    ((Session.empty.after savedInside).perform (.pop .brace)).2 = Session.empty.after savedInside ∧
    ((Session.empty.after savedInside).after closedAfter).saved =
      (Session.empty.after savedInside).saved := by
  have hfails : ((Session.empty.after savedInside).perform (.pop .brace)).1 = .popped none := rfl
  have hkept : .save ∉ closedAfter := by decide
  obtain ⟨-, -, -, hpop, hsaved⟩ := session_on_single_stack savedInside
  exact ⟨hfails, hkept, hpop .brace hfails, hsaved closedAfter hkept⟩

/-- On two stacks of different length a closing that fails could take a bracket away. -/
example : (Tracker.mk [.brace] []).pop .brace = (none, .empty) := rfl

end StreamScript
