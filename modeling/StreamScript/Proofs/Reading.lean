import StreamScript.Program.Parse

/-! # Reading tokens from a state

`State.reads s ts` is the state after the tokens `ts`, read from `s`, or the error of the first
token that cannot be taken.  `parse_eq` gives a parse as a reading from the start that is then
finished, and the records of the run play no part in it.

The result of a single step is known from the move of its token: there is one equation for each
move (`result_of_start`, `result_of_shift`, …).  Read backwards they say in which ways a token is
taken or not (`State.Takes`, `State.Rejects`), and the proofs about readings use only these.  In the
same way there is one equation for the records that the step leaves (`records_of_start`, …). -/

namespace StreamScript

/-- The line of the last token, `line` if there is none. -/
def lineAfter (line : Nat) (ts : List Token) : Nat := ts.foldl (fun _ t => t.line) line

@[simp] theorem lineAfter_nil (line : Nat) : lineAfter line [] = line := rfl

@[simp] theorem lineAfter_cons (line : Nat) (t : Token) (ts : List Token) :
    lineAfter line (t :: ts) = lineAfter t.line ts := rfl

@[simp] theorem lineAfter_append (line : Nat) (ts us : List Token) :
    lineAfter line (ts ++ us) = lineAfter (lineAfter line ts) us := List.foldl_append

namespace State

variable {s s' : State} {t : Token} {next : Point} {header : Header} {e : ParseError}

/-! ### One step -/

theorem result_of_start (h : s.point.move t = .start next) :
    (s.step t).result = .ok { s with point := next, line := t.line } := by
  simp [step, apply, h]

theorem result_of_shift (h : s.point.move t = .shift next) :
    (s.step t).result = .ok { s with point := next, line := t.line } := by
  simp [step, apply, h]

theorem result_of_openParen (h : s.point.move t = .openParen next) :
    (s.step t).result =
      .ok { s with point := next, tracker := s.tracker.push .paren t.line, line := t.line } := by
  simp [step, apply, h, opened]

theorem result_of_closeParen (h : s.point.move t = .closeParen next) :
    (s.step t).result =
      .ok { s with point := next, tracker := (s.tracker.pop .paren).2, line := t.line } := by
  simp only [step, apply, h, closed]
  split <;> next hp => simp [hp]

theorem result_of_finish {node : Node} (h : s.point.move t = .finish node) :
    (s.step t).result =
      .ok { s with point := .statement, level := node :: s.level, line := t.line } := by
  simp [step, apply, h]

theorem result_of_openBlock (h : s.point.move t = .openBlock header)
    (hd : s.tracker.depth < maxDepth) :
    (s.step t).result =
      .ok ⟨.statement, [], ⟨header, s.level⟩ :: s.frames, s.tracker.push .brace t.line, t.line⟩ := by
  have hd' : ¬ maxDepth < s.tracker.depth + 1 := by omega
  simp [step, apply, h, opened, hd']

/-- A block too many is blamed on the line of its bracket. -/
theorem result_of_openBlock_of_le (h : s.point.move t = .openBlock header)
    (hd : maxDepth ≤ s.tracker.depth) :
    (s.step t).result = .error ⟨.nestingTooDeep maxDepth, t.line⟩ := by
  have hd' : maxDepth < s.tracker.depth + 1 := by omega
  simp [step, apply, h, opened, hd']

theorem result_of_closeBlock {frame : Frame} {frames : List Frame}
    (h : s.point.move t = .closeBlock) (hf : s.frames = frame :: frames) :
    (s.step t).result =
      .ok ⟨.statement, frame.header.node s.level.reverse :: frame.before, frames,
        (s.tracker.pop .brace).2, t.line⟩ := by
  simp only [step, apply, h, hf, closed]
  split <;> next hp => simp [hp]

theorem result_of_closeBlock_of_nil (h : s.point.move t = .closeBlock) (hf : s.frames = []) :
    (s.step t).result = .error ⟨.unexpectedToken t.text, t.line⟩ := by
  simp [step, apply, h, hf]

theorem result_of_noStatement (h : s.point.move t = .noStatement) :
    (s.step t).result = .error ⟨.unexpectedToken t.text, t.line⟩ := by
  simp [step, apply, h]

theorem result_of_refuse (h : s.point.move t = .refuse) :
    (s.step t).result = .error (s.unmet (some t.text) t.line) := by
  simp [step, apply, h, unmet]

theorem result_of_overlong (h : s.point.move t = .overlong) :
    (s.step t).result = .error ⟨.nestingTooDeep maxDepth, t.line⟩ := by
  simp [step, apply, h]

/-! ### The ways of one step -/

/-- The ways in which a token is taken, with the state that it leads to. -/
inductive Takes (s : State) (t : Token) : State → Prop
  | start {next : Point} :
      s.point.move t = .start next → Takes s t { s with point := next, line := t.line }
  | shift {next : Point} :
      s.point.move t = .shift next → Takes s t { s with point := next, line := t.line }
  | openParen {next : Point} :
      s.point.move t = .openParen next →
      Takes s t { s with point := next, tracker := s.tracker.push .paren t.line, line := t.line }
  | closeParen {next : Point} :
      s.point.move t = .closeParen next →
      Takes s t { s with point := next, tracker := (s.tracker.pop .paren).2, line := t.line }
  | finish {node : Node} :
      s.point.move t = .finish node →
      Takes s t { s with point := .statement, level := node :: s.level, line := t.line }
  | openBlock {header : Header} :
      s.point.move t = .openBlock header → s.tracker.depth < maxDepth →
      Takes s t
        ⟨.statement, [], ⟨header, s.level⟩ :: s.frames, s.tracker.push .brace t.line, t.line⟩
  | closeBlock {frame : Frame} {frames : List Frame} :
      s.point.move t = .closeBlock → s.frames = frame :: frames →
      Takes s t
        ⟨.statement, frame.header.node s.level.reverse :: frame.before, frames,
          (s.tracker.pop .brace).2, t.line⟩

/-- The ways in which a token is not taken, with the error. -/
inductive Rejects (s : State) (t : Token) : ParseError → Prop
  | noStatement : s.point.move t = .noStatement → Rejects s t ⟨.unexpectedToken t.text, t.line⟩
  | closeBlock :
      s.point.move t = .closeBlock → s.frames = [] →
      Rejects s t ⟨.unexpectedToken t.text, t.line⟩
  | refuse : s.point.move t = .refuse → Rejects s t (s.unmet (some t.text) t.line)
  | openBlock {header : Header} :
      s.point.move t = .openBlock header → maxDepth ≤ s.tracker.depth →
      Rejects s t ⟨.nestingTooDeep maxDepth, t.line⟩
  | overlong : s.point.move t = .overlong → Rejects s t ⟨.nestingTooDeep maxDepth, t.line⟩

/-- There are no other ways. -/
theorem step_cases (s : State) (t : Token) :
    (∃ s', (s.step t).result = .ok s' ∧ s.Takes t s') ∨
      ∃ e, (s.step t).result = .error e ∧ s.Rejects t e := by
  cases hm : s.point.move t with
  | start next => exact .inl ⟨_, result_of_start hm, .start hm⟩
  | shift next => exact .inl ⟨_, result_of_shift hm, .shift hm⟩
  | openParen next => exact .inl ⟨_, result_of_openParen hm, .openParen hm⟩
  | closeParen next => exact .inl ⟨_, result_of_closeParen hm, .closeParen hm⟩
  | finish node => exact .inl ⟨_, result_of_finish hm, .finish hm⟩
  | openBlock header =>
      rcases Nat.lt_or_ge s.tracker.depth maxDepth with hd | hd
      · exact .inl ⟨_, result_of_openBlock hm hd, .openBlock hm hd⟩
      · exact .inr ⟨_, result_of_openBlock_of_le hm hd, .openBlock hm hd⟩
  | closeBlock =>
      cases hf : s.frames with
      | nil => exact .inr ⟨_, result_of_closeBlock_of_nil hm hf, .closeBlock hm hf⟩
      | cons frame frames => exact .inl ⟨_, result_of_closeBlock hm hf, .closeBlock hm hf⟩
  | noStatement => exact .inr ⟨_, result_of_noStatement hm, .noStatement hm⟩
  | refuse => exact .inr ⟨_, result_of_refuse hm, .refuse hm⟩
  | overlong => exact .inr ⟨_, result_of_overlong hm, .overlong hm⟩

theorem takes_of_step (h : (s.step t).result = .ok s') : s.Takes t s' := by
  rcases s.step_cases t with ⟨r, hr, htakes⟩ | ⟨e, he, -⟩
  · rw [hr] at h
    cases h
    exact htakes
  · rw [he] at h
    cases h

theorem rejects_of_step (h : (s.step t).result = .error e) : s.Rejects t e := by
  rcases s.step_cases t with ⟨r, hr, -⟩ | ⟨e', he, hrejects⟩
  · rw [hr] at h
    cases h
  · rw [he] at h
    cases h
    exact hrejects

/-- A step takes note of the token's line. -/
theorem line_of_step (h : (s.step t).result = .ok s') : s'.line = t.line := by
  cases takes_of_step h <;> rfl

/-! ### The records of one step -/

theorem records_of_start (h : s.point.move t = .start next) :
    (s.step t).records = [.statement t.line t.text] := by
  simp [step, apply, h]

theorem records_of_shift (h : s.point.move t = .shift next) : (s.step t).records = [] := by
  simp [step, apply, h]

theorem records_of_openParen (h : s.point.move t = .openParen next) :
    (s.step t).records = [.push .paren t.line] := by
  simp [step, apply, h]

theorem records_of_closeParen {bracket : Bracket} {line : Nat}
    (h : s.point.move t = .closeParen next)
    (hp : (s.tracker.pop .paren).1 = some (bracket, line)) :
    (s.step t).records = [.pop bracket line] := by
  simp only [step, apply, h, closed]
  split <;> next heq => simp_all

theorem records_of_finish {node : Node} (h : s.point.move t = .finish node) :
    (s.step t).records = [] := by
  simp [step, apply, h]

/-- A bracket that is too deep is recorded too. -/
theorem records_of_openBlock (h : s.point.move t = .openBlock header) :
    (s.step t).records = [.push .brace t.line] := by
  simp only [step, apply, h]
  split <;> rfl

theorem records_of_closeBlock {frame : Frame} {frames : List Frame} {bracket : Bracket}
    {line : Nat} (h : s.point.move t = .closeBlock) (hf : s.frames = frame :: frames)
    (hp : (s.tracker.pop .brace).1 = some (bracket, line)) :
    (s.step t).records = [.pop bracket line] := by
  simp only [step, apply, h, hf, closed]
  split <;> next heq => simp_all

theorem records_of_closeBlock_of_nil (h : s.point.move t = .closeBlock) (hf : s.frames = []) :
    (s.step t).records = [.statement t.line t.text] := by
  simp [step, apply, h, hf]

theorem records_of_noStatement (h : s.point.move t = .noStatement) :
    (s.step t).records = [.statement t.line t.text] := by
  simp [step, apply, h]

theorem records_of_refuse (h : s.point.move t = .refuse) : (s.step t).records = [] := by
  simp [step, apply, h]

theorem records_of_overlong (h : s.point.move t = .overlong) : (s.step t).records = [] := by
  simp [step, apply, h]

/-! ### The end of the tokens -/

theorem finish_of_ne_statement (h : s.point ≠ .statement) :
    s.finish.result = .error (s.unmet none s.line) := by
  unfold finish
  split
  · next hp => exact absurd hp h
  · rfl

theorem finish_of_innermost {bracket : Bracket} {line : Nat} (hp : s.point = .statement)
    (h : s.tracker.innermost = some (bracket, line)) :
    s.finish.result = .error ⟨.mismatchedBracket bracket, line⟩ := by
  simp [finish, hp, h]

theorem finish_of_innermost_none (hp : s.point = .statement) (h : s.tracker.innermost = none) :
    s.finish.result = .ok ⟨s.level.reverse⟩ := by
  simp [finish, hp, h]

/-! ### Many steps -/

/-- The state after the tokens, or the error of the first that cannot be taken. -/
def reads (s : State) : List Token → Except ParseError State
  | [] => .ok s
  | t :: ts =>
    match (s.step t).result with
    | .ok s' => s'.reads ts
    | .error e => .error e

@[simp] theorem reads_nil (s : State) : s.reads [] = .ok s := rfl

theorem reads_cons_of_ok (h : (s.step t).result = .ok s') (ts : List Token) :
    s.reads (t :: ts) = s'.reads ts := by
  rw [reads, h]

theorem reads_cons_of_error (h : (s.step t).result = .error e) (ts : List Token) :
    s.reads (t :: ts) = .error e := by
  rw [reads, h]

theorem reads_append_of_ok {ts : List Token} (h : s.reads ts = .ok s') (us : List Token) :
    s.reads (ts ++ us) = s'.reads us := by
  induction ts generalizing s with
  | nil => cases h; rfl
  | cons t ts ih =>
      cases hr : (s.step t).result with
      | error e => rw [reads_cons_of_error hr] at h; cases h
      | ok r =>
          rw [reads_cons_of_ok hr] at h
          rw [List.cons_append, reads_cons_of_ok hr]
          exact ih h

theorem reads_append_of_error {ts : List Token} (h : s.reads ts = .error e) (us : List Token) :
    s.reads (ts ++ us) = .error e := by
  induction ts generalizing s with
  | nil => cases h
  | cons t ts ih =>
      cases hr : (s.step t).result with
      | error e' =>
          rw [reads_cons_of_error hr] at h
          rw [List.cons_append, reads_cons_of_error hr, h]
      | ok r =>
          rw [reads_cons_of_ok hr] at h
          rw [List.cons_append, reads_cons_of_ok hr]
          exact ih h

theorem reads_singleton (s : State) (t : Token) : s.reads [t] = (s.step t).result := by
  cases hr : (s.step t).result with
  | error e => exact reads_cons_of_error hr []
  | ok s' => exact reads_cons_of_ok hr []

/-- A reading of a longer list begins with a reading of the shorter one. -/
theorem exists_reads_of_append {ts us : List Token} (h : s.reads (ts ++ us) = .ok s') :
    ∃ r, s.reads ts = .ok r ∧ r.reads us = .ok s' := by
  cases hr : s.reads ts with
  | error e => rw [reads_append_of_error hr] at h; cases h
  | ok r => rw [reads_append_of_ok hr] at h; exact ⟨r, rfl, h⟩

/-- A reading begins with a step. -/
theorem exists_step_of_reads_cons {ts : List Token} (h : s.reads (t :: ts) = .ok s') :
    ∃ r, (s.step t).result = .ok r ∧ r.reads ts = .ok s' := by
  cases hr : (s.step t).result with
  | error e => rw [reads_cons_of_error hr] at h; cases h
  | ok r => rw [reads_cons_of_ok hr] at h; exact ⟨r, rfl, h⟩

theorem line_of_reads {ts : List Token} (h : s.reads ts = .ok s') :
    s'.line = lineAfter s.line ts := by
  induction ts generalizing s with
  | nil => cases h; rfl
  | cons t ts ih =>
      obtain ⟨r, hr, hs⟩ := exists_step_of_reads_cons h
      rw [ih hs, line_of_step hr, lineAfter_cons]

/-- A reading that fails does so at one token, after a reading of the tokens before it. -/
theorem exists_step_of_reads_error {ts : List Token} (h : s.reads ts = .error e) :
    ∃ before t after r, ts = before ++ t :: after ∧ s.reads before = .ok r ∧
      (r.step t).result = .error e := by
  induction ts generalizing s with
  | nil => cases h
  | cons t ts ih =>
      cases hr : (s.step t).result with
      | error e' =>
          rw [reads_cons_of_error hr] at h
          cases h
          exact ⟨[], t, ts, s, rfl, rfl, hr⟩
      | ok s' =>
          rw [reads_cons_of_ok hr] at h
          obtain ⟨before, u, after, r, rfl, hb, hu⟩ := ih h
          exact ⟨t :: before, u, after, r, rfl, by rw [reads_cons_of_ok hr, hb], hu⟩

/-! ### Results of a state -/

/-- What the tokens lead to from a state: a program or an error. -/
def outcome (s : State) (ts : List Token) : Except ParseError Program :=
  match s.reads ts with
  | .ok s' => s'.finish.result
  | .error e => .error e

theorem outcome_of_ok (h : (s.step t).result = .ok s') (ts : List Token) :
    s.outcome (t :: ts) = s'.outcome ts := by
  rw [outcome, reads_cons_of_ok h, outcome]

theorem outcome_of_error (h : (s.step t).result = .error e) (ts : List Token) :
    s.outcome (t :: ts) = .error e := by
  rw [outcome, reads_cons_of_error h]

/-- At the end of the tokens a statement that has begun lacks something. -/
theorem outcome_nil_of_ne (h : s.point ≠ .statement) :
    s.outcome [] = .error (s.unmet none s.line) := by
  rw [outcome, reads_nil]
  exact finish_of_ne_statement h

theorem outcome_append_of_ok {ts : List Token} (h : s.reads ts = .ok s') (us : List Token) :
    s.outcome (ts ++ us) = s'.outcome us := by
  rw [outcome, reads_append_of_ok h, outcome]

/-- Only where no token follows does the line of a state play a part. -/
theorem outcome_cons_line (s : State) (line : Nat) (t : Token) (ts : List Token) :
    { s with line := line }.outcome (t :: ts) = s.outcome (t :: ts) := rfl

end State

/-! ### Parsing as reading -/

/-- The records that a run leaves do not change what it reads. -/
theorem Run.state_foldl_read (log : List Record) (s : State) (ts : List Token) :
    (ts.foldl Run.read ⟨log, .ok s⟩).state = s.reads ts := by
  induction ts generalizing log s with
  | nil => rfl
  | cons t ts ih =>
      have hread : Run.read ⟨log, .ok s⟩ t =
          ⟨(s.step t).records.reverse ++ log, (s.step t).result⟩ := rfl
      rw [List.foldl_cons, hread]
      cases hr : (s.step t).result with
      | error e => rw [State.reads_cons_of_error hr, Run.foldl_read_of_error rfl]
      | ok s' => rw [State.reads_cons_of_ok hr]; exact ih _ s'

/-- A parse reads the tokens from the start and finishes in the state that is reached. -/
theorem parse_eq (ts : List Token) :
    parse ts = match State.start.reads ts with
      | .ok s => s.finish.result
      | .error e => .error e := by
  have hs : (Run.ofTokens ts).state = State.start.reads ts := Run.state_foldl_read [] _ ts
  unfold parse Run.finish
  rw [hs]
  cases State.start.reads ts with
  | ok s => rfl
  | error e => rfl

theorem parse_eq_outcome (ts : List Token) : parse ts = State.start.outcome ts := parse_eq ts

theorem parse_of_reads_ok {ts : List Token} {s : State} (h : State.start.reads ts = .ok s) :
    parse ts = s.finish.result := by
  rw [parse_eq, h]

theorem parse_of_reads_error {ts : List Token} {e : ParseError}
    (h : State.start.reads ts = .error e) : parse ts = .error e := by
  rw [parse_eq, h]

end StreamScript
