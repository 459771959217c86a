import StreamScript.Proofs.Reached

/-! # The first error

An error that names a token is *definite*: it is settled at one token, whatever follows.
`exists_unique_settledAt` says which token that is, that the error blames its line and its text,
and what the tokens before it parse to.  The other errors belong to the end of the tokens, and
more tokens can mend them. -/

namespace StreamScript

/-- Whether an error names a token that stands where it should not, or is too deep. -/
def ErrorKind.Definite : ErrorKind → Prop
  | expectedToken _ found => found ≠ none
  | unexpectedToken _ => True
  | mismatchedBracket _ => False
  | nestingTooDeep _ => True

/-- Whether a parse fails with a definite error. -/
def DefiniteError (r : Except ParseError Program) : Prop := ∃ e, r = .error e ∧ e.kind.Definite

/-- The token at `p` settles the error `e`: the tokens before it have no definite error, and with
it every continuation fails with `e`. -/
structure SettledAt (ts : List Token) (e : ParseError) (p : Nat) : Prop where
  before : ¬ DefiniteError (parse (ts.take p))
  after : ∀ us, parse (ts.take (p + 1) ++ us) = .error e

/-- What an error says of the token `t` that settles it, and what the tokens `before` it parse to:
a requirement that `t` does not meet is missing at the end of them, a token that begins no
statement follows whole statements, and a token that is too deep stands inside a statement. -/
def ErrorKind.Explains (before : List Token) (t : Token) : ErrorKind → Prop
  | expectedToken expected found => found = some t.text ∧ ∃ last, before.getLast? = some last ∧
      parse before = .error ⟨.expectedToken expected none, last.line⟩
  | unexpectedToken text => text = t.text ∧ ((∃ p, parse before = .ok p) ∨
      ∃ bracket line, parse before = .error ⟨.mismatchedBracket bracket, line⟩)
  | mismatchedBracket _ => False
  | nestingTooDeep _ => ∃ expected line, parse before = .error ⟨.expectedToken expected none, line⟩

namespace State

variable {s : State} {t : Token} {e : ParseError}

theorem not_definiteError_finish (s : State) : ¬ DefiniteError s.finish.result := by
  rintro ⟨e, he, hd⟩
  by_cases hp : s.point = .statement
  · cases hi : s.tracker.innermost with
    | none =>
        rw [finish_of_innermost_none hp hi] at he
        cases he
    | some entry =>
        rw [finish_of_innermost hp hi] at he
        cases he
        exact hd
  · rw [finish_of_ne_statement hp] at he
    cases he
    exact hd rfl

/-- Between statements a token fails only if it begins no statement; inside one it fails if it is
not what the point expects, or if it is too deep. -/
theorem cases_of_step_error {x : Split} (hx : x.Reaches s) (h : (s.step t).result = .error e) :
    (s.point = .statement ∧ e = ⟨.unexpectedToken t.text, t.line⟩) ∨
      (s.point ≠ .statement ∧ (e = s.unmet (some t.text) t.line ∨
        e = ⟨.nestingTooDeep maxDepth, t.line⟩)) := by
  have hm := hx.begun.extends t
  have hpoint := hx.current_eq_nil_iff
  cases rejects_of_step h with
  | noStatement hmove =>
      rw [hmove] at hm
      exact .inl ⟨hpoint.1 hm, rfl⟩
  | closeBlock hmove hf =>
      rw [hmove] at hm
      exact .inl ⟨hpoint.1 hm.1, rfl⟩
  | refuse hmove =>
      rw [hmove] at hm
      exact .inr ⟨mt hpoint.2 hm, .inl rfl⟩
  | openBlock hmove hd =>
      rw [hmove] at hm
      obtain ⟨-, hh, -⟩ := hm
      exact .inr ⟨mt hpoint.2 hh.ne_nil, .inr rfl⟩
  | overlong hmove =>
      rw [hmove] at hm
      exact .inr ⟨mt hpoint.2 hm, .inr rfl⟩

end State

variable {ts before after : List Token} {t : Token} {s : State} {e : ParseError}

theorem not_definiteError_of_reads_ok (h : State.start.reads ts = .ok s) :
    ¬ DefiniteError (parse ts) := by
  rw [parse_of_reads_ok h]
  exact s.not_definiteError_finish

theorem line_eq_of_getLast? {last : Token} (h : State.start.reads ts = .ok s)
    (hl : ts.getLast? = some last) : s.line = last.line := by
  obtain ⟨us, rfl⟩ := List.getLast?_eq_some_iff.1 hl
  rw [State.line_of_reads h, lineAfter_append]
  rfl

theorem exists_step_of_definite (h : parse ts = .error e) (hd : e.kind.Definite) :
    ∃ before t after s, ts = before ++ t :: after ∧ State.start.reads before = .ok s ∧
      (s.step t).result = .error e := by
  cases hr : State.start.reads ts with
  | ok s => exact absurd ⟨e, h, hd⟩ (not_definiteError_of_reads_ok hr)
  | error e' =>
      rw [parse_of_reads_error hr] at h
      cases h
      exact State.exists_step_of_reads_error hr

theorem parse_of_step_error (hs : State.start.reads before = .ok s)
    (he : (s.step t).result = .error e) (us : List Token) :
    parse (before ++ t :: us) = .error e := by
  apply parse_of_reads_error
  rw [State.reads_append_of_ok hs, State.reads_cons_of_error he]

theorem explains_of_step_error (hs : State.start.reads before = .ok s)
    (he : (s.step t).result = .error e) : e.line = t.line ∧ e.kind.Explains before t := by
  obtain ⟨x, hx, hreach⟩ := exists_split_of_reads hs
  have hparse := parse_of_reads_ok hs
  rcases State.cases_of_step_error hreach he with ⟨hp, rfl⟩ | ⟨hp, hinside⟩
  · refine ⟨rfl, rfl, ?_⟩
    rw [hparse]
    cases hi : s.tracker.innermost with
    | none => exact .inl ⟨_, State.finish_of_innermost_none hp hi⟩
    | some entry => exact .inr ⟨entry.1, entry.2, State.finish_of_innermost hp hi⟩
  · rw [State.finish_of_ne_statement hp] at hparse
    rcases hinside with rfl | rfl
    · have hne : before ≠ [] := by
        intro hnil
        rw [hnil] at hs
        cases hs
        exact hp rfl
      have hlast := List.getLast?_eq_some_getLast hne
      refine ⟨rfl, rfl, before.getLast hne, hlast, ?_⟩
      rw [hparse, State.unmet, line_eq_of_getLast? hs hlast]
    · exact ⟨rfl, _, _, hparse⟩

/-- Only the first token that cannot be taken settles an error. -/
theorem SettledAt.eq_length {p : Nat} (h : SettledAt (before ++ t :: after) e p)
    (hd : e.kind.Definite) (hs : State.start.reads before = .ok s)
    (he : (s.step t).result = .error e) : p = before.length := by
  rcases Nat.lt_trichotomy p before.length with hlt | heq | hgt
  · have hpre : before = before.take (p + 1) ++ before.drop (p + 1) := by simp
    have htake : (before ++ t :: after).take (p + 1) = before.take (p + 1) :=
      List.take_append_of_le_length hlt
    have hparse := h.after []
    rw [List.append_nil, htake] at hparse
    rw [hpre] at hs
    obtain ⟨r, hr, -⟩ := State.exists_reads_of_append hs
    exact absurd ⟨e, hparse, hd⟩ (not_definiteError_of_reads_ok hr)
  · exact heq
  · obtain ⟨k, rfl⟩ : ∃ k, p = before.length + (k + 1) := ⟨p - before.length - 1, by omega⟩
    have hparse := parse_of_step_error hs he (after.take k)
    refine absurd ?_ h.before
    rw [List.take_length_add_append, List.take_succ_cons]
    exact ⟨e, hparse, hd⟩

/-- A definite error is settled at exactly one token.  It blames the line of that token, names its
text, and agrees with what the tokens before it lack. -/
theorem exists_unique_settledAt (ts : List Token) (e : ParseError) (h : parse ts = .error e)
    (hd : e.kind.Definite) :
    ∃ p, ∃ hp : p < ts.length, SettledAt ts e p ∧ (∀ q, SettledAt ts e q → q = p) ∧
      e.line = ts[p].line ∧ e.kind.Explains (ts.take p) ts[p] := by
  obtain ⟨before, t, after, s, rfl, hs, he⟩ := exists_step_of_definite h hd
  have hp : before.length < (before ++ t :: after).length := by simp
  have hget : (before ++ t :: after)[before.length] = t := by simp
  have htake : (before ++ t :: after).take before.length = before := by simp
  have htake' : (before ++ t :: after).take (before.length + 1) = before ++ [t] := by
    rw [List.take_length_add_append]
    rfl
  refine ⟨before.length, hp, ⟨?_, ?_⟩, ?_, ?_⟩
  · rw [htake]
    exact not_definiteError_of_reads_ok hs
  · intro us
    rw [htake', List.append_assoc]
    exact parse_of_step_error hs he us
  · intro q hq
    exact hq.eq_length hd hs he
  · rw [hget, htake]
    exact explains_of_step_error hs he

/-- `if (a) {` and then, on the second line, `int` with `;` on the third. -/
def missingName : List Token :=
  [⟨.keyword, "if", 1⟩, ⟨.punctuation, "(", 1⟩, ⟨.identifier, "a", 1⟩, ⟨.punctuation, ")", 1⟩,
    ⟨.punctuation, "\x7b", 1⟩, ⟨.keyword, "int", 2⟩, ⟨.punctuation, ";", 3⟩]

/-- The error about the name that is missing. -/
def missingNameError : ParseError :=
  ⟨.expectedToken "identifier in variable declaration" (some ";"), 3⟩

theorem exists_unique_settledAt_missingName :
    (parse missingName = .error missingNameError ∧ missingNameError.kind.Definite) ∧
      ∃ p, ∃ hp : p < missingName.length, SettledAt missingName missingNameError p ∧
        (∀ q, SettledAt missingName missingNameError q → q = p) ∧
        missingNameError.line = missingName[p].line ∧
        missingNameError.kind.Explains (missingName.take p) missingName[p] := by
  have h : parse missingName = .error missingNameError := by rfl
  have hd : missingNameError.kind.Definite := by simp [missingNameError, ErrorKind.Definite]
  exact ⟨⟨h, hd⟩, exists_unique_settledAt missingName missingNameError h hd⟩

end StreamScript
