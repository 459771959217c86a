import StreamScript.Proofs.Unclosed

/-! # Completing what has been read

Tokens that have been read without an error can be completed.  From a place inside a statement some
token leads nearer to the end of the statement or of its header (`Point.exists_advances`,
`State.exists_step_remaining_lt`), so some tokens lead there
(`State.exists_reads_remaining_eq_zero`), and the frames stay as they are on the way.  A header is
completed by an empty block.  Then the open blocks are closed.

Only the bracket of that empty block can be too deep, and then at least `maxDepth` brackets of
blocks have been read before. -/

namespace StreamScript

open Point

variable {ts us : List Token} {s : State} {header : Header}

/-! ### The end of a statement -/

/-- The number of tokens from the expression in the slot to the end of the header, if the
expressions after it are single tokens. -/
def HeaderSlot.remaining : HeaderSlot → Nat
  | guarded _ => 1
  | init => 5
  | condition _ => 3
  | increment _ _ => 1

/-- The least number of tokens that end the statement, or its header if it has a block. -/
def Point.remaining : Point → Nat
  | statement | block _ => 0
  | declarationName .. => 2
  | declarationNext .. => 1
  | handleName .. | callDot .. => 5
  | handleOpening .. | callMethod .. => 4
  | handlePath .. | callOpening .. => 3
  | handleClosing .. | callClosing .. => 2
  | handleEnd .. | callEnd .. => 1
  | guardOpening _ => 3
  | forOpening => 7
  | expression slot _ => slot.remaining + 1
  | expressionEnd slot _ => slot.remaining

/-- Whether a move ends the statement or leaves fewer than `count` tokens to its end. -/
def Move.Advances (count : Nat) : Move → Prop
  | shift next | openParen next | closeParen next => next.remaining < count
  | finish _ => True
  | _ => False

theorem Point.eq_of_remaining_eq_zero {p : Point} (h : p.remaining = 0) :
    p = .statement ∨ ∃ header, p = .block header := by
  cases p with
  | statement => exact .inl rfl
  | block header => exact .inr ⟨header, rfl⟩
  | expressionEnd slot value => cases slot <;> cases h
  | _ => cases h

/-- Inside a statement some token leads nearer to its end. -/
theorem Point.exists_advances (p : Point) (h : p.remaining ≠ 0) :
    ∃ t, (p.move t).Advances p.remaining := by
  let name : Token := ⟨.identifier, "x", 0⟩
  let path : Token := ⟨.literal, "\"\"", 0⟩
  let opening : Token := ⟨.punctuation, Bracket.paren.opening, 0⟩
  let closing : Token := ⟨.punctuation, Bracket.paren.closing, 0⟩
  let semicolon : Token := ⟨.punctuation, ";", 0⟩
  cases p with
  | statement => exact absurd rfl h
  | block header => exact absurd rfl h
  | declarationName type names => exact ⟨name, Nat.lt_succ_self 1⟩
  | declarationNext type names => exact ⟨semicolon, trivial⟩
  | handleName type => exact ⟨name, Nat.lt_succ_self 4⟩
  | handleOpening type x => exact ⟨opening, Nat.lt_succ_self 3⟩
  | handlePath type x => exact ⟨path, Nat.lt_succ_self 2⟩
  | handleClosing type x y => exact ⟨closing, Nat.lt_succ_self 1⟩
  | handleEnd type x y => exact ⟨semicolon, trivial⟩
  | callDot target => exact ⟨⟨.operator, ".", 0⟩, Nat.lt_succ_self 4⟩
  | callMethod target => exact ⟨name, Nat.lt_succ_self 3⟩
  | callOpening target method => exact ⟨opening, Nat.lt_succ_self 2⟩
  | callClosing target method => exact ⟨closing, Nat.lt_succ_self 1⟩
  | callEnd target method => exact ⟨semicolon, trivial⟩
  | guardOpening guard => exact ⟨opening, Nat.lt_succ_self 2⟩
  | forOpening => exact ⟨opening, Nat.lt_succ_self 6⟩
  | expression slot count => exact ⟨name, Nat.lt_succ_self slot.remaining⟩
  | expressionEnd slot value =>
      cases slot with
      | guarded guard => exact ⟨closing, Nat.zero_lt_one⟩
      | init => exact ⟨semicolon, Nat.lt_succ_self 4⟩
      | condition i => exact ⟨semicolon, Nat.lt_succ_self 2⟩
      | increment i c => exact ⟨closing, Nat.zero_lt_one⟩

namespace State

theorem exists_step_remaining_lt (s : State) (h : s.point.remaining ≠ 0) :
    ∃ t s', (s.step t).result = .ok s' ∧ s'.frames = s.frames ∧
      s'.point.remaining < s.point.remaining := by
  obtain ⟨t, ht⟩ := s.point.exists_advances h
  cases hm : s.point.move t with
  | shift next =>
      rw [hm] at ht
      exact ⟨t, _, result_of_shift hm, rfl, ht⟩
  | openParen next =>
      rw [hm] at ht
      exact ⟨t, _, result_of_openParen hm, rfl, ht⟩
  | closeParen next =>
      rw [hm] at ht
      exact ⟨t, _, result_of_closeParen hm, rfl, ht⟩
  | finish node => exact ⟨t, _, result_of_finish hm, rfl, Nat.pos_of_ne_zero h⟩
  | _ =>
      rw [hm] at ht
      exact ht.elim

theorem exists_reads_remaining_eq_zero (s : State) :
    ∃ us s', s.reads us = .ok s' ∧ s'.frames = s.frames ∧ s'.point.remaining = 0 := by
  induction hn : s.point.remaining using Nat.strongRecOn generalizing s with
  | ind n ih =>
      by_cases hzero : s.point.remaining = 0
      · exact ⟨[], s, rfl, rfl, hzero⟩
      · obtain ⟨t, r, hr, hframes, hlt⟩ := s.exists_step_remaining_lt hzero
        obtain ⟨us, s', hus, hframes', hend⟩ := ih _ (hn ▸ hlt) r rfl
        exact ⟨t :: us, s', by rw [reads_cons_of_ok hr, hus], hframes'.trans hframes, hend⟩

end State

/-! ### The open blocks -/

theorem exists_accepted_of_statement (h : State.start.reads ts = .ok s)
    (hp : s.point = .statement) : ∃ us, Accepted (ts ++ us) := by
  have hus := closings_replicate s.frames.length
  exact ⟨_, (accepted_append_iff h hus).2 ⟨hp, List.length_replicate.symm⟩⟩

theorem depth_eq_of_block (h : State.start.reads ts = .ok s) (hp : s.point = .block header) :
    s.tracker.depth = s.frames.length := by
  obtain ⟨x, -, hx⟩ := exists_split_of_reads h
  refine hx.depth_eq ?_
  have hb := hx.begun
  rw [hp] at hb
  generalize x.current = current, x.opening = opening at hb
  cases hb with
  | block _ => rfl

/-- The bracket that opens an empty block. -/
def openingBrace : Token := ⟨.punctuation, Bracket.brace.opening, 0⟩

theorem exists_accepted_of_block (h : State.start.reads ts = .ok s) (hp : s.point = .block header)
    (hd : s.frames.length < maxDepth) : ∃ us, Accepted (ts ++ us) := by
  have hm : s.point.move openingBrace = .openBlock header := by rw [hp, move_block rfl]
  have hdepth : s.tracker.depth < maxDepth := by rw [depth_eq_of_block h hp]; exact hd
  have hread := State.reads_append_of_ok h [openingBrace]
  rw [State.reads_singleton, State.result_of_openBlock hm hdepth] at hread
  obtain ⟨us, hus⟩ := exists_accepted_of_statement hread rfl
  exact ⟨openingBrace :: us, by rwa [List.append_assoc] at hus⟩

theorem parse_openingBrace_of_le (h : State.start.reads ts = .ok s) (hp : s.point = .block header)
    (hd : maxDepth ≤ s.frames.length) :
    parse (ts ++ [openingBrace]) = .error ⟨.nestingTooDeep maxDepth, openingBrace.line⟩ := by
  have hm : s.point.move openingBrace = .openBlock header := by rw [hp, move_block rfl]
  have hdepth : maxDepth ≤ s.tracker.depth := by rw [depth_eq_of_block h hp]; exact hd
  exact parse_of_step_error h (State.result_of_openBlock_of_le hm hdepth) []

theorem Opened.length_le_countP {frames : List Frame} {blocks : List Token}
    (h : Opened ts frames blocks) :
    frames.length ≤ ts.countP (fun t => t.opens .brace) := by
  induction h with
  | nil => exact Nat.le_refl 0
  | block _ _ _ ho _ ih =>
      simp only [List.countP_append, List.countP_singleton, if_pos ho, List.length_cons]
      omega

theorem frames_length_le_countP (h : State.start.reads ts = .ok s) :
    s.frames.length ≤ ts.countP (fun t => t.opens .brace) := by
  obtain ⟨x, rfl, hx⟩ := exists_split_of_reads h
  have := hx.opened.length_le_countP
  simp only [Split.tokens, List.countP_append]
  omega

/-! ### Completions -/

/-- Tokens that have been read can be completed to a program, unless `maxDepth` blocks are open;
in any case they can be completed to a program, or to tokens that nest too deep. -/
theorem exists_completion (h : State.start.reads ts = .ok s) :
    (s.frames.length < maxDepth → ∃ us, Accepted (ts ++ us)) ∧
      ∃ us, Accepted (ts ++ us) ∨
        ∃ limit line, parse (ts ++ us) = .error ⟨.nestingTooDeep limit, line⟩ := by
  obtain ⟨us, s', hus, hframes, hend⟩ := s.exists_reads_remaining_eq_zero
  have hread : State.start.reads (ts ++ us) = .ok s' := by
    rw [State.reads_append_of_ok h, hus]
  rcases eq_of_remaining_eq_zero hend with hp | ⟨header, hp⟩
  · obtain ⟨vs, hvs⟩ := exists_accepted_of_statement hread hp
    rw [List.append_assoc] at hvs
    exact ⟨fun _ => ⟨_, hvs⟩, _, .inl hvs⟩
  · have hroom (hd : s.frames.length < maxDepth) : ∃ us, Accepted (ts ++ us) := by
      rw [← hframes] at hd
      obtain ⟨vs, hvs⟩ := exists_accepted_of_block hread hp hd
      rw [List.append_assoc] at hvs
      exact ⟨_, hvs⟩
    refine ⟨hroom, ?_⟩
    rcases Nat.lt_or_ge s.frames.length maxDepth with hd | hd
    · obtain ⟨vs, hvs⟩ := hroom hd
      exact ⟨vs, .inl hvs⟩
    · rw [← hframes] at hd
      have hdeep := parse_openingBrace_of_le hread hp hd
      rw [List.append_assoc] at hdeep
      exact ⟨_, .inr ⟨_, _, hdeep⟩⟩

theorem exists_reads_of_missing {expected : String} {line : Nat}
    (h : parse ts = .error ⟨.expectedToken expected none, line⟩) :
    ∃ s, State.start.reads ts = .ok s := by
  cases hr : State.start.reads ts with
  | ok s => exact ⟨s, rfl⟩
  | error e =>
      rw [parse_of_reads_error hr] at h
      cases h
      obtain ⟨before, t, after, r, -, hb, he⟩ := State.exists_step_of_reads_error hr
      obtain ⟨-, hfound, -⟩ := explains_of_step_error hb he
      cases hfound

/-- If a token is missing at the end of the tokens, then more tokens make a program of them, or at
least make them nest too deep.  With at most 127 brackets of blocks among the tokens they make a
program. -/
theorem exists_completion_of_missing (ts : List Token) (expected : String) (line : Nat)
    (h : parse ts = .error ⟨.expectedToken expected none, line⟩) :
    (ts.countP (fun t => t.opens .brace) ≤ 127 → ∃ us p, parse (ts ++ us) = .ok p) ∧
      ∃ us, (∃ p, parse (ts ++ us) = .ok p) ∨
        ∃ limit line, parse (ts ++ us) = .error ⟨.nestingTooDeep limit, line⟩ := by
  obtain ⟨s, hr⟩ := exists_reads_of_missing h
  have hcompletion := exists_completion hr
  have hframes := frames_length_le_countP hr
  refine ⟨fun hcount => hcompletion.1 ?_, hcompletion.2⟩
  calc s.frames.length ≤ 127 := Nat.le_trans hframes hcount
    _ < maxDepth := by decide

/-- `if (a) {` and then, on the second line, `while (!`. -/
def openGuard : List Token :=
  [⟨.keyword, "if", 1⟩, ⟨.punctuation, "(", 1⟩, ⟨.identifier, "a", 1⟩, ⟨.punctuation, ")", 1⟩,
    ⟨.punctuation, "\x7b", 1⟩, ⟨.keyword, "while", 2⟩, ⟨.punctuation, "(", 2⟩,
    ⟨.operator, "!", 2⟩]

theorem exists_completion_of_missing_openGuard :
    (parse openGuard = .error ⟨.expectedToken "expression" none, 2⟩ ∧
      openGuard.countP (fun t => t.opens .brace) ≤ 127) ∧
    ∃ us p, parse (openGuard ++ us) = .ok p := by
  have h : parse openGuard = .error ⟨.expectedToken "expression" none, 2⟩ := by rfl
  have hcount : openGuard.countP (fun t => t.opens .brace) ≤ 127 := by decide
  exact ⟨⟨h, hcount⟩, (exists_completion_of_missing openGuard _ _ h).1 hcount⟩

end StreamScript
