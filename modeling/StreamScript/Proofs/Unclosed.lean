import StreamScript.Proofs.Acceptance
import StreamScript.Proofs.FirstError

/-! # Blocks that are left open

A parse that blames an open bracket lacks nothing but closing brackets, one for each open block,
and the bracket that is blamed is that of the innermost block.  The main statement is
`unclosed_iff_and_blames_innermost`; it rests on `accepted_append_iff`, which says what closing
brackets do at the end of tokens that have been read. -/

namespace StreamScript

/-- Whether the tokens are a program. -/
def Accepted (ts : List Token) : Prop := ∃ p, parse ts = .ok p

/-- Whether the tokens end while a bracket is open. -/
def Unclosed (ts : List Token) : Prop :=
  ∃ bracket line, parse ts = .error ⟨.mismatchedBracket bracket, line⟩

/-- Whether the tokens are closing brackets of blocks, on whatever lines. -/
def Closings (us : List Token) : Prop := ∀ t ∈ us, t.closes .brace

/-- The token at `i` opens a block that is still open at the end, and what follows it is a program
by itself. -/
structure OpensInnermost (ts : List Token) (i : Nat) : Prop where
  opening : ∃ t, ts[i]? = some t ∧ t.opens .brace
  before : Unclosed (ts.take (i + 1))
  after : Accepted (ts.drop (i + 1))

/-! ### The last token of statements -/

theorem SpellsSimple.getLast_is {ts : List Token} {node : Node} (h : SpellsSimple ts node) :
    ∃ t, ts.getLast? = some t ∧ t.is .punctuation ";" := by
  cases h with
  | @declaration type semicolon ts names _ _ _ hs =>
      have hlast : (type :: ts ++ [semicolon]).getLast? = some semicolon := List.getLast?_concat
      exact ⟨semicolon, hlast, hs⟩
  | handle _ _ _ _ _ _ hs => exact ⟨_, rfl, hs⟩
  | call _ _ _ _ _ hs => exact ⟨_, rfl, hs⟩

theorem Spells.getLast_is {d : Nat} {ts : List Token} {nodes : List Node} {t : Token}
    (h : Spells d ts nodes) (ht : ts.getLast? = some t) : ¬ t.opens .brace := by
  have hother {mark : String} (hne : mark ≠ Bracket.brace.opening) (hm : t.is .punctuation mark) :
      ¬ t.opens .brace := by
    rw [Token.is_iff] at hm
    rw [Token.opens_iff]
    rintro ⟨-, hopening⟩
    exact hne (hm.2.symm.trans hopening)
  induction h with
  | nil => cases ht
  | @simple d ts us node nodes hs _ ih =>
      rw [List.getLast?_append] at ht
      cases hu : us.getLast? with
      | some u =>
          rw [hu] at ht ih
          exact ih ht
      | none =>
          obtain ⟨semicolon, hlast, hsemicolon⟩ := hs.getLast_is
          rw [hu, hlast] at ht
          cases ht
          exact hother (by decide) hsemicolon
  | @block d ts us vs opening closing header body nodes _ _ _ _ hc _ _ ih =>
      rw [List.getLast?_append, List.getLast?_cons] at ht
      cases hv : vs.getLast? with
      | some v =>
          rw [hv] at ht ih
          exact ih ht
      | none =>
          rw [hv] at ht
          cases ht
          exact hother (by decide) hc

/-! ### Closing brackets at the end -/

/-- Inside a statement a closing bracket is refused, except as the operand of an expression. -/
theorem Point.move_of_closing_of_ne {p : Point} {t : Token} (hp : p ≠ .statement)
    (ht : t.closes .brace) :
    p.move t = .refuse ∨ ∃ slot value, p.move t = .shift (.expressionEnd slot value) := by
  obtain ⟨hkind, htext⟩ := Token.closes_iff.1 ht
  cases p with
  | statement => exact absurd rfl hp
  | expression slot count =>
      refine .inr ⟨slot, negations count, move_expression_of_operand ?_⟩
      simp [Token.is_iff, hkind]
  | expressionEnd slot value =>
      cases slot <;> simp [move, onMark, onClosing, hkind, htext]
  | _ => simp [move, onMark, onKind, onOpening, onClosing, hkind, htext]

variable {ts us : List Token} {s s' : State} {t : Token}

theorem State.point_ne_of_closing (hp : s.point ≠ .statement) (ht : t.closes .brace)
    (h : (s.step t).result = .ok s') : s'.point ≠ .statement := by
  rcases Point.move_of_closing_of_ne hp ht with hm | ⟨slot, value, hm⟩
  · rw [result_of_refuse hm] at h
    cases h
  · rw [result_of_shift hm] at h
    cases h
    simp

theorem not_accepted_of_reads_error {e : ParseError} (h : State.start.reads ts = .error e) :
    ¬ Accepted ts := by
  rintro ⟨p, hp⟩
  rw [parse_of_reads_error h] at hp
  cases hp

theorem accepted_iff (h : State.start.reads ts = .ok s) :
    Accepted ts ↔ s.point = .statement ∧ s.frames = [] := by
  obtain ⟨x, -, hx⟩ := exists_split_of_reads h
  rw [Accepted, parse_of_reads_ok h, ← List.length_eq_zero_iff, ← hx.opened.length_eq,
    List.length_eq_zero_iff]
  constructor
  · rintro ⟨p, hp⟩
    by_cases hpoint : s.point = .statement
    · refine ⟨hpoint, ?_⟩
      rw [hx.finish_eq hpoint] at hp
      cases hb : x.blocks with
      | nil => rfl
      | cons brace blocks => rw [hb] at hp; cases hp
    · rw [State.finish_of_ne_statement hpoint] at hp
      cases hp
  · rintro ⟨hpoint, hb⟩
    rw [hx.finish_eq hpoint, hb]
    exact ⟨_, rfl⟩

/-- Closing brackets make a program of tokens that have been read exactly if a statement has just
ended and there is one bracket for each open block. -/
theorem accepted_append_iff (h : State.start.reads ts = .ok s) (hu : Closings us) :
    Accepted (ts ++ us) ↔ s.point = .statement ∧ s.frames.length = us.length := by
  induction us generalizing ts s with
  | nil =>
      rw [List.append_nil, accepted_iff h, List.length_nil, List.length_eq_zero_iff]
  | cons t us ih =>
      have ht := hu t List.mem_cons_self
      have hus : Closings us := fun u hmem => hu u (List.mem_cons_of_mem t hmem)
      cases hr : (s.step t).result with
      | error e =>
          have hread : State.start.reads (ts ++ t :: us) = .error e := by
            rw [State.reads_append_of_ok h, State.reads_cons_of_error hr]
          refine iff_of_false (not_accepted_of_reads_error hread) ?_
          rintro ⟨hp, hlen⟩
          have hm : s.point.move t = .closeBlock := by rw [hp, Point.move_of_closing ht]
          obtain ⟨frame, frames, hf⟩ := List.exists_cons_of_length_eq_add_one hlen
          rw [State.result_of_closeBlock hm hf] at hr
          cases hr
      | ok r =>
          have hread : State.start.reads (ts ++ [t]) = .ok r := by
            rw [State.reads_append_of_ok h, State.reads_singleton, hr]
          have hih := ih hread hus
          rw [List.append_assoc, List.singleton_append] at hih
          rw [hih, List.length_cons]
          by_cases hp : s.point = .statement
          · have hm : s.point.move t = .closeBlock := by rw [hp, Point.move_of_closing ht]
            cases hf : s.frames with
            | nil =>
                rw [State.result_of_closeBlock_of_nil hm hf] at hr
                cases hr
            | cons frame frames =>
                rw [State.result_of_closeBlock hm hf] at hr
                cases hr
                simp [hp]
          · have hp' := State.point_ne_of_closing hp ht hr
            simp [hp, hp']

theorem exists_reads_of_accepted_append (h : Accepted (ts ++ us)) :
    ∃ s, State.start.reads ts = .ok s := by
  cases hr : State.start.reads ts with
  | ok s => exact ⟨s, rfl⟩
  | error e => exact absurd h (not_accepted_of_reads_error (State.reads_append_of_error hr us))

/-! ### Blocks that are open at the end -/

theorem unclosed_iff (h : State.start.reads ts = .ok s) :
    Unclosed ts ↔ s.point = .statement ∧ s.frames ≠ [] := by
  obtain ⟨x, -, hx⟩ := exists_split_of_reads h
  have hlen := hx.opened.length_eq
  rw [Unclosed, parse_of_reads_ok h]
  constructor
  · rintro ⟨bracket, line, hm⟩
    by_cases hpoint : s.point = .statement
    · refine ⟨hpoint, ?_⟩
      intro hf
      rw [hf, List.length_nil, List.length_eq_zero_iff] at hlen
      rw [hx.finish_eq hpoint, hlen] at hm
      cases hm
    · rw [State.finish_of_ne_statement hpoint] at hm
      cases hm
  · rintro ⟨hpoint, hf⟩
    cases hb : x.blocks with
    | nil =>
        rw [hb, List.length_nil] at hlen
        exact absurd (List.length_eq_zero_iff.1 hlen.symm) hf
    | cons brace blocks =>
        rw [hx.finish_eq hpoint, hb]
        exact ⟨_, _, rfl⟩

/-- A step never fails by an open bracket, so tokens that leave one open have been read. -/
theorem exists_reads_of_unclosed (h : Unclosed ts) : ∃ s, State.start.reads ts = .ok s := by
  obtain ⟨bracket, line, h⟩ := h
  cases hr : State.start.reads ts with
  | ok s => exact ⟨s, rfl⟩
  | error e =>
      rw [parse_of_reads_error hr] at h
      cases h
      obtain ⟨before, t, after, r, -, hb, he⟩ := State.exists_step_of_reads_error hr
      exact absurd (explains_of_step_error hb he).2 id

theorem Unclosed.exists_reads (h : Unclosed ts) :
    ∃ s, State.start.reads ts = .ok s ∧ s.point = .statement ∧ s.frames ≠ [] := by
  obtain ⟨s, hr⟩ := exists_reads_of_unclosed h
  exact ⟨s, hr, (unclosed_iff hr).1 h⟩

/-! ### The missing brackets -/

theorem Unclosed.exists_accepted_append_iff (h : Unclosed ts) :
    ∃ k, 0 < k ∧ ∀ us, Closings us → (Accepted (ts ++ us) ↔ us.length = k) := by
  obtain ⟨s, hr, hp, hf⟩ := h.exists_reads
  refine ⟨s.frames.length, List.length_pos_iff.2 hf, ?_⟩
  intro us hus
  rw [accepted_append_iff hr hus]
  constructor
  · rintro ⟨-, hlen⟩
    exact hlen.symm
  · intro hlen
    exact ⟨hp, hlen.symm⟩

theorem unclosed_of_accepted_append (hne : us ≠ []) (hus : Closings us)
    (h : Accepted (ts ++ us)) : Unclosed ts := by
  obtain ⟨s, hr⟩ := exists_reads_of_accepted_append h
  obtain ⟨hp, hlen⟩ := (accepted_append_iff hr hus).1 h
  refine (unclosed_iff hr).2 ⟨hp, ?_⟩
  rw [← List.length_pos_iff, hlen]
  exact List.length_pos_iff.2 hne

theorem closings_replicate (k : Nat) :
    Closings (List.replicate k ⟨.punctuation, Bracket.brace.closing, 0⟩) := by
  intro t ht
  rw [List.eq_of_mem_replicate ht]
  rfl

/-! ### The innermost open block -/

theorem Opened.exists_eq_append {frames : List Frame} {brace : Token} {blocks : List Token}
    (h : Opened ts frames (brace :: blocks)) :
    ∃ before, ts = before ++ [brace] ∧ brace.opens .brace := by
  cases h with
  | block _ _ _ ho _ => exact ⟨_, rfl, ho⟩

theorem Split.Reaches.opensInnermost {x : Split} {brace : Token} {blocks before : List Token}
    (h : x.Reaches s) (hp : s.point = .statement) (hb : x.blocks = brace :: blocks)
    (ho : x.outer = before ++ [brace]) (hopening : brace.opens .brace) :
    OpensInnermost x.tokens before.length := by
  have hlen : x.outer.length = before.length + 1 := by rw [ho, List.length_append]; rfl
  have htokens : x.tokens = x.outer ++ x.level := by
    rw [Split.tokens, (h.current_of_statement hp).1, List.append_nil]
  refine ⟨⟨brace, ?_, hopening⟩, ?_, ?_⟩
  · rw [htokens, ho]
    simp
  · have houter := (unclosed_iff h.opened.reads).2
    rw [htokens, ← hlen, List.take_left']
    · refine houter ⟨rfl, ?_⟩
      intro hf
      have hblocks := h.opened.length_eq
      simp only at hf
      rw [hf, hb] at hblocks
      cases hblocks
    · rfl
  · rw [htokens, ← hlen, List.drop_left']
    · exact ⟨_, parse_of_spells (h.spells.mono (Nat.zero_le _))⟩
    · rfl

theorem OpensInnermost.exists_reads_take {i : Nat} (h : OpensInnermost ts i) :
    ∃ r, State.start.reads (ts.take (i + 1)) = .ok r ∧ r.point = .statement ∧ r.level = [] := by
  obtain ⟨⟨t, hget, hopening⟩, hbefore, -⟩ := h
  obtain ⟨r, hread, hp, -⟩ := hbefore.exists_reads
  obtain ⟨y, hy, hyr⟩ := exists_split_of_reads hread
  have hlast : (ts.take (i + 1)).getLast? = some t := by
    rw [List.getLast?_take]
    simp [hget]
  -- the last token is a bracket that opens a block, so nothing has been read since
  have hlevel : y.level = [] := by
    cases hl : y.level.getLast? with
    | none => exact List.getLast?_eq_none_iff.1 hl
    | some u =>
        rw [← hy, Split.tokens, (hyr.current_of_statement hp).1, List.append_nil,
          List.getLast?_append, hl] at hlast
        cases hlast
        exact absurd hopening (hyr.spells.getLast_is hl)
  have hspells := hyr.spells
  rw [hlevel] at hspells
  exact ⟨r, hread, hp, List.reverse_eq_nil_iff.1 (hspells.unique (Spells.nil (d := 0)))⟩

/-- Reading the program that follows the bracket gives its statements as those of the block. -/
theorem OpensInnermost.level_eq {i : Nat} {p : Program} (h : OpensInnermost ts i)
    (hr : State.start.reads ts = .ok s) (hafter : parse (ts.drop (i + 1)) = .ok p) :
    s.level.reverse = p.statements := by
  obtain ⟨r, hread, hp, hlevel⟩ := h.exists_reads_take
  have hrest : r.reads (ts.drop (i + 1)) = .ok s := by
    rw [← State.reads_append_of_ok hread, List.take_append_drop, hr]
  obtain ⟨point, level, frames, tracker, line⟩ := r
  simp only at hp hlevel
  subst hp hlevel
  rcases (spells_of_parse_eq_ok hafter).reads [] frames tracker line with hok | ⟨-, l, herror⟩
  · rw [hok] at hrest
    cases hrest
    simp
  · rw [herror] at hrest
    cases hrest

/-- The bracket after which a program follows is that of the innermost open block: as many tokens
follow it as spell the statements that have been read in that block. -/
theorem OpensInnermost.outer_length {x : Split} {i : Nat} (h : OpensInnermost ts i)
    (hr : State.start.reads ts = .ok s) (hx : x.Reaches s) (hp : s.point = .statement)
    (htokens : x.tokens = ts) : i + 1 = x.outer.length := by
  obtain ⟨p, hafter⟩ := h.after
  obtain ⟨t, hget, -⟩ := h.opening
  have hspells := hx.spells
  rw [h.level_eq hr hafter] at hspells
  have hlen := hspells.length_eq (spells_of_parse_eq_ok hafter)
  have hi : i < ts.length := (List.getElem?_eq_some_iff.1 hget).1
  have htotal : ts.length = x.outer.length + x.level.length := by
    rw [← htokens, Split.tokens, (hx.current_of_statement hp).1, List.append_nil,
      List.length_append]
  rw [List.length_drop] at hlen
  omega

theorem OpensInnermost.unique {i j : Nat} (h : OpensInnermost ts i) (h' : OpensInnermost ts j)
    (hu : Unclosed ts) : i = j := by
  obtain ⟨s, hr, hp, -⟩ := hu.exists_reads
  obtain ⟨x, htokens, hx⟩ := exists_split_of_reads hr
  have hi := h.outer_length hr hx hp htokens
  have hj := h'.outer_length hr hx hp htokens
  omega

theorem blames_innermost {bracket : Bracket} {line : Nat}
    (h : parse ts = .error ⟨.mismatchedBracket bracket, line⟩) :
    bracket = .brace ∧ ∃ i, ∃ hi : i < ts.length, OpensInnermost ts i ∧ line = ts[i].line := by
  have hunclosed : Unclosed ts := ⟨bracket, line, h⟩
  obtain ⟨s, hr, hp, -⟩ := hunclosed.exists_reads
  obtain ⟨x, htokens, hx⟩ := exists_split_of_reads hr
  rw [parse_of_reads_ok hr, hx.finish_eq hp] at h
  cases hb : x.blocks with
  | nil =>
      rw [hb] at h
      cases h
  | cons brace blocks =>
      rw [hb] at h
      cases h
      have hopened := hx.opened
      rw [hb] at hopened
      obtain ⟨before, ho, hopening⟩ := hopened.exists_eq_append
      have hinner := hx.opensInnermost hp hb ho hopening
      rw [htokens] at hinner
      have hget : ts[before.length]? = some brace := by
        rw [← htokens, Split.tokens, ho]
        simp
      obtain ⟨hi, hbrace⟩ := List.getElem?_eq_some_iff.1 hget
      exact ⟨rfl, before.length, hi, hinner, by rw [hbrace]⟩

/-- A parse blames an open bracket if and only if some closing brackets make the tokens a program.
The bracket is then one of a block, the number of closing brackets is determined, on whatever lines
they stand, and the line is that of the innermost open block, which is the only bracket that leaves
a block open and is followed by a program. -/
theorem unclosed_iff_and_blames_innermost (ts : List Token) :
    (Unclosed ts ↔ ∃ us, us ≠ [] ∧ Closings us ∧ Accepted (ts ++ us)) ∧
      ∀ bracket line, parse ts = .error ⟨.mismatchedBracket bracket, line⟩ →
        bracket = .brace ∧
        (∃ k, 0 < k ∧ ∀ us, Closings us → (Accepted (ts ++ us) ↔ us.length = k)) ∧
        ∃ i, ∃ hi : i < ts.length, OpensInnermost ts i ∧ (∀ j, OpensInnermost ts j → j = i) ∧
          line = ts[i].line := by
  refine ⟨⟨?_, ?_⟩, ?_⟩
  · intro h
    obtain ⟨k, hk, hclose⟩ := h.exists_accepted_append_iff
    have hus := closings_replicate k
    refine ⟨_, ?_, hus, (hclose _ hus).2 List.length_replicate⟩
    rw [ne_eq, List.replicate_eq_nil_iff]
    omega
  · rintro ⟨us, hne, hus, h⟩
    exact unclosed_of_accepted_append hne hus h
  · intro bracket line h
    have hunclosed : Unclosed ts := ⟨bracket, line, h⟩
    obtain ⟨hbracket, i, hi, hinner, hline⟩ := blames_innermost h
    refine ⟨hbracket, hunclosed.exists_accepted_append_iff, i, hi, hinner, ?_, hline⟩
    intro j hj
    exact hj.unique hinner hunclosed

/-- `while (a) {`, `if (b) {`, `}` and `if (c) {`, each on a line of its own. -/
def twoOpenBlocks : List Token :=
  [⟨.keyword, "while", 1⟩, ⟨.punctuation, "(", 1⟩, ⟨.identifier, "a", 1⟩, ⟨.punctuation, ")", 1⟩,
    ⟨.punctuation, "\x7b", 1⟩, ⟨.keyword, "if", 2⟩, ⟨.punctuation, "(", 2⟩, ⟨.identifier, "b", 2⟩,
    ⟨.punctuation, ")", 2⟩, ⟨.punctuation, "\x7b", 2⟩, ⟨.punctuation, "\x7d", 3⟩,
    ⟨.keyword, "if", 4⟩, ⟨.punctuation, "(", 4⟩, ⟨.identifier, "c", 4⟩, ⟨.punctuation, ")", 4⟩,
    ⟨.punctuation, "\x7b", 4⟩]

theorem unclosed_iff_and_blames_innermost_twoOpenBlocks :
    parse twoOpenBlocks = .error ⟨.mismatchedBracket .brace, 4⟩ ∧
      (∃ k, 0 < k ∧ ∀ us, Closings us → (Accepted (twoOpenBlocks ++ us) ↔ us.length = k)) ∧
      ∃ i, ∃ hi : i < twoOpenBlocks.length, OpensInnermost twoOpenBlocks i ∧
        (∀ j, OpensInnermost twoOpenBlocks j → j = i) ∧ 4 = twoOpenBlocks[i].line := by
  have h : parse twoOpenBlocks = .error ⟨.mismatchedBracket .brace, 4⟩ := by rfl
  obtain ⟨-, hblames⟩ := unclosed_iff_and_blames_innermost twoOpenBlocks
  obtain ⟨-, hclose, hinner⟩ := hblames _ _ h
  exact ⟨h, hclose, hinner⟩

end StreamScript
