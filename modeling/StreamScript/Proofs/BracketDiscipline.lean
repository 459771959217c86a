import StreamScript.Proofs.Unclosed
import StreamScript.Proofs.WellNested

/-! # The discipline of brackets

At every place of a run the tracker holds the brackets of the open blocks, each with the line of its
token, and above them at most the round bracket of the statement that is being read
(`Split.Disciplined`).  So a closing bracket always takes off what was put there for the same block
or statement, and the records of brackets can be completed to a well nested word.

The argument is about one step, `Split.Reaches.turns`: the records of a step are a turn of the open
brackets.  `Recorded` is what holds of the records of a run so far, and each turn keeps it. -/

namespace StreamScript

open State

variable {x : Split} {s s' : State} {t : Token} {ts : List Token} {log rs us : List Record}
  {es es' : List (Bracket × Nat)} {count : Nat}

/-- The brackets of at most `count` blocks, and above them at most one round bracket. -/
def Layered (count : Nat) (es : List (Bracket × Nat)) : Prop :=
  ∃ parens braces : List Nat, parens.length ≤ 1 ∧ braces.length ≤ count ∧
    es = parens.map (Bracket.paren, ·) ++ braces.map (Bracket.brace, ·)

/-- The brackets in a state, where the tokens that were read are split as in `x`. -/
structure Split.Disciplined (x : Split) (s : State) : Prop where
  /-- There is one bracket for each open block, the last token before the block's statements. -/
  opened : Opened x.outer s.frames x.blocks
  /-- At most one round bracket is open, in the statement that is being read. -/
  begun : s.point.Begun x.current x.opening
  tracker : s.tracker = .ofEntries
    ((x.opening.map fun t => (Bracket.paren, t.line)).toList ++ braceEntries x.blocks)
  room : x.blocks.length ≤ maxDepth
  /-- A round bracket that is closed is the one of the statement. -/
  closeParen : ∀ t next, s.point.move t = .closeParen next → ∃ o, x.opening = some o ∧
    s.tracker.pop .paren = (some (.paren, o.line), .ofEntries (braceEntries x.blocks))
  /-- A block that is closed is the innermost one. -/
  closeBlock : ∀ t frame frames, s.point.move t = .closeBlock → s.frames = frame :: frames →
    ∃ brace blocks, x.blocks = brace :: blocks ∧
      s.tracker.pop .brace = (some (.brace, brace.line), .ofEntries (braceEntries blocks))
  /-- A block that is opened is the innermost one, also if it is too deep. -/
  openBlock : ∀ t header, s.point.move t = .openBlock header →
    (s.opened .brace t.line).tracker = .ofEntries (braceEntries (t :: x.blocks)) ∧
      (s.opened .brace t.line).tracker.innermost = some (.brace, t.line)

/-! ### Places of a run -/

theorem Opened.length_le {frames : List Frame} {blocks : List Token}
    (h : Opened ts frames blocks) : frames.length ≤ maxDepth := by
  cases h with
  | nil => exact Nat.zero_le _
  | block _ _ _ _ hlt => exact hlt

namespace Split.Reaches

theorem blocks_length_le (h : x.Reaches s) : x.blocks.length ≤ maxDepth := by
  rw [h.opened.length_eq]
  exact h.opened.length_le

theorem layered (h : x.Reaches s) : Layered maxDepth x.entries := by
  refine ⟨(x.opening.map Token.line).toList, x.blocks.map Token.line, ?_, ?_, ?_⟩
  · cases x.opening <;> simp
  · rw [List.length_map]
    exact h.blocks_length_le
  · cases ho : x.opening <;> simp [entries, braceEntries, ho]

/-- With no round bracket open, the open brackets are those of blocks. -/
theorem tracker_of_opening_none (h : x.Reaches s) (ho : x.opening = none) :
    s.tracker = .ofEntries (braceEntries x.blocks) := by
  rw [h.tracker, entries, ho]
  rfl

theorem tracker_of_opening {o : Token} (h : x.Reaches s) (ho : x.opening = some o) :
    s.tracker = .ofEntries ((.paren, o.line) :: braceEntries x.blocks) := by
  rw [h.tracker, entries, ho]
  rfl

theorem pop_of_closeParen {next : Point} (h : x.Reaches s)
    (hm : s.point.move t = .closeParen next) : ∃ o, x.opening = some o ∧
      s.tracker.pop .paren = (some (.paren, o.line), .ofEntries (braceEntries x.blocks)) := by
  have hx := h.begun.extends t
  rw [hm] at hx
  obtain ⟨⟨o, ho⟩, -⟩ := hx
  exact ⟨o, ho, by rw [h.tracker_of_opening ho, Tracker.pop_ofEntries_cons]⟩

theorem pop_of_closeBlock {frame : Frame} {frames : List Frame} (h : x.Reaches s)
    (hm : s.point.move t = .closeBlock) (hf : s.frames = frame :: frames) :
    ∃ brace blocks, x.opening = none ∧ x.blocks = brace :: blocks ∧
      s.tracker.pop .brace = (some (.brace, brace.line), .ofEntries (braceEntries blocks)) := by
  have hx := h.begun.extends t
  rw [hm] at hx
  obtain ⟨-, ho, -⟩ := hx
  have hlen := h.opened.length_eq
  rw [hf, List.length_cons] at hlen
  obtain ⟨brace, blocks, hb⟩ := List.exists_cons_of_length_eq_add_one hlen
  refine ⟨brace, blocks, ho, hb, ?_⟩
  rw [h.tracker_of_opening_none ho, hb, braceEntries_cons, Tracker.pop_ofEntries_cons]

theorem disciplined (h : x.Reaches s) : x.Disciplined s := by
  refine ⟨h.opened, h.begun, h.tracker, h.blocks_length_le, fun t next hm => ?_,
    fun t frame frames hm hf => ?_, fun t header hm => ?_⟩
  · exact h.pop_of_closeParen hm
  · obtain ⟨brace, blocks, -, hb, hpop⟩ := h.pop_of_closeBlock hm hf
    exact ⟨brace, blocks, hb, hpop⟩
  · have hx := h.begun.extends t
    rw [hm] at hx
    have htracker := h.tracker_of_opening_none hx.1
    refine ⟨?_, rfl⟩
    show s.tracker.push .brace t.line = .ofEntries ((.brace, t.line) :: braceEntries x.blocks)
    rw [htracker, Tracker.push_ofEntries]

end Split.Reaches

/-! ### One step -/

/-- The records of a step are a turn of the brackets `es`, and it leads to those that are open in
the next state. -/
def State.StepTurns (s : State) (t : Token) (es : List (Bracket × Nat)) : Prop :=
  ∃ es', Turns es (s.step t).records es' ∧ Layered (maxDepth + 1) es' ∧
    ∀ s', (s.step t).result = .ok s' → s'.tracker = .ofEntries es'

theorem layered_braceEntries {blocks : List Token} (h : blocks.length ≤ count) :
    Layered count (braceEntries blocks) :=
  ⟨[], blocks.map Token.line, Nat.zero_le _, by rwa [List.length_map], by simp [braceEntries]⟩

theorem Layered.succ (h : Layered count es) : Layered (count + 1) es := by
  obtain ⟨parens, braces, hp, hb, he⟩ := h
  exact ⟨parens, braces, hp, Nat.le_succ_of_le hb, he⟩

namespace Split.Reaches

/-- A step that has no record of a bracket leaves the tracker as it is. -/
theorem turns_of_keep (h : x.Reaches s) (hrs : ∀ r ∈ (s.step t).records, r.isBracket = false)
    (htracker : ∀ s', (s.step t).result = .ok s' → s'.tracker = s.tracker) :
    s.StepTurns t x.entries :=
  ⟨x.entries, .keep hrs, h.layered.succ, fun s' hs => (htracker s' hs).trans h.tracker⟩

theorem turns_of_openParen {next : Point} (h : x.Reaches s)
    (hm : s.point.move t = .openParen next) : s.StepTurns t x.entries := by
  have hx := h.begun.extends t
  rw [hm] at hx
  have hroom := h.blocks_length_le
  refine ⟨(.paren, t.line) :: x.entries, ?_, ⟨[t.line], x.blocks.map Token.line, ?_, ?_, ?_⟩,
    fun s' hs => ?_⟩
  · rw [records_of_openParen hm]
    exact .opening
  · exact Nat.le_refl 1
  · rw [List.length_map]
    omega
  · simp [entries, hx.1, braceEntries]
  · rw [result_of_openParen hm, h.tracker] at hs
    cases hs
    exact Tracker.push_ofEntries

theorem turns_of_closeParen {next : Point} (h : x.Reaches s)
    (hm : s.point.move t = .closeParen next) : s.StepTurns t x.entries := by
  obtain ⟨o, ho, hpop⟩ := h.pop_of_closeParen hm
  have hentries : x.entries = (.paren, o.line) :: braceEntries x.blocks := by
    rw [entries, ho]
    rfl
  refine ⟨braceEntries x.blocks, ?_, (layered_braceEntries h.blocks_length_le).succ,
    fun s' hs => ?_⟩
  · rw [records_of_closeParen hm (by rw [hpop]), hentries]
    exact .closing
  · rw [result_of_closeParen hm, hpop] at hs
    cases hs
    rfl

theorem turns_of_openBlock {header : Header} (h : x.Reaches s)
    (hm : s.point.move t = .openBlock header) : s.StepTurns t x.entries := by
  have hx := h.begun.extends t
  rw [hm] at hx
  have hentries : x.entries = braceEntries x.blocks := by
    rw [entries, hx.1]
    rfl
  refine ⟨(.brace, t.line) :: x.entries, ?_, ?_, fun s' hs => ?_⟩
  · rw [records_of_openBlock hm]
    exact .opening
  · rw [hentries, ← braceEntries_cons]
    exact layered_braceEntries (Nat.succ_le_succ h.blocks_length_le)
  · rcases Nat.lt_or_ge s.tracker.depth maxDepth with hd | hd
    · rw [result_of_openBlock hm hd, h.tracker] at hs
      cases hs
      exact Tracker.push_ofEntries
    · rw [result_of_openBlock_of_le hm hd] at hs
      cases hs

theorem turns_of_closeBlock {frame : Frame} {frames : List Frame} (h : x.Reaches s)
    (hm : s.point.move t = .closeBlock) (hf : s.frames = frame :: frames) :
    s.StepTurns t x.entries := by
  obtain ⟨brace, blocks, ho, hb, hpop⟩ := h.pop_of_closeBlock hm hf
  have hentries : x.entries = (.brace, brace.line) :: braceEntries blocks := by
    rw [entries, ho, hb]
    rfl
  have hroom := h.blocks_length_le
  rw [hb, List.length_cons] at hroom
  refine ⟨braceEntries blocks, ?_, layered_braceEntries (by omega), fun s' hs => ?_⟩
  · rw [records_of_closeBlock hm hf (by rw [hpop]), hentries]
    exact .closing
  · rw [result_of_closeBlock hm hf, hpop] at hs
    cases hs
    rfl

/-- The records of every step are a turn of the open brackets. -/
theorem turns (h : x.Reaches s) (t : Token) : s.StepTurns t x.entries := by
  rcases s.step_cases t with ⟨r, hr, htakes⟩ | ⟨e, he, hrejects⟩
  · have hkeep (ht : r.tracker = s.tracker) (s' : State) (hs : (s.step t).result = .ok s') :
        s'.tracker = s.tracker := by
      rw [hr] at hs
      cases hs
      exact ht
    cases htakes with
    | start hm =>
        exact h.turns_of_keep (by simp [records_of_start hm, Record.isBracket]) (hkeep rfl)
    | shift hm => exact h.turns_of_keep (by simp [records_of_shift hm]) (hkeep rfl)
    | finish hm => exact h.turns_of_keep (by simp [records_of_finish hm]) (hkeep rfl)
    | openParen hm => exact h.turns_of_openParen hm
    | closeParen hm => exact h.turns_of_closeParen hm
    | openBlock hm _ => exact h.turns_of_openBlock hm
    | closeBlock hm hf => exact h.turns_of_closeBlock hm hf
  · have hnone (s' : State) (hs : (s.step t).result = .ok s') : s'.tracker = s.tracker := by
      rw [he] at hs
      cases hs
    cases hrejects with
    | noStatement hm =>
        exact h.turns_of_keep (by simp [records_of_noStatement hm, Record.isBracket]) hnone
    | closeBlock hm hf =>
        exact h.turns_of_keep (by simp [records_of_closeBlock_of_nil hm hf, Record.isBracket])
          hnone
    | refuse hm => exact h.turns_of_keep (by simp [records_of_refuse hm]) hnone
    -- the bracket of a block that is too deep is recorded all the same
    | openBlock hm _ => exact h.turns_of_openBlock hm
    | overlong hm => exact h.turns_of_keep (by simp [records_of_overlong hm]) hnone

end Split.Reaches

/-! ### The records of a run -/

/-- What the records of a run tell of brackets, if `es` are open after them. -/
structure Recorded (rs : List Record) (es : List (Bracket × Nat)) : Prop where
  replay : Tracker.empty.replay rs = .ofEntries es
  /-- Closing what is open completes the records. -/
  nested : WellNested (rs.filter Record.isBracket ++ closings es)
  /-- At no moment too many brackets are open. -/
  moments : ∀ us, us <+: rs →
    ∃ es', Layered (maxDepth + 1) es' ∧ Tracker.empty.replay us = .ofEntries es'

namespace Recorded

theorem nil : Recorded [] [] := by
  refine ⟨rfl, .nil, fun us hu => ⟨[], ⟨[], [], Nat.zero_le _, Nat.zero_le _, rfl⟩, ?_⟩⟩
  rw [List.prefix_nil.1 hu]
  rfl

theorem layered (h : Recorded rs es) : Layered (maxDepth + 1) es := by
  obtain ⟨es', hl, he⟩ := h.moments rs (List.prefix_refl rs)
  rwa [Tracker.ofEntries_injective (h.replay.symm.trans he)]

theorem turn (h : Recorded rs es) (ht : Turns es us es') (hl : Layered (maxDepth + 1) es') :
    Recorded (rs ++ us) es' := by
  refine ⟨?_, ?_, fun vs hv => ?_⟩
  · rw [Tracker.replay_append, h.replay, ht.replay]
  · rw [List.filter_append]
    exact ht.wellNested h.nested
  · rcases List.prefix_or_prefix_of_prefix hv (List.prefix_append rs us) with hv' | ⟨ws, rfl⟩
    · exact h.moments vs hv'
    · rw [Tracker.replay_append, h.replay]
      rcases ht.replay_of_prefix ((List.prefix_append_right_inj rs).1 hv) with hr | hr
      · exact ⟨es, h.layered, hr⟩
      · exact ⟨es', hl, hr⟩

theorem append (h : Recorded rs es) (hu : ∀ r ∈ us, r.isBracket = false) :
    Recorded (rs ++ us) es :=
  h.turn (.keep hu) h.layered

end Recorded

theorem recorded_foldl_read (h : x.Reaches s) (hr : Recorded log.reverse x.entries)
    (ts : List Token) :
    ∃ es, Recorded (ts.foldl Run.read ⟨log, .ok s⟩).log.reverse es ∧
      ∀ s', s.reads ts = .ok s' → s'.tracker = .ofEntries es := by
  induction ts generalizing x s log with
  | nil =>
      refine ⟨x.entries, hr, fun s' hs => ?_⟩
      cases hs
      exact h.tracker
  | cons t ts ih =>
      obtain ⟨es, hturns, hl, htracker⟩ := h.turns t
      have hrecorded := hr.turn hturns hl
      have hread : Run.read ⟨log, .ok s⟩ t =
          ⟨(s.step t).records.reverse ++ log, (s.step t).result⟩ := rfl
      have hlog : ((s.step t).records.reverse ++ log).reverse =
          log.reverse ++ (s.step t).records := by simp
      rw [List.foldl_cons, hread]
      cases hs : (s.step t).result with
      | error e =>
          rw [Run.foldl_read_of_error rfl, hlog, reads_cons_of_error hs]
          exact ⟨es, hrecorded, nofun⟩
      | ok r =>
          obtain ⟨y, -, hy⟩ := h.step hs
          have hentries : y.entries = es :=
            Tracker.ofEntries_injective (hy.tracker.symm.trans (htracker r hs))
          rw [reads_cons_of_ok hs]
          exact ih hy (by rwa [hlog, hentries])

theorem recorded_ofTokens (ts : List Token) :
    ∃ es, Recorded (Run.ofTokens ts).log.reverse es ∧
      ∀ s, State.start.reads ts = .ok s → s.tracker = .ofEntries es := by
  have hnil : Recorded ([] : List Record).reverse Split.empty.entries := .nil
  exact recorded_foldl_read Split.reaches_start hnil ts

/-- The end of the tokens leaves no record of a bracket. -/
theorem State.isBracket_of_mem_finish {r : Record} (h : r ∈ s.finish.records) :
    r.isBracket = false := by
  unfold State.finish at h
  split at h
  · split at h
    · rw [List.mem_singleton.1 h]
      rfl
    · rw [List.mem_singleton.1 h]
      rfl
  · cases h

theorem recorded_finish (ts : List Token) :
    ∃ es, Recorded (Run.ofTokens ts).finish.records es := by
  obtain ⟨es, h, -⟩ := recorded_ofTokens ts
  refine ⟨es, ?_⟩
  unfold Run.finish
  split
  · exact h
  · exact h.append fun r hr => State.isBracket_of_mem_finish hr

/-! ### Errors that do not occur -/

theorem Expectation.text_ne {e : Expectation} (h : e ≠ .statement) : e.text ≠ "statement" := by
  cases e with
  | statement => exact absurd rfl h
  | guardOpening guard => cases guard <;> decide
  | guardClosing guard => cases guard <;> decide
  | guardBlock guard => cases guard <;> decide
  | _ => decide

/-- Only between statements is a statement expected. -/
theorem Point.expectation_ne {p : Point} (h : p ≠ .statement) : p.expectation ≠ .statement := by
  cases p with
  | statement => exact absurd rfl h
  | expressionEnd slot value => cases slot <;> nofun
  | block header => cases header <;> nofun
  | _ => nofun

theorem State.unmet_ne_statement (h : s.point ≠ .statement) (found missing : Option String)
    (line l : Nat) : s.unmet found line ≠ ⟨.expectedToken "statement" missing, l⟩ := by
  intro he
  have htext : s.point.expectation.text = "statement" := by
    unfold State.unmet at he
    injection he with hkind
    injection hkind
  exact Expectation.text_ne (Point.expectation_ne h) htext

theorem parse_ne_expected_statement (ts : List Token) (found : Option String) (line : Nat) :
    parse ts ≠ .error ⟨.expectedToken "statement" found, line⟩ := by
  intro h
  cases hr : State.start.reads ts with
  | error e =>
      rw [parse_of_reads_error hr] at h
      obtain ⟨before, t, after, r, -, hb, he⟩ := State.exists_step_of_reads_error hr
      obtain ⟨x, -, hx⟩ := exists_split_of_reads hb
      obtain rfl := Except.error.inj h
      rcases State.cases_of_step_error hx he with ⟨-, he⟩ | ⟨hp, he | he⟩
      · cases he
      · exact State.unmet_ne_statement hp _ _ _ _ he.symm
      · cases he
  | ok s =>
      rw [parse_of_reads_ok hr] at h
      by_cases hp : s.point = .statement
      · cases hi : s.tracker.innermost with
        | none =>
            rw [State.finish_of_innermost_none hp hi] at h
            cases h
        | some entry =>
            rw [State.finish_of_innermost hp hi] at h
            cases h
      · rw [State.finish_of_ne_statement hp] at h
        exact State.unmet_ne_statement hp _ _ _ _ (Except.error.inj h)

theorem parse_ne_paren (ts : List Token) (line : Nat) :
    parse ts ≠ .error ⟨.mismatchedBracket .paren, line⟩ := by
  intro h
  cases (blames_innermost h).1

/-! ### The discipline of a run -/

/-- Where the tokens end between statements, nothing is open exactly if they are a program. -/
theorem isEmpty_iff_accepted (h : State.start.reads ts = .ok s) (hp : s.point = .statement) :
    s.tracker.isEmpty = true ↔ Accepted ts := by
  obtain ⟨x, -, hx⟩ := exists_split_of_reads h
  rw [accepted_iff h, hx.tracker_of_opening_none (hx.current_of_statement hp).2,
    Tracker.isEmpty_ofEntries, List.isEmpty_iff, ← List.length_eq_zero_iff, length_braceEntries,
    hx.opened.length_eq, List.length_eq_zero_iff]
  exact ⟨fun hf => ⟨hp, hf⟩, And.right⟩

theorem replay_ofTokens (h : State.start.reads ts = .ok s) :
    Tracker.empty.replay (Run.ofTokens ts).log.reverse = s.tracker := by
  obtain ⟨es, hrecorded, htracker⟩ := recorded_ofTokens ts
  rw [hrecorded.replay, htracker s h]

/-- At every place of every run the brackets of the open blocks are open, and above them at most the
round bracket of the statement; a bracket that is closed is the one that its block or statement
opened.  The records of brackets are the beginning of a well nested word, and at no moment more than
129 blocks are open.  Tokens that end between statements leave nothing open exactly if they are a
program.  No error blames a round bracket or expects a statement. -/
theorem bracket_discipline (ts : List Token) :
    (∀ before s, before <+: ts → State.start.reads before = .ok s →
      (∃ x : Split, x.tokens = before ∧ x.Disciplined s) ∧
        Tracker.empty.replay (Run.ofTokens before).log.reverse = s.tracker) ∧
    (∃ rest, WellNested ((Run.ofTokens ts).finish.records.filter Record.isBracket ++ rest)) ∧
    (∀ rs, rs <+: (Run.ofTokens ts).finish.records →
      ∃ es, Layered 129 es ∧ Tracker.empty.replay rs = .ofEntries es) ∧
    (∀ s, State.start.reads ts = .ok s → s.point = .statement →
      (s.tracker.isEmpty = true ↔ ∃ p, parse ts = .ok p)) ∧
    (∀ line, parse ts ≠ .error ⟨.mismatchedBracket .paren, line⟩) ∧
    ∀ found line, parse ts ≠ .error ⟨.expectedToken "statement" found, line⟩ := by
  obtain ⟨es, hrecorded⟩ := recorded_finish ts
  refine ⟨fun before s _ hr => ⟨?_, replay_ofTokens hr⟩, ⟨closings es, hrecorded.nested⟩,
    hrecorded.moments, fun s hr hp => isEmpty_iff_accepted hr hp, parse_ne_paren ts,
    parse_ne_expected_statement ts⟩
  obtain ⟨x, hx, hreaches⟩ := exists_split_of_reads hr
  exact ⟨x, hx, hreaches.disciplined⟩

/-- `if (a) {` on the first line, and a loop with no statements on the second. -/
def openGuardWithLoop : List Token :=
  [⟨.keyword, "if", 1⟩, ⟨.punctuation, "(", 1⟩, ⟨.identifier, "a", 1⟩, ⟨.punctuation, ")", 1⟩,
    ⟨.punctuation, "\x7b", 1⟩, ⟨.keyword, "while", 2⟩, ⟨.punctuation, "(", 2⟩,
    ⟨.identifier, "b", 2⟩, ⟨.punctuation, ")", 2⟩, ⟨.punctuation, "\x7b", 2⟩,
    ⟨.punctuation, "\x7d", 2⟩]

/-- The state after them: the loop is closed and the guard is not. -/
def openGuardState : State :=
  ⟨.statement, [.whileLoop none []], [⟨.guarded .ifThen none, []⟩], ⟨[.brace], [1]⟩, 2⟩

theorem bracket_discipline_openGuardWithLoop :
    State.start.reads openGuardWithLoop = .ok openGuardState ∧
      (∃ x : Split, x.tokens = openGuardWithLoop ∧ x.Disciplined openGuardState) ∧
      Tracker.empty.replay (Run.ofTokens openGuardWithLoop).log.reverse = ⟨[.brace], [1]⟩ ∧
      ¬ ∃ p, parse openGuardWithLoop = .ok p := by
  have hr : State.start.reads openGuardWithLoop = .ok openGuardState := by rfl
  obtain ⟨hplaces, -, -, hempty, -⟩ := bracket_discipline openGuardWithLoop
  obtain ⟨hsplit, hreplay⟩ := hplaces _ _ (List.prefix_refl _) hr
  refine ⟨hr, hsplit, hreplay, fun hp => ?_⟩
  cases (hempty _ hr rfl).2 hp

end StreamScript
