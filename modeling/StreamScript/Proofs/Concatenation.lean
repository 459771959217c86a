import StreamScript.Proofs.Acceptance

/-! # Programs one after the other

Nothing of a program is left behind for the tokens that follow it: they are parsed as if they stood
alone (`parse_append`).  The reason is that statements which were read before play no part in a
reading.  `State.after` puts them before those of the outermost level; a step and a reading commute
with it (`step_after`, `reads_after`).

Conversely the tokens of a program can be split at each of its statements, and there is one place
for each split, because the tokens that spell given statements have a given length. -/

namespace StreamScript

variable {earlier level : List Node} {frames : List Frame} {s : State} {t : Token}
  {ts us : List Token}

/-! ### Statements that were read before -/

/-- A level with `earlier` statements, last first, before its own if no block is open around it. -/
def levelAfter (earlier level : List Node) : List Frame → List Node
  | [] => level ++ earlier
  | _ :: _ => level

/-- The frames with `earlier` statements before those of the outermost level. -/
def framesAfter (earlier : List Node) : List Frame → List Frame
  | [] => []
  | frame :: frames =>
    ⟨frame.header, levelAfter earlier frame.before frames⟩ :: framesAfter earlier frames

theorem levelAfter_cons (earlier level : List Node) (node : Node) (frames : List Frame) :
    levelAfter earlier (node :: level) frames = node :: levelAfter earlier level frames := by
  cases frames with
  | nil => rfl
  | cons frame frames => rfl

namespace State

/-- The state with `earlier` statements, last first, before those of the outermost level. -/
def after (earlier : List Node) (s : State) : State :=
  { s with
    level := levelAfter earlier s.level s.frames
    frames := framesAfter earlier s.frames }

theorem step_after (earlier : List Node) (s : State) (t : Token) :
    ((s.after earlier).step t).result = (s.step t).result.map (after earlier) := by
  -- the point and the tracker are the same, so the move and its conditions are too
  rcases s.step_cases t with ⟨s', hs, htakes⟩ | ⟨e, he, hrejects⟩
  · rw [hs]
    cases htakes with
    | start hm => exact result_of_start hm
    | shift hm => exact result_of_shift hm
    | openParen hm => exact result_of_openParen hm
    | closeParen hm => exact result_of_closeParen hm
    | finish hm =>
        rw [result_of_finish (s := s.after earlier) hm]
        simp [Except.map, after, levelAfter_cons]
    | openBlock hm hd => exact result_of_openBlock hm hd
    | @closeBlock frame frames hm hf =>
        have hf' : (s.after earlier).frames =
            ⟨frame.header, levelAfter earlier frame.before frames⟩ ::
              framesAfter earlier frames := by
          simp [after, hf, framesAfter]
        rw [result_of_closeBlock (s := s.after earlier) hm hf']
        simp only [Except.map, after, hf, levelAfter_cons]
        rfl
  · rw [he]
    cases hrejects with
    | noStatement hm => exact result_of_noStatement hm
    | closeBlock hm hf =>
        have hf' : (s.after earlier).frames = [] := by simp [after, hf, framesAfter]
        exact result_of_closeBlock_of_nil hm hf'
    | refuse hm => exact result_of_refuse hm
    | openBlock hm hd => exact result_of_openBlock_of_le hm hd
    | overlong hm => exact result_of_overlong hm

theorem reads_after (earlier : List Node) (s : State) (ts : List Token) :
    (s.after earlier).reads ts = (s.reads ts).map (after earlier) := by
  induction ts generalizing s with
  | nil => rfl
  | cons t ts ih =>
      have hstep := step_after earlier s t
      cases hr : (s.step t).result with
      | error e =>
          rw [hr] at hstep
          rw [reads_cons_of_error hr, reads_cons_of_error hstep]
          rfl
      | ok s' =>
          rw [hr] at hstep
          rw [reads_cons_of_ok hr, reads_cons_of_ok hstep, ih]

/-- At the end of tokens that were read from the start, earlier statements are found before those of
the program, and an error stays as it is. -/
theorem finish_after (earlier : List Node) (h : start.reads ts = .ok s) :
    (s.after earlier).finish.result =
      s.finish.result.map fun p => ⟨earlier.reverse ++ p.statements⟩ := by
  by_cases hp : s.point = .statement
  · obtain ⟨x, -, hx⟩ := exists_split_of_reads h
    cases hi : s.tracker.innermost with
    | some entry =>
        rw [finish_of_innermost hp hi, finish_of_innermost (s := s.after earlier) hp hi]
        rfl
    | none =>
        have hf := hx.frames_eq_nil_of_innermost hp hi
        rw [finish_of_innermost_none hp hi, finish_of_innermost_none (s := s.after earlier) hp hi]
        simp [Except.map, after, hf, levelAfter]
  · rw [finish_of_ne_statement hp, finish_of_ne_statement (s := s.after earlier) hp]
    rfl

end State

/-! ### What follows a program -/

theorem parse_append {a : List Token} {p : Program} (h : parse a = .ok p) (b : List Token) :
    parse (a ++ b) = (parse b).map fun q => ⟨p.statements ++ q.statements⟩ := by
  cases b with
  | nil =>
      rw [List.append_nil, h]
      show Except.ok p = .ok ⟨p.statements ++ []⟩
      rw [List.append_nil]
  | cons t us =>
      have hread : State.start.reads a =
          .ok { State.start.after p.statements.reverse with line := lineAfter 1 a } := by
        have hd : Tracker.empty.depth ≤ 0 := Nat.le_refl 0
        have := (spells_of_parse_eq_ok h).reads_of_depth_le hd [] [] 1
        rwa [List.append_nil] at this
      -- the first token that follows takes the line of the program away
      rw [parse_eq_outcome, State.outcome_append_of_ok hread, State.outcome_cons_line,
        parse_eq_outcome, State.outcome, State.outcome, State.reads_after]
      cases hr : State.start.reads (t :: us) with
      | error e => rfl
      | ok s =>
          have hfinish := State.finish_after p.statements.reverse hr
          rw [List.reverse_reverse] at hfinish
          exact hfinish

theorem parse_append_of_ok {a b : List Token} {p q : Program} (ha : parse a = .ok p)
    (hb : parse b = .ok q) : parse (a ++ b) = .ok ⟨p.statements ++ q.statements⟩ := by
  rw [parse_append ha, hb]
  rfl

theorem parse_append_of_error {a b : List Token} {p : Program} {e : ParseError}
    (ha : parse a = .ok p) (hb : parse b = .error e) : parse (a ++ b) = .error e := by
  rw [parse_append ha, hb]
  rfl

/-! ### The places between statements -/

theorem Spells.exists_append {d : Nat} {nodes more : List Node}
    (h : Spells d ts (nodes ++ more)) :
    ∃ us vs, ts = us ++ vs ∧ Spells d us nodes ∧ Spells d vs more := by
  induction nodes generalizing ts with
  | nil => exact ⟨[], ts, rfl, .nil, h⟩
  | cons node nodes ih =>
      generalize hn : node :: nodes ++ more = all at h
      cases h with
      | nil => cases hn
      | simple hs hrest =>
          cases hn
          obtain ⟨us, vs, rfl, hus, hvs⟩ := ih hrest
          exact ⟨_, vs, by rw [List.append_assoc], .simple hs hus, hvs⟩
      | block hh ho hd hb hc hrest =>
          cases hn
          obtain ⟨us, vs, rfl, hus, hvs⟩ := ih hrest
          exact ⟨_, vs, by simp, .block hh ho hd hb hc hus, hvs⟩

theorem Spells.eq_nil {d : Nat} (h : Spells d ts []) : ts = [] :=
  List.length_eq_zero_iff.1 (h.length_eq (Spells.nil (d := d)))

/-- The tokens of a program can be split at each of its statements, at one place. -/
theorem exists_unique_place {p q : List Node} (h : parse ts = .ok ⟨p ++ q⟩) :
    ∃ i, (i ≤ ts.length ∧ parse (ts.take i) = .ok ⟨p⟩ ∧ parse (ts.drop i) = .ok ⟨q⟩) ∧
      ∀ j, j ≤ ts.length ∧ parse (ts.take j) = .ok ⟨p⟩ ∧ parse (ts.drop j) = .ok ⟨q⟩ → j = i := by
  obtain ⟨us, vs, rfl, hus, hvs⟩ := (spells_of_parse_eq_ok h).exists_append
  refine ⟨us.length, ⟨by simp, ?_, ?_⟩, ?_⟩
  · rw [List.take_left]
    exact parse_of_spells hus
  · rw [List.drop_left]
    exact parse_of_spells hvs
  · rintro j ⟨hj, hp, -⟩
    have hlen := (spells_of_parse_eq_ok hp).length_eq hus
    rw [List.length_take] at hlen
    omega

theorem eq_nil_of_parse_single {a b : List Token} {m n : Node} (ha : parse a = .ok ⟨[m]⟩)
    (hab : parse (a ++ b) = .ok ⟨[n]⟩) : b = [] := by
  rw [parse_append ha] at hab
  cases hb : parse b with
  | error e =>
      rw [hb] at hab
      cases hab
  | ok q =>
      rw [hb] at hab
      have hnodes : m :: q.statements = [n] := congrArg Program.statements (Except.ok.inj hab)
      have hspells := spells_of_parse_eq_ok hb
      rw [(List.cons.inj hnodes).2] at hspells
      exact hspells.eq_nil

/-- A program and what follows it are parsed apart, be the rest a program or an error, and a
program can be split at each of its statements in exactly one place. -/
theorem parse_append_and_unique_place :
    (∀ (a b : List Token) (p : Program), parse a = .ok p →
      (∀ q, parse b = .ok q → parse (a ++ b) = .ok ⟨p.statements ++ q.statements⟩) ∧
      ∀ e, parse b = .error e → parse (a ++ b) = .error e) ∧
    (∀ (ts : List Token) (p q : List Node), parse ts = .ok ⟨p ++ q⟩ →
      ∃ i, (i ≤ ts.length ∧ parse (ts.take i) = .ok ⟨p⟩ ∧ parse (ts.drop i) = .ok ⟨q⟩) ∧
        ∀ j, j ≤ ts.length ∧ parse (ts.take j) = .ok ⟨p⟩ ∧ parse (ts.drop j) = .ok ⟨q⟩ →
          j = i) ∧
    ∀ (a b : List Token) (m n : Node), parse a = .ok ⟨[m]⟩ → parse (a ++ b) = .ok ⟨[n]⟩ →
      b = [] := by
  refine ⟨fun a b p ha => ⟨fun q hb => ?_, fun e hb => ?_⟩, fun ts p q h => ?_,
    fun a b m n ha hab => ?_⟩
  · exact parse_append_of_ok ha hb
  · exact parse_append_of_error ha hb
  · exact exists_unique_place h
  · exact eq_nil_of_parse_single ha hab

/-- `int a;` on one line. -/
def declarationOfA : List Token :=
  [⟨.keyword, "int", 1⟩, ⟨.identifier, "a", 1⟩, ⟨.punctuation, ";", 1⟩]

theorem parse_append_and_unique_place_declarationOfA :
    (parse declarationOfA = .ok ⟨[.declaration "int" ["a"]]⟩ ∧
      parse [⟨.unknown, "@", 3⟩] = .error ⟨.unexpectedToken "@", 3⟩ ∧
      parse (declarationOfA ++ declarationOfA) =
        .ok ⟨[.declaration "int" ["a"]] ++ [.declaration "int" ["a"]]⟩) ∧
    parse (declarationOfA ++ [⟨.unknown, "@", 3⟩]) = .error ⟨.unexpectedToken "@", 3⟩ ∧
    ∃ i, (i ≤ (declarationOfA ++ declarationOfA).length ∧
        parse ((declarationOfA ++ declarationOfA).take i) =
          .ok ⟨[.declaration "int" ["a"]]⟩ ∧
        parse ((declarationOfA ++ declarationOfA).drop i) =
          .ok ⟨[.declaration "int" ["a"]]⟩) ∧
      ∀ j, j ≤ (declarationOfA ++ declarationOfA).length ∧
        parse ((declarationOfA ++ declarationOfA).take j) =
          .ok ⟨[.declaration "int" ["a"]]⟩ ∧
        parse ((declarationOfA ++ declarationOfA).drop j) =
          .ok ⟨[.declaration "int" ["a"]]⟩ → j = i := by
  have hone : parse declarationOfA = .ok ⟨[.declaration "int" ["a"]]⟩ := by rfl
  have hstray : parse [⟨.unknown, "@", 3⟩] = .error ⟨.unexpectedToken "@", 3⟩ := by rfl
  have htwo : parse (declarationOfA ++ declarationOfA) =
      .ok ⟨[.declaration "int" ["a"]] ++ [.declaration "int" ["a"]]⟩ := by rfl
  obtain ⟨happend, hplace, -⟩ := parse_append_and_unique_place
  exact ⟨⟨hone, hstray, htwo⟩, (happend _ _ _ hone).2 _ hstray, hplace _ _ _ htwo⟩

end StreamScript
