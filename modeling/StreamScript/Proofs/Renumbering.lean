import Mathlib.Data.List.Forall2
import StreamScript.Proofs.BlamedLine

/-! # Tokens with other lines

The lines that tokens carry are passed on and never looked at.  `State.renumber f` changes every
line in a state by `f`; a step, a reading and the end of the tokens commute with it
(`step_renumber`, `reads_renumber`, `finish_renumber`), and so a parse does (`parse_renumber`).

Tokens whose lines are their own places, `placed ts`, give every list with the same kinds and texts
by a change of lines.  So such lists are parsed alike, and an error blames the same place in all of
them (`parse_of_alike`). -/

namespace StreamScript

variable {f : Nat → Nat} {s : State} {t u : Token} {ts us : List Token}

/-- The token with its line changed by `f`. -/
def Token.renumber (f : Nat → Nat) (t : Token) : Token := { t with line := f t.line }

/-- The error with its line changed by `f`. -/
def ParseError.renumber (f : Nat → Nat) (e : ParseError) : ParseError := ⟨e.kind, f e.line⟩

/-! ### Trackers -/

namespace Tracker

/-- The tracker with the lines of all open brackets changed by `f`. -/
def renumber (f : Nat → Nat) (t : Tracker) : Tracker := ⟨t.openers, t.lines.map f⟩

theorem push_renumber (f : Nat → Nat) (t : Tracker) (b : Bracket) (line : Nat) :
    (t.renumber f).push b (f line) = (t.push b line).renumber f := rfl

theorem pop_renumber (f : Nat → Nat) (t : Tracker) (b : Bracket) :
    ((t.renumber f).pop b).2 = (t.pop b).2.renumber f := by
  rcases t with ⟨_ | ⟨bracket, openers⟩, lines⟩
  · rfl
  · by_cases hb : bracket = b
    · cases lines <;> simp [pop, renumber, hb]
    · simp [pop, renumber, hb]

theorem innermost_renumber (f : Nat → Nat) (t : Tracker) :
    (t.renumber f).innermost = t.innermost.map fun entry => (entry.1, f entry.2) := by
  rcases t with ⟨_ | ⟨bracket, openers⟩, _ | ⟨line, lines⟩⟩ <;> rfl

end Tracker

/-! ### Readings -/

theorem Point.move_renumber (p : Point) (f : Nat → Nat) (t : Token) :
    p.move (t.renumber f) = p.move t := rfl

namespace State

/-- The state with all lines in it changed by `f`. -/
def renumber (f : Nat → Nat) (s : State) : State :=
  { s with tracker := s.tracker.renumber f, line := f s.line }

theorem step_renumber (f : Nat → Nat) (s : State) (t : Token) :
    ((s.renumber f).step (t.renumber f)).result =
      ((s.step t).result.map (renumber f)).mapError (ParseError.renumber f) := by
  -- the number of brackets is the same too, so the bound on the blocks is met by both or by none
  have hmove := s.point.move_renumber f t
  rcases s.step_cases t with ⟨s', hs, htakes⟩ | ⟨e, he, hrejects⟩
  · rw [hs]
    cases htakes with
    | start hm => exact result_of_start (hmove.trans hm)
    | shift hm => exact result_of_shift (hmove.trans hm)
    | openParen hm =>
        rw [result_of_openParen (s := s.renumber f) (hmove.trans hm)]
        simp only [renumber, Token.renumber, Tracker.push_renumber]
        rfl
    | closeParen hm =>
        rw [result_of_closeParen (s := s.renumber f) (hmove.trans hm)]
        simp only [renumber, Tracker.pop_renumber]
        rfl
    | finish hm => exact result_of_finish (hmove.trans hm)
    | openBlock hm hd =>
        rw [result_of_openBlock (s := s.renumber f) (hmove.trans hm) hd]
        simp only [renumber, Token.renumber, Tracker.push_renumber]
        rfl
    | closeBlock hm hf =>
        rw [result_of_closeBlock (s := s.renumber f) (hmove.trans hm) hf]
        simp only [renumber, Tracker.pop_renumber]
        rfl
  · rw [he]
    cases hrejects with
    | noStatement hm => exact result_of_noStatement (hmove.trans hm)
    | closeBlock hm hf => exact result_of_closeBlock_of_nil (hmove.trans hm) hf
    | refuse hm => exact result_of_refuse (hmove.trans hm)
    | openBlock hm hd => exact result_of_openBlock_of_le (hmove.trans hm) hd
    | overlong hm => exact result_of_overlong (hmove.trans hm)

theorem reads_renumber (f : Nat → Nat) (s : State) (ts : List Token) :
    (s.renumber f).reads (ts.map (Token.renumber f)) =
      ((s.reads ts).map (renumber f)).mapError (ParseError.renumber f) := by
  induction ts generalizing s with
  | nil => rfl
  | cons t ts ih =>
      have hstep := step_renumber f s t
      rw [List.map_cons]
      cases hr : (s.step t).result with
      | error e =>
          rw [hr] at hstep
          rw [reads_cons_of_error hr, reads_cons_of_error hstep]
          rfl
      | ok s' =>
          rw [hr] at hstep
          rw [reads_cons_of_ok hr, reads_cons_of_ok hstep, ih]

theorem finish_renumber (f : Nat → Nat) (s : State) :
    (s.renumber f).finish.result = s.finish.result.mapError (ParseError.renumber f) := by
  by_cases hp : s.point = .statement
  · have hinnermost := s.tracker.innermost_renumber f
    cases hi : s.tracker.innermost with
    | none =>
        rw [hi] at hinnermost
        rw [finish_of_innermost_none hp hi,
          finish_of_innermost_none (s := s.renumber f) hp hinnermost]
        rfl
    | some entry =>
        rw [hi] at hinnermost
        rw [finish_of_innermost hp hi, finish_of_innermost (s := s.renumber f) hp hinnermost]
        rfl
  · rw [finish_of_ne_statement hp, finish_of_ne_statement (s := s.renumber f) hp]
    rfl

theorem outcome_renumber (f : Nat → Nat) (s : State) (ts : List Token) :
    (s.renumber f).outcome (ts.map (Token.renumber f)) =
      (s.outcome ts).mapError (ParseError.renumber f) := by
  rw [outcome, outcome, reads_renumber]
  cases s.reads ts with
  | error e => rfl
  | ok s' => exact finish_renumber f s'

end State

/-- A parse of tokens with other lines gives the same program, or the same error with its line
changed as the lines of the tokens are. -/
theorem parse_renumber (f : Nat → Nat) (ts : List Token) :
    parse (ts.map (Token.renumber f)) = (parse ts).mapError (ParseError.renumber f) := by
  have houtcome := State.outcome_renumber f .start ts
  rw [← parse_eq_outcome] at houtcome
  rw [← houtcome]
  exact (outcome_line_eq_parse (f 1) _).symm

/-! ### Tokens that differ in their lines alone -/

/-- Whether two tokens have the same kind and the same text. -/
def Token.Alike (t u : Token) : Prop := t.kind = u.kind ∧ t.text = u.text

/-- The tokens, each on the line with the number of its place. -/
def placed (ts : List Token) : List Token := ts.mapIdx fun i t => { t with line := i }

/-- The line of the token at a place. -/
def lineAt (ts : List Token) (i : Nat) : Nat := (ts[i]?.map Token.line).getD 0

theorem map_renumber_placed (ts : List Token) :
    (placed ts).map (Token.renumber (lineAt ts)) = ts := by
  refine List.ext_getElem (by simp [placed]) fun i hi hi' => ?_
  simp [placed, Token.renumber, lineAt, hi']

theorem placed_eq_of_alike (h : List.Forall₂ Token.Alike ts us) : placed ts = placed us := by
  refine List.ext_getElem (by simp [placed, h.length_eq]) fun i hi hi' => ?_
  simp only [placed, List.length_mapIdx] at hi hi'
  obtain ⟨hkind, htext⟩ := h.get hi hi'
  simp only [List.get_eq_getElem] at hkind htext
  simp [placed, hkind, htext]

/-- The parse of a list of tokens, given by the parse of the same tokens on the lines of their
places. -/
theorem parse_eq_placed (ts : List Token) :
    parse ts = (parse (placed ts)).mapError (ParseError.renumber (lineAt ts)) := by
  rw [← parse_renumber, map_renumber_placed]

theorem line_lt_of_parse_placed {e : ParseError} (h : parse (placed ts) = .error e) :
    e.line < ts.length := by
  obtain ⟨v, hv, hline, -⟩ := exists_blamed h
  obtain ⟨i, hi, rfl⟩ := List.mem_mapIdx.1 hv
  rw [hline]
  exact hi

theorem lineAt_eq {i : Nat} (h : i < ts.length) : lineAt ts i = ts[i].line := by
  simp [lineAt, h]

/-- Tokens of the same kinds and texts are parsed alike on whatever lines they stand: to the same
program, or to the same error, which blames the line of one token, and that is the same token in
both.  So an error is always on the line of a token. -/
theorem parse_of_alike :
    (∀ ts us : List Token, List.Forall₂ Token.Alike ts us →
      (∃ p, parse ts = .ok p ∧ parse us = .ok p) ∨
        ∃ (kind : ErrorKind) (i : Nat) (t u : Token), ts[i]? = some t ∧ us[i]? = some u ∧
          parse ts = .error ⟨kind, t.line⟩ ∧ parse us = .error ⟨kind, u.line⟩) ∧
    ∀ (ts : List Token) (e : ParseError), parse ts = .error e → ∃ t ∈ ts, t.line = e.line := by
  refine ⟨fun ts us h => ?_, fun ts e he => ?_⟩
  · have hts := parse_eq_placed ts
    have hus := parse_eq_placed us
    rw [← placed_eq_of_alike h] at hus
    cases hr : parse (placed ts) with
    | ok p =>
        rw [hr] at hts hus
        exact .inl ⟨p, hts, hus⟩
    | error e =>
        rw [hr] at hts hus
        have hi : e.line < ts.length := line_lt_of_parse_placed hr
        have hi' : e.line < us.length := h.length_eq ▸ hi
        refine .inr ⟨e.kind, e.line, ts[e.line], us[e.line], List.getElem?_eq_getElem hi,
          List.getElem?_eq_getElem hi', ?_, ?_⟩
        · rw [hts, ← lineAt_eq hi]
          rfl
        · rw [hus, ← lineAt_eq hi']
          rfl
  · obtain ⟨t, ht, hline, -⟩ := exists_blamed he
    exact ⟨t, ht, hline.symm⟩

/-- `if (a) {` and `int b;` on the given lines. -/
def openGuardOn (header body : Nat) : List Token :=
  [⟨.keyword, "if", header⟩, ⟨.punctuation, "(", header⟩, ⟨.identifier, "a", header⟩,
    ⟨.punctuation, ")", header⟩, ⟨.punctuation, "\x7b", header⟩, ⟨.keyword, "int", body⟩,
    ⟨.identifier, "b", body⟩, ⟨.punctuation, ";", body⟩]

/-- An open block, with its lines in order and with a huge line before a zero. -/
theorem parse_of_alike_openGuard :
    List.Forall₂ Token.Alike (openGuardOn 1 2) (openGuardOn 10000000000 0) ∧
      ((∃ p, parse (openGuardOn 1 2) = .ok p ∧ parse (openGuardOn 10000000000 0) = .ok p) ∨
        ∃ (kind : ErrorKind) (i : Nat) (t u : Token),
          (openGuardOn 1 2)[i]? = some t ∧ (openGuardOn 10000000000 0)[i]? = some u ∧
          parse (openGuardOn 1 2) = .error ⟨kind, t.line⟩ ∧
          parse (openGuardOn 10000000000 0) = .error ⟨kind, u.line⟩) ∧
      parse (openGuardOn 1 2) = .error ⟨.mismatchedBracket .brace, 1⟩ ∧
      ∃ t ∈ openGuardOn 1 2, t.line = 1 := by
  have halike : List.Forall₂ Token.Alike (openGuardOn 1 2) (openGuardOn 10000000000 0) := by
    repeat' constructor
  have herror : parse (openGuardOn 1 2) = .error ⟨.mismatchedBracket .brace, 1⟩ := by rfl
  obtain ⟨hparse, hline⟩ := parse_of_alike
  exact ⟨halike, hparse _ _ halike, herror, hline _ _ herror⟩

end StreamScript
