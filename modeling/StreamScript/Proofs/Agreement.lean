import StreamScript.Proofs.Descent
import StreamScript.Proofs.SpelledReading

/-! # Agreement with the descent

What it is for a reading to agree with the descent (`Found.Agrees`): it is stopped at the first
token that leads deeper than `maxDepth`, and blames its line; if there is no such token, it comes
to the same value or the same error.

A reader of the descent follows a state (`Reader.Follows`) if the two agree on all tokens that are
read from there.  There is a rule for each way in which readers are made: `Follows.bind` for one
after the other, and `follows_one`, `follows_mark`, … for single tokens. -/

namespace StreamScript

open State Point

variable {α β : Type} {s : State} {t : Token} {ts us : List Token} {last line d : Nat}
  {level : List Node} {frames : List Frame} {tracker : Tracker} {error : ParseError}

/-! ### Agreement -/

/-- What outcomes are right for a value with the tokens that are left. -/
abbrev After (α : Type) := α → List Token → Except ParseError Program → Prop

/-- The outcome is that of a next state, in which the tokens end on the line `last`. -/
def Reached (last : Nat) (next : α → Nat → State) : After α := fun a rest o =>
  ∃ line, lineAfter (next a line).line rest = last ∧ o = (next a line).outcome rest

/-- The outcome is the error of the first token that leads too deep; or there is no such token,
and it is the error that was found, or it is right for the value that was found. -/
def Found.Agrees (x : Found ts α) (after : After α) (o : Except ParseError Program) : Prop :=
  match x.nestings.find? (·.level = maxDepth + 1) with
  | some n => o = .error ⟨.nestingTooDeep maxDepth, n.token.line⟩
  | none =>
    match x.result with
    | .error e => o = .error e ∧ ∀ limit, e.kind ≠ .nestingTooDeep limit
    | .ok (a, rest) => after a rest o

namespace Found.Agrees

variable {x : Found ts α} {after : After α} {after' : After β} {o : Except ParseError Program}

theorem pure {a : α} (h : after a ts o) : (Found.pure a ts).Agrees after o := h

theorem fail (he : ∀ limit, error.kind ≠ .nestingTooDeep limit) :
    (Found.fail error : Found ts α).Agrees after (.error error) := ⟨rfl, he⟩

theorem within {y : Found us α} (h : us.length ≤ ts.length) (hy : y.Agrees after o) :
    (y.within h).Agrees after o := by
  rcases y with ⟨nestings, _ | ⟨a, rest⟩⟩ <;> exact hy

theorem bind {f : α → (rest : List Token) → rest.length ≤ ts.length → Found rest β}
    (hx : x.Agrees after o)
    (hf : ∀ a rest h o, after a rest o → (f a rest h).Agrees after' o) :
    (x.bind f).Agrees after' o := by
  rcases x with ⟨nestings, e | ⟨a, rest, h⟩⟩
  · exact hx
  · unfold Agrees at hx ⊢
    simp only [Found.bind, List.find?_append]
    cases hn : nestings.find? (·.level = maxDepth + 1) with
    | some n =>
        rw [hn] at hx
        exact hx
    | none =>
        rw [hn] at hx
        exact (hf a rest h o hx).within h

theorem map {f : α → β} (hx : x.Agrees after o)
    (hf : ∀ a rest o, after a rest o → after' (f a) rest o) : (x.map f).Agrees after' o :=
  hx.bind fun a rest _ o h => .pure (hf a rest o h)

theorem mono {after' : After α} (hx : x.Agrees after o)
    (h : ∀ a rest o, after a rest o → after' a rest o) : x.Agrees after' o := by
  unfold Agrees at hx ⊢
  split at hx
  · exact hx
  split at hx
  · exact hx
  · exact h _ _ _ hx

theorem deeper {n : Nesting} (hn : n.level ≠ maxDepth + 1) (hx : x.Agrees after o) :
    (x.deeper n).Agrees after o := by
  unfold Agrees Found.deeper
  rw [List.find?_cons_of_neg (by simpa using hn)]
  exact hx

/-- A token that leads too deep is to blame, whatever would be found after it. -/
theorem tooDeep (x : Found ts α) (t : Token) : (x.deeper ⟨maxDepth + 1, t⟩).Agrees after
    (.error ⟨.nestingTooDeep maxDepth, t.line⟩) := by
  unfold Agrees Found.deeper
  rw [List.find?_cons_of_pos (by simp)]

/-- Go on from the state that is reached. -/
theorem bind_reached {next : α → Nat → State}
    {f : α → (rest : List Token) → rest.length ≤ ts.length → Found rest β}
    (hx : x.Agrees (Reached last next) o)
    (hf : ∀ a rest h line, lineAfter (next a line).line rest = last →
      (f a rest h).Agrees after' ((next a line).outcome rest)) :
    (x.bind f).Agrees after' o := by
  refine hx.bind fun a rest h o => ?_
  rintro ⟨line, hline, rfl⟩
  exact hf a rest h line hline

theorem map_reached {f : α → β} {next : α → Nat → State} {next' : β → Nat → State}
    (hx : x.Agrees (Reached last next) o) (hf : ∀ a line, next a line = next' (f a) line) :
    (x.map f).Agrees (Reached last next') o := by
  refine hx.bind_reached fun a rest _ line hline => .pure ⟨line, ?_, ?_⟩
  · rw [← hf]
    exact hline
  · rw [hf]

end Found.Agrees

namespace Descent

/-! ### Readers and states -/

/-- What is found by the reader agrees with what the state makes of the same tokens.  If a value is
found, the state after it is `next` with the value and the line that has been reached. -/
def Reader.Follows (f : Reader α) (s : State) (next : α → Nat → State) : Prop :=
  ∀ last ts, lineAfter s.line ts = last → (f last ts).Agrees (Reached last next) (s.outcome ts)

theorem Reader.Follows.bind {f : Reader α} {g : α → Reader β} {next : α → Nat → State}
    {next' : β → Nat → State} (hf : f.Follows s next)
    (hg : ∀ a line, (g a).Follows (next a line) next') : (f >>= g).Follows s next' := by
  intro last ts hlast
  exact (hf last ts hlast).bind_reached fun a rest _ line hline => hg a line last rest hline

theorem Reader.Follows.pure {a : α} {next : α → Nat → State} (h : next a s.line = s) :
    (Pure.pure a : Reader α).Follows s next := by
  intro last ts hlast
  exact .pure ⟨s.line, by rw [h]; exact hlast, by rw [h]⟩

/-- A token that is not there is missed in the same words. -/
theorem agrees_taking {test : Token → Bool} {e : Expectation} {after : After α}
    {f : Token → (rest : List Token) → rest.length < ts.length → Found rest α}
    (hp : s.point ≠ .statement) (he : s.point.expectation = e) (hlast : lineAfter s.line ts = last)
    (hrefuse : ∀ t, test t = false → s.point.move t = .refuse)
    (hf : ∀ t rest h, ts = t :: rest → test t = true → lineAfter t.line rest = last →
      (f t rest h).Agrees after (s.outcome ts)) :
    (taking test e last ts f).Agrees after (s.outcome ts) := by
  cases ts with
  | nil =>
      rw [outcome_nil_of_ne hp, unmet, he, ← hlast]
      exact .fail fun limit h => by cases h
  | cons t ts =>
      rw [taking]
      split
      · next ht => exact (hf t ts _ rfl ht hlast).within _
      · next ht =>
        rw [outcome_of_error (result_of_refuse (hrefuse t (by simpa using ht))), unmet, he]
        exact .fail fun limit h => by cases h

theorem follows_one {test : Token → Bool} {e : Expectation} {next : Token → Nat → State}
    (hp : s.point ≠ .statement) (he : s.point.expectation = e)
    (hrefuse : ∀ t, test t = false → s.point.move t = .refuse)
    (hstep : ∀ t, test t = true → (s.step t).result = .ok (next t t.line)) :
    (one test e).Follows s next := by
  intro last ts hlast
  refine agrees_taking hp he hlast hrefuse fun t rest _ hts ht hrest => .pure ⟨t.line, ?_, ?_⟩
  · rw [line_of_step (hstep t ht)]
    exact hrest
  · rw [hts, outcome_of_ok (hstep t ht)]

section

variable {p q : Point} {kind : TokenKind} {text : String} {e : Expectation}

theorem follows_ofKind {q : Token → Point} (hp : p ≠ .statement) (he : p.expectation = e)
    (hmove : ∀ t, p.move t = onKind t kind (q t)) :
    (ofKind kind e).Follows ⟨p, level, frames, tracker, line⟩
      fun t line => ⟨q t, level, frames, tracker, line⟩ := by
  refine follows_one hp he (fun t ht => ?_) fun t ht => ?_
  · rw [hmove]
    exact if_neg (by simpa using ht)
  · refine result_of_shift ?_
    rw [hmove]
    exact if_pos (by simpa using ht)

/-- A punctuation mark does what the point asks of it. -/
theorem follows_mark {m : Move} {next : Token → Nat → State} (hp : p ≠ .statement)
    (he : p.expectation = e) (hmove : ∀ t, p.move t = onMark t text m)
    (hstep : ∀ t, p.move t = m →
      (step ⟨p, level, frames, tracker, line⟩ t).result = .ok (next t t.line)) :
    (mark text e).Follows ⟨p, level, frames, tracker, line⟩ next := by
  refine follows_one hp he (fun t ht => ?_) fun t ht => hstep t ?_
  · rw [hmove]
    exact if_neg (by simp [ht])
  · rw [hmove]
    exact if_pos ht

theorem follows_shift (hp : p ≠ .statement) (he : p.expectation = e)
    (hmove : ∀ t, p.move t = onMark t text (.shift q)) :
    (mark text e).Follows ⟨p, level, frames, tracker, line⟩
      fun _ line => ⟨q, level, frames, tracker, line⟩ :=
  follows_mark hp he hmove fun _ ht => result_of_shift ht

theorem follows_openParen (hp : p ≠ .statement) (he : p.expectation = e)
    (hmove : ∀ t, p.move t = onMark t text (.openParen q)) :
    (mark text e).Follows ⟨p, level, frames, tracker, line⟩
      fun t line => ⟨q, level, frames, tracker.push .paren t.line, line⟩ :=
  follows_mark hp he hmove fun _ ht => result_of_openParen ht

theorem follows_closeParen {l : Nat} (hp : p ≠ .statement) (he : p.expectation = e)
    (hmove : ∀ t, p.move t = onMark t text (.closeParen q)) :
    (mark text e).Follows ⟨p, level, frames, tracker.push .paren l, line⟩
      fun _ line => ⟨q, level, frames, tracker, line⟩ := by
  refine follows_mark hp he hmove fun t ht => ?_
  rw [result_of_closeParen ht, Tracker.pop_push]

theorem follows_finish {node : Node} (hp : p ≠ .statement) (he : p.expectation = e)
    (hmove : ∀ t, p.move t = onMark t text (.finish node)) :
    (mark text e).Follows ⟨p, level, frames, tracker, line⟩
      fun _ line => ⟨.statement, node :: level, frames, tracker, line⟩ :=
  follows_mark hp he hmove fun _ ht => result_of_finish ht

end

end Descent

end StreamScript
