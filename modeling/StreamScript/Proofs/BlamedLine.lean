import StreamScript.Proofs.SourceLines
import StreamScript.Proofs.Unclosed

/-! # The line that is blamed

A parse that fails blames the line of one of its tokens, and the cause says which one
(`ErrorKind.Blames`, `exists_blamed`): the token that is named, the last one if another is missing
after it, the bracket of a block that is left open, or a bracket or a sign that is too deep.  In a
source that token is found on the line that is blamed (`parseSource_blames_line`). -/

namespace StreamScript

open State

/-! ### Tokens that are blamed -/

/-- What an error of the tokens `ts` says of the token `t` that it blames. -/
def ErrorKind.Blames (ts : List Token) (t : Token) : ErrorKind → Prop
  | expectedToken _ none => ts.getLast? = some t
  | expectedToken _ (some found) => found = t.text
  | unexpectedToken text => text = t.text
  | mismatchedBracket _ => t.opens .brace
  | nestingTooDeep _ => t.opens .brace ∨ t.is .operator "!"

/-- Only a sign is one too many in front of an operand. -/
theorem Point.is_sign_of_overlong {p : Point} {t : Token} (h : p.move t = .overlong) :
    t.is .operator "!" := by
  cases p with
  | expression slot count =>
      rw [move] at h
      split at h
      · next ht => exact ht
      · cases h
  | expressionEnd slot value => cases slot <;> grind [move, onMark, onClosing]
  | statement => grind [move, begin]
  | _ => grind [move, onMark, onKind, onOpening, onClosing]

variable {s : State} {t : Token} {ts before : List Token} {e : ParseError}

theorem State.is_of_step_nestingTooDeep {x : Split} {limit line : Nat} (hx : x.Reaches s)
    (h : (s.step t).result = .error ⟨.nestingTooDeep limit, line⟩) :
    t.opens .brace ∨ t.is .operator "!" := by
  have hm := hx.begun.extends t
  cases rejects_of_step h with
  | openBlock hmove hd =>
      rw [hmove] at hm
      exact .inl hm.2.2
  | overlong hmove => exact .inr (Point.is_sign_of_overlong hmove)

theorem blames_of_step_error (hs : State.start.reads before = .ok s)
    (he : (s.step t).result = .error e) (ts : List Token) :
    e.line = t.line ∧ e.kind.Blames ts t := by
  obtain ⟨hline, hexplains⟩ := explains_of_step_error hs he
  refine ⟨hline, ?_⟩
  obtain ⟨kind, line⟩ := e
  cases kind with
  | expectedToken expected found =>
      obtain ⟨rfl, -⟩ := hexplains
      rfl
  | unexpectedToken text => exact hexplains.1
  | mismatchedBracket bracket => exact absurd hexplains id
  | nestingTooDeep limit =>
      obtain ⟨x, -, hx⟩ := exists_split_of_reads hs
      exact is_of_step_nestingTooDeep hx he

/-- At the end of the tokens the last one is blamed, or the bracket that is left open. -/
theorem exists_blamed_of_reads_ok (hs : State.start.reads ts = .ok s)
    (h : parse ts = .error e) : ∃ t ∈ ts, e.line = t.line ∧ e.kind.Blames ts t := by
  by_cases hp : s.point = .statement
  · obtain ⟨x, -, hx⟩ := exists_split_of_reads hs
    have hfinish := parse_of_reads_ok hs
    rw [h, hx.finish_eq hp] at hfinish
    cases hb : x.blocks with
    | nil =>
        rw [hb] at hfinish
        cases hfinish
    | cons brace blocks =>
        rw [hb] at hfinish
        cases hfinish
        obtain ⟨-, i, hi, hinner, hline⟩ := blames_innermost h
        obtain ⟨t, hget, hopening⟩ := hinner.opening
        obtain ⟨_, rfl⟩ := List.getElem?_eq_some_iff.1 hget
        exact ⟨ts[i], List.getElem_mem hi, hline, hopening⟩
  · rw [parse_of_reads_ok hs, finish_of_ne_statement hp] at h
    cases h
    have hne : ts ≠ [] := by
      rintro rfl
      cases hs
      exact hp rfl
    have hlast := List.getLast?_eq_some_getLast hne
    exact ⟨ts.getLast hne, List.getLast_mem hne, line_eq_of_getLast? hs hlast, hlast⟩

theorem exists_blamed (h : parse ts = .error e) :
    ∃ t ∈ ts, e.line = t.line ∧ e.kind.Blames ts t := by
  cases hs : State.start.reads ts with
  | ok s => exact exists_blamed_of_reads_ok hs h
  | error e' =>
      rw [parse_of_reads_error hs] at h
      cases h
      obtain ⟨before, t, after, r, rfl, hr, he⟩ := exists_step_of_reads_error hs
      exact ⟨t, by simp, blames_of_step_error hr he _⟩

/-- The line that a state starts with is no part of any result: only where no token has been read
could it be blamed, and no tokens are a program. -/
theorem outcome_line_eq_parse (line : Nat) (ts : List Token) :
    { State.start with line := line }.outcome ts = parse ts := by
  rw [parse_eq_outcome]
  cases ts with
  | nil => rfl
  | cons t ts => exact outcome_cons_line State.start line t ts

/-! ### Lines that are blamed -/

/-- Whether a line shows nothing: its characters are spaces, tabs and carriage returns. -/
def Blank (line : List Char) : Prop := ∀ c ∈ line, c ∈ [' ', '\t', '\r']

/-- The line `n` is the last line of the source that is not blank. -/
structure LastPrinted (source : String) (n : Nat) : Prop where
  here : ∃ line, line? source n = some line ∧ ¬ Blank line
  after : ∀ m line, n < m → line? source m = some line → Blank line

/-- What an error says of line `n` of the source.  The token that is named stands on it, or the
bracket that is left open, or the bracket or sign that is too deep; if a token is missing at the
end, it is the last line that is not blank. -/
def ErrorKind.FoundOn (source : String) (n : Nat) : ErrorKind → Prop
  | expectedToken _ none => LastPrinted source n
  | expectedToken _ (some text) | unexpectedToken text =>
    ∃ line, line? source n = some line ∧ text.toList <:+: line
  | mismatchedBracket _ => ∃ line, line? source n = some line ∧ '\x7b' ∈ line
  | nestingTooDeep _ => ∃ line, line? source n = some line ∧ ('\x7b' ∈ line ∨ '!' ∈ line)

variable {source : String}

theorem exists_not_mem_space_of_mem_tokenize (h : t ∈ tokenize source) :
    ∃ c ∈ t.text.toList, c ∉ [' ', '\t', '\r'] := by
  rw [tokenize_eq_longestScan] at h
  obtain ⟨c, m, htext, hc⟩ := exists_text_of_mem_longestScan h
  refine ⟨c, by rw [htext]; exact List.mem_cons_self, fun hmem => ?_⟩
  refine (isSpace_eq_false_iff.1 hc).2 ?_
  simpa [Rule.isBlank, or_assoc] using hmem

theorem exists_line?_of_mem_tokenize (h : t ∈ tokenize source) :
    ∃ line, line? source t.line = some line ∧ t.text.toList <:+: line := by
  obtain ⟨i, hi⟩ := List.getElem?_of_mem h
  obtain ⟨us, vs, hsource, hline, -⟩ := exists_place_of_getElem? hi
  obtain ⟨⟨left, right, hget⟩, -⟩ := exists_line?_of_place hsource (text_of_mem_tokenize h).2
  rw [← hline] at hget
  exact ⟨_, hget, left, right, List.append_assoc ..⟩

theorem line_le_of_mem_tokenize (h : t ∈ tokenize source) :
    1 ≤ t.line ∧ t.line ≤ 1 + lineFeeds source := by
  obtain ⟨i, hi⟩ := List.getElem?_of_mem h
  obtain ⟨us, vs, hsource, hline, -⟩ := exists_place_of_getElem? hi
  have hcount : us.count '\n' ≤ lineFeeds source := by
    rw [lineFeeds, hsource, List.count_append]
    exact Nat.le_add_right ..
  omega

theorem lastPrinted_of_getLast? (h : (tokenize source).getLast? = some t) :
    LastPrinted source t.line := by
  have hmem := List.mem_of_getLast? h
  rw [List.getLast?_eq_getElem?] at h
  have hlast : (tokenize source).length - 1 + 1 = (tokenize source).length := by
    have := List.length_pos_of_mem hmem
    omega
  obtain ⟨us, vs, hsource, hline, hspaces⟩ := exists_place_of_getElem? h
  obtain ⟨-, hafter⟩ := exists_line?_of_place hsource (text_of_mem_tokenize hmem).2
  rw [← hline] at hafter
  refine ⟨?_, fun m line hm hget c hc => ?_⟩
  · obtain ⟨line, hget, htext⟩ := exists_line?_of_mem_tokenize hmem
    obtain ⟨c, hc, hprinted⟩ := exists_not_mem_space_of_mem_tokenize hmem
    exact ⟨line, hget, fun hblank => hprinted (hblank c (htext.subset hc))⟩
  · obtain ⟨hrest, hne⟩ := hafter m line hm hget c hc
    simpa [hne] using Rule.mem_of_isSpace (hspaces hlast c hrest)

theorem mem_line?_of_is {kind : TokenKind} {mark : Char} (h : t ∈ tokenize source)
    (ht : t.is kind (String.ofList [mark])) :
    ∃ line, line? source t.line = some line ∧ mark ∈ line := by
  obtain ⟨line, hget, htext⟩ := exists_line?_of_mem_tokenize h
  refine ⟨line, hget, htext.subset ?_⟩
  rw [(Token.is_iff.1 ht).2, String.toList_ofList]
  exact List.mem_singleton_self mark

theorem ErrorKind.Blames.foundOn {kind : ErrorKind} (h : kind.Blames (tokenize source) t)
    (ht : t ∈ tokenize source) : kind.FoundOn source t.line := by
  cases kind with
  | expectedToken expected found =>
      cases found with
      | none => exact lastPrinted_of_getLast? h
      | some text =>
          obtain rfl : text = t.text := h
          exact exists_line?_of_mem_tokenize ht
  | unexpectedToken text =>
      obtain rfl : text = t.text := h
      exact exists_line?_of_mem_tokenize ht
  | mismatchedBracket bracket => exact mem_line?_of_is ht h
  | nestingTooDeep limit =>
      rcases h with h | h
      · obtain ⟨line, hget, hmem⟩ := mem_line?_of_is ht h
        exact ⟨line, hget, .inl hmem⟩
      · obtain ⟨line, hget, hmem⟩ := mem_line?_of_is ht h
        exact ⟨line, hget, .inr hmem⟩

/-- An error of a source blames a line of the source, on which is found what the error says.  The
source has tokens, so the line from which a state starts is never the one that is blamed. -/
theorem parseSource_blames_line (source : String) (e : ParseError)
    (h : parseSource source = .error e) :
    1 ≤ e.line ∧ e.line ≤ 1 + lineFeeds source ∧ e.kind.FoundOn source e.line ∧
      tokenize source ≠ [] ∧
      ∀ line, { State.start with line := line }.outcome (tokenize source) = .error e := by
  obtain ⟨t, ht, hline, hblames⟩ := exists_blamed h
  obtain ⟨hpos, hle⟩ := line_le_of_mem_tokenize ht
  rw [hline]
  refine ⟨hpos, hle, hblames.foundOn ht, List.ne_nil_of_mem ht, fun line => ?_⟩
  rw [outcome_line_eq_parse]
  exact h

/-- A block on the first line, and a call on the third that has no closing bracket.  The lines after
it are blank. -/
def openCall : String := "while (a) \x7b\n  int b;\n  b.next( \n\t\n"

/-- The error about the bracket that is missing. -/
def openCallError : ParseError := ⟨.expectedToken "')' in file operation" none, 3⟩

/-- The line of the bracket that is missing is not the last one of the source. -/
theorem parseSource_blames_line_openCall :
    parseSource openCall = .error openCallError ∧
      1 ≤ openCallError.line ∧ openCallError.line ≤ 1 + lineFeeds openCall ∧
      LastPrinted openCall openCallError.line ∧ tokenize openCall ≠ [] ∧
      ∀ line, { State.start with line := line }.outcome (tokenize openCall) =
        .error openCallError := by
  have htokens : tokenize openCall =
      [⟨.keyword, "while", 1⟩, ⟨.punctuation, "(", 1⟩, ⟨.identifier, "a", 1⟩,
        ⟨.punctuation, ")", 1⟩, ⟨.punctuation, "\x7b", 1⟩, ⟨.keyword, "int", 2⟩,
        ⟨.identifier, "b", 2⟩, ⟨.punctuation, ";", 2⟩, ⟨.identifier, "b", 3⟩, ⟨.operator, ".", 3⟩,
        ⟨.identifier, "next", 3⟩, ⟨.punctuation, "(", 3⟩] := by decide +kernel
  have h : parseSource openCall = .error openCallError := by
    rw [parseSource, htokens]
    rfl
  exact ⟨h, parseSource_blames_line openCall openCallError h⟩

end StreamScript
