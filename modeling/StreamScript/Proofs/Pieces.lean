import StreamScript.Proofs.CharBytes
import StreamScript.Token.Rule

/-! # The lexical rules on characters

The rules look at bytes.  Here each rule is stated on characters, `Rule.piece?`, and
`Rule.length?_bytes` says that on the bytes of a text it takes the bytes of the same characters.
So the lexeme at the start of a text is a piece of the text, `Piece.start`, and never ends inside
a character. -/

namespace StreamScript

open Utf8

namespace Rule

/-- The first of `words` with which the text begins. -/
def leadingText? (words : List String) (cs : List Char) : Option (List Char) :=
  (words.find? (·.toList.isPrefixOf cs)).map String.toList

/-- Whether a character may stand inside a literal. -/
def isLiteralPart (c : Char) : Bool := !isLiteralStop c

/-- The characters that the rule takes from the start of a text; `none` if it does not apply. -/
def piece? : Rule → List Char → Option (List Char)
  | keyword, cs => leadingText? keywords cs
  | identifier, [] => none
  | identifier, c :: cs => if isWordStart c then some ((c :: cs).takeWhile isWordPart) else none
  | literal, [] => none
  | literal, c :: cs =>
    if c = '"' ∧ (cs.dropWhile isLiteralPart).head? = some '"' then
      some ('"' :: cs.takeWhile isLiteralPart ++ ['"'])
    else none
  | operator, cs => leadingText? operators cs
  | punctuation, [] => none
  | punctuation, c :: _ => if StreamScript.punctuation.toList.contains c then some [c] else none
  | blank, cs => if cs.takeWhile isBlank ≠ [] then some (cs.takeWhile isBlank) else none
  | newline, [] => none
  | newline, c :: _ => if c = '\n' then some [c] else none

/-! ### The tests of the rules look for ASCII characters -/

theorem asciiTest_isWordPart : AsciiTest isWordPart := by
  intro c hc
  have hle : ∀ d : Char, d.toNat < 128 → c.val ≤ d.val → c.toNat < 128 := by
    intro d hd hcd
    exact Nat.lt_of_le_of_lt (UInt32.le_iff_toNat_le.1 hcd) hd
  rw [isWordPart, Bool.or_eq_true] at hc
  rcases hc with hc | hc
  · have hranges : (decide (c.val ≥ 'A'.val ∧ c.val ≤ 'Z'.val) ||
        (decide (c.val ≥ 'a'.val) && decide (c.val ≤ 'z'.val)) ||
        (decide (c.val ≥ '0'.val) && decide (c.val ≤ '9'.val))) = true := hc
    simp only [Bool.or_eq_true, Bool.and_eq_true, decide_eq_true_eq] at hranges
    rcases hranges with (h | h) | h
    · exact hle 'Z' (by decide) h.2
    · exact hle 'z' (by decide) h.2
    · exact hle '9' (by decide) h.2
  · rw [eq_of_beq hc]
    decide

theorem asciiTest_isWordStart : AsciiTest isWordStart :=
  fun c hc => asciiTest_isWordPart c (isWordPart_of_isWordStart hc)

theorem asciiTest_isBlank : AsciiTest isBlank := by
  intro c hc
  simp only [isBlank, Bool.or_eq_true, beq_iff_eq] at hc
  rcases hc with (rfl | rfl) | rfl <;> decide

theorem asciiTest_isLiteralStop : AsciiTest isLiteralStop := by
  intro c hc
  simp only [isLiteralStop, Bool.or_eq_true, beq_iff_eq] at hc
  rcases hc with rfl | rfl <;> decide

theorem ascii_keywords : ∀ w ∈ keywords, Ascii w.toList := by
  decide

theorem ascii_operators : ∀ w ∈ operators, Ascii w.toList := by
  decide

theorem ascii_punctuation : Ascii StreamScript.punctuation.toList := by
  decide

/-! ### Each rule takes the bytes of its piece -/

theorem leadingWord?_bytes {words : List String} (h : ∀ w ∈ words, Ascii w.toList)
    (cs : List Char) :
    leadingWord? (words.map encode) (bytes cs) =
      (leadingText? words cs).map fun m => (bytes m).length := by
  induction words with
  | nil => rfl
  | cons w words ih =>
      have hw := h w List.mem_cons_self
      have ih' := ih fun v hv => h v (List.mem_cons_of_mem w hv)
      unfold leadingWord? leadingText? at ih' ⊢
      rw [List.map_cons, List.find?_cons, List.find?_cons, encode_eq_bytes,
        isPrefixOf_bytes hw]
      cases w.toList.isPrefixOf cs with
      | true => rfl
      | false => exact ih'

/-- A text has no literal stop, or begins with characters that are none and then one. -/
theorem literal_stop_cases (cs : List Char) :
    (∀ c ∈ cs, isLiteralStop c = false) ∨
      ∃ body stop rest, cs = body ++ stop :: rest ∧ (∀ c ∈ body, isLiteralStop c = false) ∧
        isLiteralStop stop = true := by
  induction cs with
  | nil => exact .inl fun c hc => absurd hc List.not_mem_nil
  | cons c cs ih =>
      cases hc : isLiteralStop c with
      | true => exact .inr ⟨[], c, cs, rfl, fun d hd => absurd hd List.not_mem_nil, hc⟩
      | false =>
          rcases ih with h | ⟨body, stop, rest, rfl, hbody, hstop⟩
          · exact .inl (List.forall_mem_cons.2 ⟨hc, h⟩)
          · exact .inr ⟨c :: body, stop, rest, rfl, List.forall_mem_cons.2 ⟨hc, hbody⟩, hstop⟩

theorem isLiteralPart_of_all {body : List Char} (h : ∀ c ∈ body, isLiteralStop c = false) :
    ∀ c ∈ body, isLiteralPart c = true := by
  intro c hc
  rw [isLiteralPart, h c hc]
  rfl

theorem takeWhile_isLiteralPart {body : List Char} (h : ∀ c ∈ body, isLiteralStop c = false)
    {stop : Char} (hs : isLiteralStop stop = true) (rest : List Char) :
    (body ++ stop :: rest).takeWhile isLiteralPart = body := by
  rw [List.takeWhile_append_of_pos (isLiteralPart_of_all h)]
  simp [isLiteralPart, hs]

theorem dropWhile_isLiteralPart {body : List Char} (h : ∀ c ∈ body, isLiteralStop c = false)
    {stop : Char} (hs : isLiteralStop stop = true) (rest : List Char) :
    (body ++ stop :: rest).dropWhile isLiteralPart = stop :: rest := by
  rw [List.dropWhile_append_of_pos (isLiteralPart_of_all h)]
  simp [isLiteralPart, hs]

theorem asciiTest_eq {d : Char} (hd : d.toNat < 128) : AsciiTest (· == d) := by
  intro c hc
  rw [eq_of_beq hc]
  exact hd

theorem length?_literal_bytes (cs : List Char) :
    literal.length? (bytes cs) = (literal.piece? cs).map fun m => (bytes m).length := by
  cases cs with
  | nil => rfl
  | cons c cs =>
      obtain ⟨lead, more, hcons, -⟩ := exists_utf8EncodeChar_eq_cons c
      have hq : ('"' : Char).toNat < 128 := by decide
      have hlead := (asciiTest_eq hq).lead_eq hcons
      rw [bytes_cons, hcons, List.cons_append]
      simp only [length?, piece?, hlead]
      by_cases hc : c = '"'
      · rw [hc, utf8EncodeChar_of_lt hq] at hcons
        obtain ⟨-, rfl⟩ := List.cons.inj hcons
        simp only [hc, beq_self_eq_true, if_true, List.nil_append, true_and]
        rcases literal_stop_cases cs with h | ⟨body, stop, rest, rfl, hbody, hstop⟩
        · have hdrop : cs.dropWhile isLiteralPart = [] := by
            rw [← List.append_nil cs, List.dropWhile_append_of_pos (isLiteralPart_of_all h)]
            rfl
          rw [asciiTest_isLiteralStop.findIdx?_bytes_eq_none h, hdrop]
          rfl
        · obtain ⟨hfind, hget⟩ :=
            asciiTest_isLiteralStop.findIdx?_bytes_append hbody hstop rest
          rw [hfind, dropWhile_isLiteralPart hbody hstop, takeWhile_isLiteralPart hbody hstop]
          simp only [hget, List.head?_cons, beq_iff_eq, Option.some.injEq]
          by_cases hs : stop = '"'
          · simp [hs, bytes_cons, utf8EncodeChar_of_lt hq]
          · simp [hs]
      · simp [hc]

/-- On the bytes of a text a rule takes the bytes of the piece that it takes from the text. -/
theorem length?_bytes (r : Rule) (cs : List Char) :
    r.length? (bytes cs) = (r.piece? cs).map fun m => (bytes m).length := by
  cases r with
  | keyword => exact leadingWord?_bytes ascii_keywords cs
  | operator => exact leadingWord?_bytes ascii_operators cs
  | literal => exact length?_literal_bytes cs
  | identifier =>
      cases cs with
      | nil => rfl
      | cons c cs =>
          obtain ⟨lead, more, hcons, -⟩ := exists_utf8EncodeChar_eq_cons c
          have htake := asciiTest_isWordPart.takeWhile_bytes (c :: cs)
          rw [bytes_cons, hcons, List.cons_append] at htake ⊢
          simp only [length?, piece?, asciiTest_isWordStart.lead_eq hcons, htake]
          split <;> rfl
  | punctuation =>
      cases cs with
      | nil => rfl
      | cons c cs =>
          obtain ⟨lead, more, hcons, -⟩ := exists_utf8EncodeChar_eq_cons c
          have hmem := contains_bytes ascii_punctuation hcons
          rw [bytes_cons, hcons, List.cons_append]
          simp only [length?, piece?, punctuationBytes, encode_eq_bytes, hmem]
          split
          · next h =>
            have hlt := ascii_punctuation c (List.contains_iff_mem.1 h)
            simp [bytes_cons, utf8EncodeChar_of_lt hlt]
          · rfl
  | blank =>
      simp only [length?, piece?, asciiTest_isBlank.takeWhile_bytes, List.length_pos_iff,
        ne_eq, bytes_eq_nil_iff]
      split <;> rfl
  | newline =>
      cases cs with
      | nil => rfl
      | cons c cs =>
          obtain ⟨lead, more, hcons, -⟩ := exists_utf8EncodeChar_eq_cons c
          have hn : ('\n' : Char).toNat < 128 := by decide
          rw [bytes_cons, hcons, List.cons_append]
          simp only [length?, piece?, (asciiTest_eq hn).lead_eq hcons, beq_iff_eq]
          split
          · next h =>
            simp [h, bytes_cons, utf8EncodeChar_of_lt hn]
          · rfl

end Rule

end StreamScript
