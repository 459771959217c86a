import Mathlib.Data.List.MinMax
import StreamScript.Proofs.Spaced

/-! # Longest matches

The scan takes the first rule that applies and, within a table of words, the first word that is
there.  Here is a scan that says instead what is taken: `longestScan` skips spaces and takes, at
any other character, the longest reserved word, else the longest run of a name, else a closed
literal, else the longest operator, else a punctuation character, else one character.
`tokenize_eq_longestScan` says that the two scans find the same tokens.

The two agree on words because no word of a table stands before one that it begins:
`longest?_eq_find?`. -/

namespace StreamScript

/-- The longest of the words with which the text begins. -/
def longest? (words : List String) (cs : List Char) : Option String :=
  (words.filter fun w => w.toList.isPrefixOf cs).argmax String.length

/-- The characters before the first line feed. -/
def firstLine (cs : List Char) : List Char := cs.takeWhile (· ≠ '\n')

@[simp] theorem firstLine_nil : firstLine [] = [] := rfl

@[simp] theorem firstLine_newline (cs : List Char) : firstLine ('\n' :: cs) = [] := rfl

theorem firstLine_cons_of_ne {c : Char} (h : c ≠ '\n') (cs : List Char) :
    firstLine (c :: cs) = c :: firstLine cs :=
  List.takeWhile_cons_of_pos (by simpa using h)

/-- The token at the start of a text whose first character `c` is no space: its kind and its
characters. -/
def longestToken (c : Char) (cs : List Char) : TokenKind × List Char :=
  match longest? keywords (c :: cs) with
  | some word => (.keyword, word.toList)
  | none =>
    if Rule.isWordStart c then (.identifier, c :: cs.takeWhile Rule.isWordPart)
    else if c = '"' ∧ '"' ∈ firstLine cs then
      (.literal, '"' :: cs.takeWhile (· ≠ '"') ++ ['"'])
    else
      match longest? operators (c :: cs) with
      | some word => (.operator, word.toList)
      | none =>
        if c ∈ ";()\x7b\x7d[],".toList then (.punctuation, [c]) else (.unknown, [c])

/-! ### Words -/

section

variable {words : List String} {cs : List Char} {w : String}

/-- No word begins a later one. -/
def LongerFirst (words : List String) : Prop := words.Pairwise fun v w => ¬ v.toList <+: w.toList

instance (words : List String) : Decidable (LongerFirst words) :=
  inferInstanceAs (Decidable (words.Pairwise fun v w => ¬ v.toList <+: w.toList))

theorem longerFirst_keywords : LongerFirst keywords := by decide

theorem longerFirst_operators : LongerFirst operators := by decide

/-- Of two words at the start of a text, the one that does not begin the other is the longer. -/
theorem length_le_of_prefixes {v w : String} (hv : v.toList <+: cs) (hw : w.toList <+: cs)
    (h : ¬ v.toList <+: w.toList) : w.length ≤ v.length := by
  have hle := ((List.prefix_or_prefix_of_prefix hv hw).resolve_left h).length_le
  rwa [String.length_toList, String.length_toList] at hle

/-- Where no word begins a later one, the first word that is there is the longest. -/
theorem longest?_eq_find? (h : LongerFirst words) (cs : List Char) :
    longest? words cs = words.find? (·.toList.isPrefixOf cs) := by
  have hprefix : ∀ v ∈ words.filter fun w => w.toList.isPrefixOf cs, v.toList <+: cs := by
    intro v hv
    exact List.isPrefixOf_iff_prefix.1 (List.mem_filter.1 hv).2
  have hsorted := h.filter fun w => w.toList.isPrefixOf cs
  rw [longest?, ← List.head?_filter]
  generalize words.filter (fun w => w.toList.isPrefixOf cs) = found at hprefix hsorted
  cases found with
  | nil => rfl
  | cons v found =>
      rw [List.pairwise_cons] at hsorted
      rw [List.forall_mem_cons] at hprefix
      obtain ⟨hv, hfound⟩ := hprefix
      rw [List.head?_cons, List.argmax_eq_some_iff, List.forall_mem_cons]
      refine ⟨List.mem_cons_self, ⟨Nat.le_refl _, ?_⟩, ?_⟩
      · intro w hw
        exact length_le_of_prefixes hv (hfound w hw) (hsorted.1 w hw)
      · intro w _ _
        rw [List.idxOf_cons_self]
        exact Nat.zero_le _

theorem leadingText?_eq_longest? (h : LongerFirst words) (cs : List Char) :
    Rule.leadingText? words cs = (longest? words cs).map String.toList := by
  rw [longest?_eq_find? h, Rule.leadingText?]

end

/-! ### The first piece is the longest match -/

namespace Rule

variable {c stop : Char} {cs body rest : List Char}

theorem isLiteralStop_eq_false_iff : isLiteralStop c = false ↔ c ≠ '"' ∧ c ≠ '\n' := by
  simp [isLiteralStop]

theorem takeWhile_ne_of_stop (h : ∀ d ∈ body, d ≠ stop) :
    (body ++ stop :: rest).takeWhile (· ≠ stop) = body := by
  rw [List.takeWhile_append_of_pos (by simpa using h)]
  simp

/-- A quote is closed where another one stands before the line ends. -/
theorem piece?_literal_eq (c : Char) (cs : List Char) :
    literal.piece? (c :: cs) = if c = '"' ∧ '"' ∈ firstLine cs then
      some ('"' :: cs.takeWhile (· ≠ '"') ++ ['"']) else none := by
  rcases literal_stop_cases cs with h | ⟨body, stop, rest, rfl, hbody, hstop⟩
  · have hdrop : cs.dropWhile isLiteralPart = [] := by
      rw [← List.append_nil cs, List.dropWhile_append_of_pos (isLiteralPart_of_all h)]
      rfl
    have hopen : '"' ∉ firstLine cs := by
      intro hmem
      exact (isLiteralStop_eq_false_iff.1 (h _ ((List.takeWhile_sublist _).mem hmem))).1 rfl
    rw [if_neg fun h => hopen h.2]
    simp [piece?, hdrop]
  · have hbody' := fun d hd => isLiteralStop_eq_false_iff.1 (hbody d hd)
    simp only [piece?, dropWhile_isLiteralPart hbody hstop, takeWhile_isLiteralPart hbody hstop]
    by_cases hs : stop = '"'
    · subst hs
      have hclosed : '"' ∈ firstLine (body ++ '"' :: rest) := by
        rw [firstLine, List.takeWhile_append_of_pos (by simpa using fun d hd => (hbody' d hd).2)]
        simp
      rw [takeWhile_ne_of_stop fun d hd => (hbody' d hd).1]
      simp only [hclosed, List.head?_cons, and_true]
    · have hline : stop = '\n' := by simpa [isLiteralStop, hs] using hstop
      subst hline
      have hopen : '"' ∉ body := fun hmem => (hbody' _ hmem).1 rfl
      rw [firstLine, takeWhile_ne_of_stop fun d hd => (hbody' d hd).2]
      simp only [List.head?_cons, Option.some.injEq, hs, hopen, and_false, if_false]

theorem piece?_identifier_eq (c : Char) (cs : List Char) :
    identifier.piece? (c :: cs) =
      if isWordStart c then some (c :: cs.takeWhile isWordPart) else none := by
  by_cases hw : isWordStart c = true
  · simp [piece?, hw, isWordPart_of_isWordStart hw]
  · simp [piece?, hw]

theorem piece?_of_not_isSpace (h : isSpace c = false) (cs : List Char) :
    blank.piece? (c :: cs) = none ∧ newline.piece? (c :: cs) = none := by
  simp_all [isSpace, piece?]

end Rule

open Rule

variable {c : Char} {cs m : List Char} {r : Rule} {kind : TokenKind}

/-- The operators `<` and `>` are the only punctuation characters that are operators as well. -/
theorem mem_punctuation_iff (h : longest? operators (c :: cs) = none) :
    c ∈ StreamScript.punctuation.toList ↔ c ∈ ";()\x7b\x7d[],".toList := by
  have hop : ∀ w ∈ operators, ¬ w.toList <+: c :: cs := by
    rw [← leadingText?_eq_none_iff, leadingText?_eq_longest? longerFirst_operators, h]
    rfl
  have hless : c ≠ '<' := by
    rintro rfl
    exact hop "<" (by decide) (List.prefix_append ['<'] cs)
  have hgreater : c ≠ '>' := by
    rintro rfl
    exact hop ">" (by decide) (List.prefix_append ['>'] cs)
  simp [StreamScript.punctuation, hless, hgreater]

theorem piece?_punctuation_eq (h : longest? operators (c :: cs) = none) :
    Rule.punctuation.piece? (c :: cs) =
      if c ∈ ";()\x7b\x7d[],".toList then some [c] else none := by
  simp only [piece?, List.contains_iff_mem, mem_punctuation_iff h]

/-- The first piece of the text is a token of the given kind with the given characters. -/
def StartsWith (cs : List Char) (found : TokenKind × List Char) : Prop :=
  ∃ rule?, Piece.start cs = ⟨rule?, found.2⟩ ∧
    (Piece.lexeme ⟨rule?, found.2⟩).kind? = some found.1 ∧
    (Piece.lexeme ⟨rule?, found.2⟩).newlines = 0

theorem StartsWith.of_piece? (h : r.piece? cs = some m) (hr : r.kind? = some kind)
    (hbefore : ∀ q ∈ r.before, q.piece? cs = none) : StartsWith cs (kind, m) := by
  refine ⟨some r, Piece.start_eq_some_iff.2 ⟨h, hbefore⟩, hr, ?_⟩
  cases r with
  | newline => cases hr
  | _ => rfl

theorem StartsWith.of_none (h : ∀ r : Rule, r.piece? (c :: cs) = none) :
    StartsWith (c :: cs) (.unknown, [c]) :=
  ⟨none, Piece.start_eq_none_iff.2 ⟨rfl, h⟩, rfl, rfl⟩

/-- At a character that is no space the first piece is the longest match. -/
theorem startsWith_longestToken (hc : isSpace c = false) (cs : List Char) :
    StartsWith (c :: cs) (longestToken c cs) := by
  have hk : keyword.piece? (c :: cs) = (longest? keywords (c :: cs)).map String.toList :=
    leadingText?_eq_longest? longerFirst_keywords (c :: cs)
  have hi := piece?_identifier_eq c cs
  have hl := piece?_literal_eq c cs
  have ho : operator.piece? (c :: cs) = (longest? operators (c :: cs)).map String.toList :=
    leadingText?_eq_longest? longerFirst_operators (c :: cs)
  unfold longestToken
  cases hkeyword : longest? keywords (c :: cs) with
  | some w =>
      rw [hkeyword] at hk
      exact .of_piece? hk rfl (by simp [before, inOrder])
  | none =>
      rw [hkeyword] at hk
      dsimp only
      split
      · next hstart =>
        rw [if_pos hstart] at hi
        exact .of_piece? hi rfl (by simp [before, inOrder, hk])
      next hstart =>
      rw [if_neg hstart] at hi
      split
      · next hclosed =>
        rw [if_pos hclosed] at hl
        exact .of_piece? hl rfl (by simp [before, inOrder, hk, hi])
      next hclosed =>
      rw [if_neg hclosed] at hl
      cases hoperator : longest? operators (c :: cs) with
      | some w =>
          rw [hoperator] at ho
          exact .of_piece? ho rfl (by simp [before, inOrder, hk, hi, hl])
      | none =>
          rw [hoperator] at ho
          have hp := piece?_punctuation_eq hoperator
          dsimp only
          split
          · next hmem =>
            rw [if_pos hmem] at hp
            exact .of_piece? hp rfl (by simp [before, inOrder, hk, hi, hl, ho])
          · next hmem =>
            rw [if_neg hmem] at hp
            obtain ⟨hblank, hnewline⟩ := piece?_of_not_isSpace hc cs
            refine .of_none fun r => ?_
            cases r <;> assumption

theorem prefix_longestToken (hc : isSpace c = false) (cs : List Char) :
    (longestToken c cs).2 <+: c :: cs := by
  obtain ⟨rule?, hstart, -⟩ := startsWith_longestToken hc cs
  have := Piece.prefix_start (c :: cs)
  rwa [hstart] at this

theorem longestToken_ne_nil (hc : isSpace c = false) (cs : List Char) :
    (longestToken c cs).2 ≠ [] := by
  obtain ⟨rule?, hstart, -⟩ := startsWith_longestToken hc cs
  have := Piece.text_start_ne_nil (List.cons_ne_nil c cs)
  rwa [hstart] at this

theorem length_drop_longestToken_lt (hc : isSpace c = false) (cs : List Char) :
    ((c :: cs).drop (longestToken c cs).2.length).length < (c :: cs).length := by
  have := List.length_pos_iff.2 (longestToken_ne_nil hc cs)
  rw [List.length_drop, List.length_cons]
  omega

/-! ### The scan -/

theorem isSpace_eq_false_iff : isSpace c = false ↔ c ≠ '\n' ∧ ¬ isBlank c = true := by
  simp [isSpace, and_comm]

/-- The tokens of a text whose first line has number `line`: a line feed is skipped and begins a
line, spaces, tabs and carriage returns are skipped, and at any other character the longest match
is taken. -/
def longestScan (line : Nat) : List Char → List Token
  | [] => []
  | c :: cs =>
    if c = '\n' then longestScan (line + 1) cs
    else if isBlank c then longestScan line cs
    else
      let found := longestToken c cs
      ⟨found.1, String.ofList found.2, line⟩ :: longestScan line ((c :: cs).drop found.2.length)
termination_by cs => cs.length
decreasing_by
  · exact Nat.lt_succ_self _
  · exact Nat.lt_succ_self _
  · exact length_drop_longestToken_lt (isSpace_eq_false_iff.2 ⟨‹_›, ‹_›⟩) _

theorem longestScan_nil (line : Nat) : longestScan line [] = [] := by
  rw [longestScan]

theorem longestScan_newline (line : Nat) (cs : List Char) :
    longestScan line ('\n' :: cs) = longestScan (line + 1) cs := by
  rw [longestScan, if_pos rfl]

theorem longestScan_blank (line : Nat) (hc : isBlank c = true) (cs : List Char) :
    longestScan line (c :: cs) = longestScan line cs := by
  have hline : c ≠ '\n' := by
    rintro rfl
    exact absurd hc (by decide)
  rw [longestScan, if_neg hline, if_pos hc]

theorem longestScan_token (line : Nat) (hc : isSpace c = false) (cs : List Char) :
    longestScan line (c :: cs) =
      ⟨(longestToken c cs).1, String.ofList (longestToken c cs).2, line⟩ ::
        longestScan line ((c :: cs).drop (longestToken c cs).2.length) := by
  obtain ⟨hline, hblank⟩ := isSpace_eq_false_iff.1 hc
  rw [longestScan, if_neg hline, if_neg hblank]

theorem scanText_eq_longestScan (line : Nat) (cs : List Char) :
    scanText line cs = longestScan line cs := by
  fun_induction longestScan line cs with
  | case1 line => exact scanText_nil line
  | case2 line cs ih => rw [scanText_newline, ih]
  | case3 line c cs hline hblank ih =>
      rw [scanText_blank line hblank, ih]
  | case4 line c cs hline hblank found ih =>
      have hc : isSpace c = false := isSpace_eq_false_iff.2 ⟨hline, hblank⟩
      obtain ⟨rule?, hstart, hkind, hlines⟩ := startsWith_longestToken hc cs
      rw [scanText_of_ne_nil line (List.cons_ne_nil c cs), hstart, Piece.token?, hkind, hlines]
      exact congrArg _ ih

/-- The tokens of a source are its longest matches. -/
theorem tokenize_eq_longestScan (s : String) : tokenize s = longestScan 1 s.toList := by
  rw [tokenize_eq_scanText, scanText_eq_longestScan]

end StreamScript
