import StreamScript.Proofs.Lexical

/-! # Text with spaces in it

A space, which is a blank or a line feed, ends every token before it that is not of unknown kind:
`scanText_token` says that the text of a token with a space after it is scanned as that token.
`scanText_blank` and `scanText_newline` say what a space does at the start of a text. -/

namespace StreamScript

open scoped CharList

namespace Rule

/-- Whether the character is skipped: a blank or a line feed. -/
def isSpace (c : Char) : Bool := isBlank c || c == '\n'

variable {words : List String} {c : Char} {m rest : List Char}

/-- A space is a blank, which does not end the line, or a line feed. -/
theorem isSpace_iff : isSpace c = true ↔ isBlank c = true ∨ c = '\n' := by
  rw [isSpace, Bool.or_eq_true, beq_iff_eq]

theorem mem_of_isSpace (h : isSpace c = true) : c ∈ [' ', '\t', '\r', '\n'] := by
  simpa [isSpace, isBlank, or_assoc] using h

theorem isPrefixOf_append_cons {w : List Char} (h : c ∉ w) (m rest : List Char) :
    w.isPrefixOf (m ++ c :: rest) = w.isPrefixOf m := by
  induction w generalizing m with
  | nil => simp
  | cons d w ih =>
      rw [List.mem_cons, not_or] at h
      obtain ⟨hd, hw⟩ := h
      cases m with
      | nil =>
          rw [List.nil_append, List.isPrefixOf_cons_cons, beq_eq_false_iff_ne.2 (Ne.symm hd)]
          rfl
      | cons e m =>
          rw [List.cons_append, List.isPrefixOf_cons_cons, List.isPrefixOf_cons_cons, ih hw]

theorem takeWhile_append_cons {f : Char → Bool} (h : f c = false) (m rest : List Char) :
    (m ++ c :: rest).takeWhile f = m.takeWhile f := by
  induction m with
  | nil => simp [h]
  | cons d m ih => simp only [List.cons_append, List.takeWhile_cons, ih]

theorem leadingText?_append_cons (h : ∀ w ∈ words, c ∉ w.toList) (m rest : List Char) :
    leadingText? words (m ++ c :: rest) = leadingText? words m := by
  induction words with
  | nil => rfl
  | cons w words ih =>
      have ih' := ih fun v hv => h v (List.mem_cons_of_mem w hv)
      unfold leadingText? at ih' ⊢
      rw [List.find?_cons, List.find?_cons, isPrefixOf_append_cons (h w List.mem_cons_self)]
      cases w.toList.isPrefixOf m with
      | true => rfl
      | false => exact ih'

theorem not_mem_of_isSpace (hc : isSpace c = true) :
    (∀ w ∈ keywords, c ∉ w.toList) ∧ (∀ w ∈ operators, c ∉ w.toList) ∧
      c ∉ StreamScript.punctuation.toList ∧ isWordPart c = false := by
  have key : ∀ c ∈ [' ', '\t', '\r', '\n'], (∀ w ∈ keywords, c ∉ w.toList) ∧
      (∀ w ∈ operators, c ∉ w.toList) ∧ c ∉ StreamScript.punctuation.toList ∧
      isWordPart c = false := by decide
  exact key c (mem_of_isSpace hc)

theorem isWordStart_of_isSpace (hc : isSpace c = true) : isWordStart c = false := by
  have hpart := (not_mem_of_isSpace hc).2.2.2
  cases hs : isWordStart c with
  | false => rfl
  | true => rw [isWordPart_of_isWordStart hs] at hpart; exact hpart

/-- No rule but the one for literals reaches over a space. -/
theorem piece?_append_space {r : Rule} (hr : r ∈ [keyword, identifier, operator, punctuation])
    (hc : isSpace c = true) (m rest : List Char) : r.piece? (m ++ c :: rest) = r.piece? m := by
  obtain ⟨hk, ho, hp, hw⟩ := not_mem_of_isSpace hc
  simp only [List.mem_cons, List.not_mem_nil, or_false] at hr
  rcases hr with rfl | rfl | rfl | rfl
  · exact leadingText?_append_cons hk m rest
  · cases m with
    | nil => simp [piece?, isWordStart_of_isSpace hc]
    | cons d m =>
        have htake := takeWhile_append_cons hw (d :: m) rest
        rw [List.cons_append] at htake ⊢
        simp only [piece?, htake]
  · exact leadingText?_append_cons ho m rest
  · cases m with
    | nil => simpa [piece?] using hp
    | cons d m => rfl

theorem piece?_literal_append (hm : m.head? ≠ some '"') (hc : isSpace c = true)
    (rest : List Char) : literal.piece? (m ++ c :: rest) = none := by
  have hq : ∀ c ∈ [' ', '\t', '\r', '\n'], c ≠ '"' := by decide
  cases m with
  | nil => simp [piece?, hq c (mem_of_isSpace hc)]
  | cons d m =>
      have hd : d ≠ '"' := by simpa using hm
      simp [piece?, hd]

/-! ### The texts of tokens are their own first piece -/

theorem piece?_of_mem_keywords : ∀ w ∈ keywords, keyword.piece? w.toList = some w.toList := by
  decide

theorem piece?_of_mem_operators : ∀ w ∈ operators, keyword.piece? w.toList = none ∧
    identifier.piece? w.toList = none ∧ w.toList.head? ≠ some '"' ∧
      operator.piece? w.toList = some w.toList := by
  decide

theorem piece?_of_mem_punctuation : ∀ c ∈ StreamScript.punctuation.toList,
    String.ofList [c] ∉ operators → keyword.piece? [c] = none ∧ identifier.piece? [c] = none ∧
      [c].head? ≠ some '"' ∧ operator.piece? [c] = none ∧ punctuation.piece? [c] = some [c] := by
  decide

theorem piece?_of_isName {s : String} (h : IsName s) :
    keyword.piece? s.toList = none ∧ identifier.piece? s.toList = some s.toList := by
  obtain ⟨⟨d, ds, htext, hd, hds⟩, hfree⟩ := h
  constructor
  · exact leadingText?_eq_none_iff.2 hfree
  · have hall : ∀ e ∈ d :: ds, isWordPart e = true :=
      List.forall_mem_cons.2 ⟨isWordPart_of_isWordStart hd, hds⟩
    have htake : (d :: ds ++ []).takeWhile isWordPart = d :: ds ++ [] :=
      List.takeWhile_append_of_pos hall
    rw [List.append_nil] at htake
    simp only [htext, piece?, if_pos hd, htake]

theorem piece?_of_isPath {s : String} (h : IsPath s) (rest : List Char) :
    keyword.piece? (s.toList ++ rest) = none ∧ identifier.piece? (s.toList ++ rest) = none ∧
      literal.piece? (s.toList ++ rest) = some s.toList := by
  obtain ⟨body, htext, hq, hn⟩ := h
  have hbody : ∀ d ∈ body, isLiteralStop d = false := by
    intro d hd
    have h1 : d ≠ '"' := fun h => hq (h ▸ hd)
    have h2 : d ≠ '\n' := fun h => hn (h ▸ hd)
    simp [isLiteralStop, h1, h2]
  have hstop : isLiteralStop '"' = true := by decide
  have htake := takeWhile_isLiteralPart hbody hstop rest
  have hdrop := dropWhile_isLiteralPart hbody hstop rest
  rw [htext]
  refine ⟨rfl, rfl, ?_⟩
  simp [piece?, htake, hdrop]

end Rule

open Rule

/-- The text of a token, with a space after it, begins with a piece that is the token. -/
theorem start_of_lexical {t : Token} (ht : t.Lexical) (hk : t.kind ≠ .unknown) {c : Char}
    (hc : isSpace c = true) (rest : List Char) :
    ∃ r : Rule, r.kind? = some t.kind ∧
      Piece.start (t.text.toList ++ c :: rest) = ⟨some r, t.text.toList⟩ := by
  have happend {r : Rule} (hr : r ∈ [keyword, identifier, operator, Rule.punctuation]) :=
    piece?_append_space hr hc t.text.toList rest
  rcases t with ⟨kind, text, line⟩
  cases kind with
  | keyword =>
      refine ⟨keyword, rfl, Piece.start_eq_some_iff.2 ⟨?_, ?_⟩⟩
      · rw [happend (by decide)]
        exact piece?_of_mem_keywords text ht
      · simp [before, inOrder]
  | identifier =>
      obtain ⟨hword, hname⟩ := piece?_of_isName ht
      refine ⟨identifier, rfl, Piece.start_eq_some_iff.2 ⟨?_, ?_⟩⟩
      · rw [happend (by decide), hname]
      · simp [before, inOrder, happend, hword]
  | literal =>
      obtain ⟨hword, hname, hpath⟩ := piece?_of_isPath ht (c :: rest)
      refine ⟨literal, rfl, Piece.start_eq_some_iff.2 ⟨hpath, ?_⟩⟩
      simp [before, inOrder, hword, hname]
  | operator =>
      obtain ⟨hword, hname, hquote, hop⟩ := piece?_of_mem_operators text ht
      refine ⟨operator, rfl, Piece.start_eq_some_iff.2 ⟨?_, ?_⟩⟩
      · rw [happend (by decide), hop]
      · simp [before, inOrder, happend, hword, hname, piece?_literal_append hquote hc]
  | punctuation =>
      obtain ⟨d, hd, htext, hnot⟩ := ht
      rw [htext] at hnot
      obtain ⟨hword, hname, hquote, hop, hmark⟩ := piece?_of_mem_punctuation d hd hnot
      have htoList : text.toList = [d] := by simpa using congrArg String.toList htext
      rw [← htoList] at hword hname hquote hop hmark
      refine ⟨.punctuation, rfl, Piece.start_eq_some_iff.2 ⟨?_, ?_⟩⟩
      · rw [happend (by decide), hmark]
      · simp [before, inOrder, happend, hword, hname, hop, piece?_literal_append hquote hc]
  | unknown => exact absurd rfl hk

/-- The text of a token, with a space after it, is scanned as the token. -/
theorem scanText_token {t : Token} (ht : t.Lexical) (hk : t.kind ≠ .unknown) {c : Char}
    (hc : isSpace c = true) (rest : List Char) :
    scanText t.line (t.text.toList ++ c :: rest) = t :: scanText t.line (c :: rest) := by
  obtain ⟨r, hkind, hstart⟩ := start_of_lexical ht hk hc rest
  have hpiece := (Piece.start_eq_some_iff.1 hstart).1
  have hlines : (Piece.lexeme ⟨some r, t.text.toList⟩).newlines = 0 := by
    cases r <;> first | rfl | cases hkind
  have htoken : Piece.token? ⟨some r, t.text.toList⟩ t.line = some t := by
    simp [Piece.token?, Piece.lexeme, Lexeme.kind?, hkind]
  rw [scanText_append (x := ⟨some r, t.text.toList⟩) (ne_nil_of_piece? hpiece) hstart, htoken,
    hlines]
  rfl

/-! ### Spaces at the start -/

theorem piece?_of_isSpace {c : Char} (hc : isSpace c = true) (rest : List Char) :
    ∀ r ∈ blank.before, r.piece? (c :: rest) = none := by
  have happend {r : Rule} (hr : r ∈ [keyword, identifier, operator, Rule.punctuation]) :
      r.piece? (c :: rest) = r.piece? [] := piece?_append_space hr hc [] rest
  have hquote : literal.piece? (c :: rest) = none :=
    piece?_literal_append (m := []) (by decide) hc rest
  have hempty : ∀ r ∈ inOrder, r.piece? [] = none := by decide
  intro r hr
  have hr' : r ∈ [keyword, identifier, literal, operator, Rule.punctuation] := hr
  by_cases hl : r = literal
  · rw [hl, hquote]
  · rw [happend, hempty]
    · cases r <;> decide
    · cases r <;> simp_all

theorem start_blank {c : Char} (hc : isBlank c = true) (rest : List Char) :
    Piece.start (c :: rest) = ⟨some blank, (c :: rest).takeWhile isBlank⟩ := by
  refine Piece.start_eq_some_iff.2 ⟨?_, piece?_of_isSpace (isSpace_iff.2 (.inl hc)) rest⟩
  simp [piece?, hc]

theorem start_newline (rest : List Char) :
    Piece.start ('\n' :: rest) = ⟨some newline, ['\n']⟩ := by
  refine Piece.start_eq_some_iff.2 ⟨rfl, ?_⟩
  intro r hr
  have hr' : r ∈ blank.before ∨ r = blank := by
    revert r
    decide
  rcases hr' with hr' | rfl
  · exact piece?_of_isSpace (by decide) rest r hr'
  · rfl

theorem scanText_dropWhile (line : Nat) (cs : List Char) :
    scanText line (cs.dropWhile isBlank) = scanText line cs := by
  cases cs with
  | nil => rfl
  | cons c rest =>
      cases hc : isBlank c with
      | false => rw [List.dropWhile_cons_of_neg (by simp [hc])]
      | true =>
          have hsplit : (c :: rest).takeWhile isBlank ++ (c :: rest).dropWhile isBlank =
              c :: rest := List.takeWhile_append_dropWhile
          have hdrop : ((c :: rest).takeWhile isBlank ++ (c :: rest).dropWhile isBlank).drop
              ((c :: rest).takeWhile isBlank).length = (c :: rest).dropWhile isBlank :=
            List.drop_left
          rw [hsplit] at hdrop
          rw [scanText_of_ne_nil line (List.cons_ne_nil c rest), start_blank hc, hdrop]
          rfl

theorem scanText_blank (line : Nat) {c : Char} (hc : isBlank c = true) (rest : List Char) :
    scanText line (c :: rest) = scanText line rest := by
  rw [← scanText_dropWhile line (c :: rest), List.dropWhile_cons_of_pos hc, scanText_dropWhile]

theorem scanText_newline (line : Nat) (rest : List Char) :
    scanText line ('\n' :: rest) = scanText (line + 1) rest := by
  exact scanText_append (x := ⟨some newline, ['\n']⟩) (by decide) (start_newline rest)

/-! ### Tokens with spaces between them -/

/-- Whether the scan finds the token again where its text stands on line one before a space. -/
def Token.Plain (t : Token) : Prop := t.Lexical ∧ t.kind ≠ .unknown ∧ t.line = 1

/-- The texts of the tokens, with a space after each. -/
def spaced (ts : List Token) : List Char := ts.flatMap fun t => t.text.toList ++ [' ']

theorem scanText_spaced {ts : List Token} (h : ∀ t ∈ ts, t.Plain) :
    scanText 1 (spaced ts) = ts := by
  induction ts with
  | nil => exact scanText_nil 1
  | cons t ts ih =>
      obtain ⟨⟨hl, hk, hline⟩, hts⟩ := List.forall_mem_cons.1 h
      have htoken := scanText_token hl hk (c := ' ') (by decide) (spaced ts)
      rw [hline, scanText_blank 1 (by decide), ih hts] at htoken
      have hcons : spaced (t :: ts) = t.text.toList ++ ' ' :: spaced ts := by
        rw [spaced, List.flatMap_cons, List.append_assoc]
        rfl
      rw [hcons, htoken]

/-- The tokens of a source that is made of tokens and spaces. -/
theorem tokenize_spaced {ts : List Token} (h : ∀ t ∈ ts, t.Plain) :
    tokenize (String.ofList (spaced ts)) = ts := by
  rw [tokenize_eq_scanText, String.toList_ofList, scanText_spaced h]

end StreamScript
