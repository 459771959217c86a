import StreamScript.Proofs.LongestMatch

/-! # Layouts of sources

A source is the texts of its tokens with gaps of spaces around them, and nothing else.
`exists_layout` gives such a layout of every source, in which the line of a token is known from
the line feeds before its text. -/

namespace StreamScript

open Rule

/-- A token with the gap before it. -/
structure Gapped where
  gap : String
  token : Token

/-- The texts of the tokens, each after its gap, and `last` at the end. -/
def weave : List Gapped → String → String
  | [], last => last
  | x :: xs, last => x.gap ++ x.token.text ++ weave xs last

/-- Whether the text consists of spaces. -/
def Spaces (s : String) : Prop := ∀ c ∈ s.toList, isSpace c = true

instance (s : String) : Decidable (Spaces s) := List.decidableBAll _ _

/-- The number of line feeds in a text. -/
def lineFeeds (s : String) : Nat := s.toList.count '\n'

/-- The text is that of the tokens with gaps of spaces around them. -/
structure IsLayout (ts : List Token) (s : String) (xs : List Gapped) (last : String) : Prop where
  tokens : xs.map Gapped.token = ts
  text : weave xs last = s
  gaps : ∀ x ∈ xs, Spaces x.gap
  last : Spaces last

/-- Each token is on the line that the gaps up to it lead to from `line`. -/
def OnLines : Nat → List Gapped → Prop
  | _, [] => True
  | line, x :: xs => x.token.line = line + lineFeeds x.gap ∧ OnLines x.token.line xs

variable {x : Gapped} {xs : List Gapped} {last : String} {line : Nat} {c : Char} {cs : List Char}
  {t : Token} {ts : List Token}

theorem toList_weave_cons :
    (weave (x :: xs) last).toList =
      x.gap.toList ++ (x.token.text.toList ++ (weave xs last).toList) := by
  simp [weave]

theorem lineFeeds_append (s u : String) : lineFeeds (s ++ u) = lineFeeds s + lineFeeds u := by
  simp [lineFeeds]

/-! ### The texts of tokens -/

theorem exists_text_of_mem_longestScan (h : t ∈ longestScan line cs) :
    ∃ c m, t.text.toList = c :: m ∧ isSpace c = false := by
  fun_induction longestScan line cs with
  | case1 => exact absurd h List.not_mem_nil
  | case2 _ _ ih => exact ih h
  | case3 _ _ _ _ _ ih => exact ih h
  | case4 line c cs hline hblank found ih =>
      have hc : isSpace c = false := isSpace_eq_false_iff.2 ⟨hline, hblank⟩
      rcases List.mem_cons.1 h with rfl | h
      · obtain ⟨d, m, hm⟩ := List.exists_cons_of_ne_nil (longestToken_ne_nil hc cs)
        have hprefix := prefix_longestToken hc cs
        rw [hm, List.cons_prefix_cons] at hprefix
        exact ⟨c, m, by rw [String.toList_ofList, ← hprefix.1, ← hm], hc⟩
      · exact ih h

theorem lexical_of_mem_longestScan (h : t ∈ longestScan line cs) : t.Lexical := by
  rw [← scanText_eq_longestScan] at h
  exact lexical_of_mem_scanText h

theorem Token.Lexical.newline_not_mem {m : List Char} (h : t.Lexical)
    (ht : t.text.toList = c :: m) (hc : isSpace c = false) : '\n' ∉ t.text.toList := by
  obtain ⟨hkeywords, hoperators, -, hpart⟩ := not_mem_of_isSpace (c := '\n') (by decide)
  have hne : c ≠ '\n' := (isSpace_eq_false_iff.1 hc).1
  rcases t with ⟨kind, text, line⟩
  cases kind with
  | keyword => exact hkeywords text h
  | operator => exact hoperators text h
  | identifier =>
      obtain ⟨⟨d, ds, htext, -, hds⟩, -⟩ := h
      rw [ht] at htext ⊢
      obtain ⟨rfl, rfl⟩ := List.cons.inj htext
      rw [List.mem_cons, not_or]
      refine ⟨Ne.symm hne, fun hmem => ?_⟩
      rw [hds _ hmem] at hpart
      cases hpart
  | literal =>
      obtain ⟨body, htext, -, hbody⟩ := h
      simp only at htext
      simp [htext, hbody]
  | punctuation =>
      obtain ⟨d, -, htext, -⟩ := h
      simp only at htext ht
      rw [htext, String.toList_ofList] at ht ⊢
      obtain ⟨rfl, -⟩ := List.cons.inj ht
      simpa using Ne.symm hne
  | unknown =>
      obtain ⟨d, htext⟩ := h
      simp only at htext ht
      rw [htext, String.toList_ofList] at ht ⊢
      obtain ⟨rfl, -⟩ := List.cons.inj ht
      simpa using Ne.symm hne

theorem newline_not_mem_of_mem_longestScan (h : t ∈ longestScan line cs) :
    '\n' ∉ t.text.toList := by
  obtain ⟨c, m, htext, hc⟩ := exists_text_of_mem_longestScan h
  exact (lexical_of_mem_longestScan h).newline_not_mem htext hc

theorem text_of_mem_tokenize {s : String} (h : t ∈ tokenize s) :
    t.text ≠ "" ∧ '\n' ∉ t.text.toList := by
  rw [tokenize_eq_longestScan] at h
  refine ⟨?_, newline_not_mem_of_mem_longestScan h⟩
  obtain ⟨c, m, htext, -⟩ := exists_text_of_mem_longestScan h
  intro hempty
  rw [hempty] at htext
  cases htext

/-! ### The layout that a scan finds -/

theorem ofList_cons (c : Char) (cs : List Char) :
    String.ofList (c :: cs) = String.ofList [c] ++ String.ofList cs := by
  rw [← String.ofList_append]
  rfl

theorem spaces_append {s u : String} (hs : Spaces s) (hu : Spaces u) : Spaces (s ++ u) := by
  intro c hc
  rw [String.toList_append, List.mem_append] at hc
  exact hc.elim (hs c) (hu c)

/-- A space before the text goes to the first gap. -/
theorem IsLayout.cons_space {s : String} (h : IsLayout ts s xs last) (hc : isSpace c = true)
    (hlines : OnLines (line + [c].count '\n') xs) :
    ∃ ys end', IsLayout ts (String.ofList [c] ++ s) ys end' ∧ OnLines line ys := by
  have hspaces : Spaces (String.ofList [c]) := by simpa [Spaces] using hc
  obtain ⟨rfl, rfl, hgaps, hlast⟩ := h
  cases xs with
  | nil => exact ⟨[], _, ⟨rfl, rfl, hgaps, spaces_append hspaces hlast⟩, trivial⟩
  | cons x xs =>
      rw [List.forall_mem_cons] at hgaps
      refine ⟨⟨String.ofList [c] ++ x.gap, x.token⟩ :: xs, last, ⟨rfl, ?_, ?_, hlast⟩, ?_, hlines.2⟩
      · simp [weave, String.append_assoc]
      · exact List.forall_mem_cons.2 ⟨spaces_append hspaces hgaps.1, hgaps.2⟩
      · have hfeeds : lineFeeds (String.ofList [c]) = [c].count '\n' := by
          rw [lineFeeds, String.toList_ofList]
        rw [hlines.1, lineFeeds_append, hfeeds, Nat.add_assoc]

/-- The tokens of a text with the gaps before them. -/
theorem exists_layout_of_longestScan (line : Nat) (cs : List Char) :
    ∃ xs last, IsLayout (longestScan line cs) (String.ofList cs) xs last ∧ OnLines line xs := by
  fun_induction longestScan line cs with
  | case1 line => exact ⟨[], "", ⟨rfl, rfl, by simp, by simp [Spaces]⟩, trivial⟩
  | case2 line cs ih =>
      obtain ⟨xs, last, h, hlines⟩ := ih
      have hc : isSpace '\n' = true := by decide
      rw [ofList_cons]
      exact h.cons_space hc hlines
  | case3 line c cs hline hblank ih =>
      obtain ⟨xs, last, h, hlines⟩ := ih
      have hcount : [c].count '\n' = 0 := List.count_eq_zero.2 (by simpa using Ne.symm hline)
      rw [ofList_cons]
      exact h.cons_space (isSpace_iff.2 (.inl hblank)) (by rwa [hcount])
  | case4 line c cs hline hblank found ih =>
      obtain ⟨xs, last, h, hlines⟩ := ih
      have hc : isSpace c = false := isSpace_eq_false_iff.2 ⟨hline, hblank⟩
      have htext := List.prefix_iff_eq_append.1 (prefix_longestToken hc cs)
      refine ⟨⟨"", ⟨found.1, String.ofList found.2, line⟩⟩ :: xs, last, ⟨?_, ?_, ?_, h.last⟩,
        rfl, hlines⟩
      · rw [List.map_cons, h.tokens]
      · rw [weave, h.text, String.empty_append, ← String.ofList_append, htext]
      · exact List.forall_mem_cons.2 ⟨by simp [Spaces], h.gaps⟩

theorem exists_layout (s : String) :
    ∃ xs last, IsLayout (tokenize s) s xs last ∧ OnLines 1 xs := by
  obtain ⟨xs, last, h, hlines⟩ := exists_layout_of_longestScan 1 s.toList
  rw [← tokenize_eq_longestScan, String.ofList_toList] at h
  exact ⟨xs, last, h, hlines⟩

/-! ### Lines -/

/-- Where no token has a line feed in it, a token is on the line that all text before it leads
to. -/
theorem OnLines.line_eq (h : OnLines line xs) (hn : ∀ x ∈ xs, '\n' ∉ x.token.text.toList) {i : Nat}
    (hi : i < xs.length) :
    xs[i].token.line = line + lineFeeds (weave (xs.take i) xs[i].gap) := by
  induction xs generalizing line i with
  | nil => cases hi
  | cons x xs ih =>
      obtain ⟨hx, hxs⟩ := h
      rw [List.forall_mem_cons] at hn
      have hfeeds : lineFeeds x.token.text = 0 := List.count_eq_zero.2 hn.1
      cases i with
      | zero => exact hx
      | succ i =>
          have hline := ih hxs hn.2 (Nat.lt_of_succ_lt_succ hi)
          rw [List.take_succ_cons, List.getElem_cons_succ, weave, lineFeeds_append,
            lineFeeds_append, hfeeds, hline, hx]
          omega

theorem OnLines.le (h : OnLines line xs) : ∀ x ∈ xs, line ≤ x.token.line := by
  induction xs generalizing line with
  | nil => simp
  | cons x xs ih =>
      obtain ⟨hx, hxs⟩ := h
      refine List.forall_mem_cons.2 ⟨by omega, fun y hy => ?_⟩
      have := ih hxs y hy
      omega

theorem OnLines.pairwise (h : OnLines line xs) :
    (xs.map Gapped.token).Pairwise (·.line ≤ ·.line) := by
  induction xs generalizing line with
  | nil => exact .nil
  | cons x xs ih =>
      rw [List.map_cons, List.pairwise_cons, List.forall_mem_map]
      exact ⟨h.2.le, ih h.2⟩

/-- A source is the texts of its tokens with gaps of spaces around them.  No text is empty or has
a line feed in it, and a token is on the line that begins after the line feeds before its text. -/
theorem exists_lossless_layout (s : String) :
    ∃ xs last, IsLayout (tokenize s) s xs last ∧
      (∀ t ∈ tokenize s, t.text ≠ "" ∧ '\n' ∉ t.text.toList) ∧
      (∀ i, ∀ hi : i < xs.length,
        xs[i].token.line = 1 + lineFeeds (weave (xs.take i) xs[i].gap)) ∧
      (tokenize s).Pairwise (·.line ≤ ·.line) := by
  obtain ⟨xs, last, h, hlines⟩ := exists_layout s
  have htexts : ∀ t ∈ tokenize s, t.text ≠ "" ∧ '\n' ∉ t.text.toList :=
    fun t ht => text_of_mem_tokenize ht
  have hfeeds : ∀ x ∈ xs, '\n' ∉ x.token.text.toList := by
    intro x hx
    refine (htexts x.token ?_).2
    rw [← h.tokens]
    exact List.mem_map_of_mem hx
  refine ⟨xs, last, h, htexts, fun i hi => hlines.line_eq hfeeds hi, ?_⟩
  rw [← h.tokens]
  exact hlines.pairwise

end StreamScript
