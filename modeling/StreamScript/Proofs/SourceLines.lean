import StreamScript.Proofs.Layout

/-! # The lines of a source

The lines of a source are what stands between its line feeds, and they are counted from one.  A
token of the source stands on the line whose number it carries (`exists_place_of_getElem?`,
`exists_line?_of_place`): its text is a part of that line.  After the last token of a source there
are only spaces, so the lines after its own are blank. -/

namespace StreamScript

variable {s last : String} {t : Token} {xs : List Gapped} {us m vs line : List Char} {c : Char}

/-- The lines of a text, without their line feeds. -/
def textLines (cs : List Char) : List (List Char) := cs.splitOn '\n'

/-- The line of a source with the given number, the first line having number one. -/
def line? (s : String) : Nat → Option (List Char)
  | 0 => none
  | n + 1 => (textLines s.toList)[n]?

theorem textLines_nil : textLines [] = [[]] := List.splitOn_nil '\n'

theorem textLines_newline (cs : List Char) : textLines ('\n' :: cs) = [] :: textLines cs :=
  List.splitOn_append_cons_self [] cs

theorem textLines_cons_of_ne (h : c ≠ '\n') (cs : List Char) :
    textLines (c :: cs) = (textLines cs).modifyHead (c :: ·) := by
  unfold textLines
  rw [List.splitOn_cons_eq_if_modifyHead, if_neg (by simpa using h)]

/-! ### Parts of a text -/

theorem exists_textLines_cons (cs : List Char) : ∃ first rest, textLines cs = first :: rest :=
  List.exists_cons_of_ne_nil (List.splitOn_ne_nil '\n' cs)

theorem exists_textLines_append (us vs : List Char) :
    ∃ before start first rest, textLines vs = first :: rest ∧
      before.length = us.count '\n' ∧
      textLines (us ++ vs) = before ++ (start ++ first) :: rest := by
  obtain ⟨first, rest, hvs⟩ := exists_textLines_cons vs
  induction us with
  | nil => exact ⟨[], [], first, rest, hvs, rfl, hvs⟩
  | cons c us ih =>
      obtain ⟨before, start, _, _, hvs, hlen, hall⟩ := ih
      by_cases hc : c = '\n'
      · subst hc
        refine ⟨[] :: before, start, _, _, hvs, ?_, ?_⟩
        · rw [List.length_cons, hlen, List.count_cons_self]
        · rw [List.cons_append, textLines_newline, hall, List.cons_append]
      · have hcount : (c :: us).count '\n' = us.count '\n' := List.count_cons_of_ne hc
        rw [List.cons_append, textLines_cons_of_ne hc, hall, hcount]
        cases before with
        | nil => exact ⟨[], c :: start, _, _, hvs, hlen, rfl⟩
        | cons line before => exact ⟨(c :: line) :: before, start, _, _, hvs, hlen, rfl⟩

theorem textLines_append_of_not_mem (h : '\n' ∉ m) (vs : List Char) :
    textLines (m ++ vs) = (textLines vs).modifyHead (m ++ ·) := by
  obtain ⟨first, rest, hvs⟩ := exists_textLines_cons vs
  induction m with
  | nil => rw [hvs]; exact hvs
  | cons c m ih =>
      rw [List.mem_cons, not_or] at h
      rw [List.cons_append, textLines_cons_of_ne (Ne.symm h.1), ih h.2, hvs]
      rfl

theorem mem_of_mem_textLines {cs : List Char} (h : line ∈ textLines cs) (hc : c ∈ line) :
    c ∈ cs ∧ c ≠ '\n' := by
  induction cs generalizing line with
  | nil =>
      rw [textLines_nil, List.mem_singleton] at h
      subst h
      cases hc
  | cons d cs ih =>
      have hrest {l : List Char} (hl : l ∈ textLines cs) (hmem : c ∈ l) :
          c ∈ d :: cs ∧ c ≠ '\n' := by
        obtain ⟨hin, hne⟩ := ih hl hmem
        exact ⟨List.mem_cons_of_mem d hin, hne⟩
      by_cases hd : d = '\n'
      · rw [hd, textLines_newline, List.mem_cons] at h
        rcases h with rfl | h
        · cases hc
        · exact hrest h hc
      · obtain ⟨first, rest, hcs⟩ := exists_textLines_cons cs
        rw [textLines_cons_of_ne hd, hcs, List.modifyHead_cons, List.mem_cons] at h
        rcases h with rfl | h
        · rcases List.mem_cons.1 hc with rfl | hc
          · exact ⟨List.mem_cons_self, hd⟩
          · exact hrest (hcs ▸ List.mem_cons_self) hc
        · exact hrest (hcs ▸ List.mem_cons_of_mem first h) hc

/-- A part of a source without line feeds stands on the line that begins after the line feeds
before it, and the lines after that one have only characters from the rest of the source. -/
theorem exists_line?_of_place (hs : s.toList = us ++ (m ++ vs)) (hm : '\n' ∉ m) :
    (∃ left right, line? s (us.count '\n' + 1) = some (left ++ (m ++ right))) ∧
      ∀ n line, us.count '\n' + 1 < n → line? s n = some line →
        ∀ c ∈ line, c ∈ vs ∧ c ≠ '\n' := by
  obtain ⟨right, rest, hvs⟩ := exists_textLines_cons vs
  obtain ⟨before, left, first, more, hfirst, hlen, hall⟩ := exists_textLines_append us (m ++ vs)
  rw [textLines_append_of_not_mem hm, hvs, List.modifyHead_cons] at hfirst
  obtain ⟨rfl, rfl⟩ := List.cons.inj hfirst
  rw [← hs] at hall
  refine ⟨⟨left, right, ?_⟩, fun n line hn hline c hc => ?_⟩
  · show (textLines s.toList)[us.count '\n']? = _
    rw [hall, ← hlen]
    simp
  · obtain ⟨k, rfl⟩ : ∃ k, n = before.length + (k + 1) + 1 :=
      ⟨n - before.length - 2, by omega⟩
    have hget : (textLines s.toList)[before.length + (k + 1)]? = some line := hline
    rw [hall, List.getElem?_append_right (Nat.le_add_right _ _), Nat.add_sub_cancel_left,
      List.getElem?_cons_succ] at hget
    have hmem : line ∈ textLines vs := by
      rw [hvs]
      exact List.mem_cons_of_mem right (List.mem_of_getElem? hget)
    exact mem_of_mem_textLines hmem hc

/-! ### Tokens -/

theorem weave_eq_append (last : String) {i : Nat} (hi : i < xs.length) :
    weave xs last = weave (xs.take i) xs[i].gap ++
      (xs[i].token.text ++ weave (xs.drop (i + 1)) last) := by
  induction xs generalizing i with
  | nil => cases hi
  | cons x xs ih =>
      cases i with
      | zero => simp [weave, String.append_assoc]
      | succ i =>
          have hrest := ih (Nat.lt_of_succ_lt_succ hi)
          simp only [weave, List.take_succ_cons, List.getElem_cons_succ, List.drop_succ_cons,
            String.append_assoc]
          rw [hrest]

/-- The line of a token begins after the line feeds before its text, and after the last token there
are only spaces. -/
theorem exists_place_of_getElem? {i : Nat} (h : (tokenize s)[i]? = some t) :
    ∃ us vs, s.toList = us ++ (t.text.toList ++ vs) ∧ t.line = us.count '\n' + 1 ∧
      (i + 1 = (tokenize s).length → ∀ c ∈ vs, Rule.isSpace c = true) := by
  obtain ⟨xs, last, hlayout, hlines⟩ := exists_layout s
  have hfeeds : ∀ x ∈ xs, '\n' ∉ x.token.text.toList := by
    intro x hx
    refine (text_of_mem_tokenize (s := s) ?_).2
    rw [← hlayout.tokens]
    exact List.mem_map_of_mem hx
  rw [← hlayout.tokens, List.getElem?_map, Option.map_eq_some_iff] at h
  obtain ⟨x, hx, rfl⟩ := h
  obtain ⟨hi, rfl⟩ := List.getElem?_eq_some_iff.1 hx
  have htext := congrArg String.toList (weave_eq_append last hi)
  rw [hlayout.text, String.toList_append, String.toList_append] at htext
  refine ⟨_, _, htext, ?_, fun hend => ?_⟩
  · rw [hlines.line_eq hfeeds hi, lineFeeds, Nat.add_comm]
  · have hdrop : xs.drop (i + 1) = [] := by
      rw [hend, ← hlayout.tokens, List.length_map, List.drop_length]
    rw [hdrop]
    exact hlayout.last

end StreamScript
