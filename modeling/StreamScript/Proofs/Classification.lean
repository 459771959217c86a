import StreamScript.Proofs.Layout

/-! # The kinds of tokens

What is known of the tokens of a source by their kinds.  The scan takes longest matches, so an
identifier does not begin with a reserved word and ends where no further character could belong
to it; and the operators `<` and `>` are never found as punctuation. -/

namespace StreamScript

open Rule

variable {x : Gapped} {xs : List Gapped} {last : String} {line : Nat} {c : Char}
  {m cs gap rest : List Char} {t : Token} {ts : List Token}

/-! ### One token of a layout -/

theorem longestScan_append_spaces (line : Nat) (h : ∀ c ∈ gap, isSpace c = true)
    (cs : List Char) :
    longestScan line (gap ++ cs) = longestScan (line + gap.count '\n') cs := by
  induction gap generalizing line with
  | nil => rfl
  | cons c gap ih =>
      obtain ⟨hc, hgap⟩ := List.forall_mem_cons.1 h
      rw [List.cons_append]
      rcases isSpace_iff.1 hc with hblank | rfl
      · have hcount : (c :: gap).count '\n' = gap.count '\n' := by
          refine List.count_cons_of_ne ?_
          rintro rfl
          exact absurd hblank (by decide)
        rw [longestScan_blank line hblank, ih line hgap, hcount]
      · rw [longestScan_newline, ih (line + 1) hgap, List.count_cons_self, Nat.add_right_comm,
          Nat.add_assoc]

theorem longestToken_of_cons_eq (ht : t.text.toList = c :: m) (hc : isSpace c = false)
    (h : t :: ts = longestScan line (t.text.toList ++ rest)) :
    t.line = line ∧ longestToken c (m ++ rest) = (t.kind, c :: m) ∧
      ts = longestScan line rest := by
  rw [ht, List.cons_append, longestScan_token line hc] at h
  obtain ⟨hhead, htail⟩ := List.cons.inj h
  have hm : (longestToken c (m ++ rest)).2 = c :: m := by
    rw [← ht, hhead, String.toList_ofList]
  have hdrop : (c :: (m ++ rest)).drop (c :: m).length = rest := List.drop_left
  rw [hm, hdrop] at htail
  refine ⟨by rw [hhead], Prod.ext (by rw [hhead]) hm, htail⟩

/-- The first token of a layout is the longest match after its gap, and the rest is a layout of
what follows. -/
theorem IsLayout.uncons {s : String} (h : IsLayout (longestScan line s.toList) s (x :: xs) last) :
    ∃ c m, x.token.text.toList = c :: m ∧ isSpace c = false ∧
      longestToken c (m ++ (weave xs last).toList) = (x.token.kind, c :: m) ∧
      IsLayout (longestScan x.token.line (weave xs last).toList) (weave xs last) xs last := by
  obtain ⟨htokens, rfl, hgaps, hlast⟩ := h
  obtain ⟨hgap, hgaps⟩ := List.forall_mem_cons.1 hgaps
  have hmem : x.token ∈ longestScan line (weave (x :: xs) last).toList := by
    rw [← htokens]
    exact List.mem_cons_self
  obtain ⟨c, m, htext, hc⟩ := exists_text_of_mem_longestScan hmem
  rw [toList_weave_cons, longestScan_append_spaces line hgap] at htokens
  obtain ⟨hline, hmatch, hrest⟩ := longestToken_of_cons_eq htext hc htokens
  rw [← hline] at hrest
  exact ⟨c, m, htext, hc, hmatch, hrest, rfl, hgaps, hlast⟩

/-! ### Identifiers -/

theorem longestToken_of_identifier (h : (longestToken c cs).1 = .identifier) :
    (longestToken c cs).2 = c :: cs.takeWhile isWordPart := by
  unfold longestToken at h ⊢
  split at h
  · cases h
  split at h
  · next hw => rw [if_pos hw]
  split at h
  · cases h
  split at h
  · cases h
  split at h <;> cases h

theorem eq_false_of_takeWhile_append {f : Char → Bool} (h : m = (m ++ rest).takeWhile f) :
    ∀ c ∈ rest.head?, f c = false := by
  have hsplit := List.takeWhile_append_dropWhile (p := f) (l := m ++ rest)
  rw [← h] at hsplit
  have hstop := List.head?_dropWhile_not f (m ++ rest)
  rw [List.append_cancel_left hsplit] at hstop
  intro c hc
  rw [Option.mem_def] at hc
  rwa [hc] at hstop

theorem IsLayout.isWordPart_eq_false {s : String}
    (h : IsLayout (longestScan line s.toList) s xs last) {before after : List Gapped}
    (hx : xs = before ++ x :: after) (hk : x.token.kind = .identifier) :
    ∀ c ∈ (weave after last).toList.head?, isWordPart c = false := by
  induction before generalizing xs line s with
  | nil =>
      subst hx
      obtain ⟨c, m, -, -, hmatch, -⟩ := h.uncons
      have hkind : (longestToken c (m ++ (weave after last).toList)).1 = .identifier := by
        rw [hmatch, hk]
      have htext := longestToken_of_identifier hkind
      rw [hmatch] at htext
      exact eq_false_of_takeWhile_append (List.cons.inj htext).2
  | cons y before ih =>
      subst hx
      obtain ⟨-, -, -, -, -, hrest⟩ := h.uncons
      exact ih hrest rfl

/-! ### Classes -/

/-- The tokens of a source are its longest matches.  So no identifier begins with a reserved word
or is followed by a character that could belong to it, and `<` and `>` are never punctuation. -/
theorem tokenize_classified (s : String) :
    tokenize s = longestScan 1 s.toList ∧
      (∀ t ∈ tokenize s, t.kind = .identifier → ∀ w ∈ keywords, ¬ w.toList <+: t.text.toList) ∧
      ((∃ xs last, IsLayout (tokenize s) s xs last) ∧
        ∀ xs last, IsLayout (tokenize s) s xs last → ∀ before x after, xs = before ++ x :: after →
          x.token.kind = .identifier →
            ∀ c ∈ (weave after last).toList.head?, isWordPart c = false) ∧
      ∀ t ∈ tokenize s, t.kind = .punctuation → t.text ≠ "<" ∧ t.text ≠ ">" := by
  refine ⟨tokenize_eq_longestScan s, ?_, ⟨?_, ?_⟩, ?_⟩
  · intro t ht hk
    exact ((lexical_of_mem_tokenize ht).isName hk).2
  · obtain ⟨xs, last, h, -⟩ := exists_layout s
    exact ⟨xs, last, h⟩
  · intro xs last h before x after hx hk
    rw [tokenize_eq_longestScan] at h
    exact h.isWordPart_eq_false hx hk
  · intro t ht hk
    have h := lexical_of_mem_tokenize ht
    unfold Token.Lexical at h
    rw [hk] at h
    obtain ⟨c, -, -, hop⟩ := h
    refine ⟨?_, ?_⟩
    · intro hless
      exact hop (by rw [hless]; decide)
    · intro hgreater
      exact hop (by rw [hgreater]; decide)

end StreamScript
