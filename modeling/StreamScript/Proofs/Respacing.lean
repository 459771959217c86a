import StreamScript.Proofs.Classification
import StreamScript.Program.Parse

/-! # Sources with other spaces

The tokens of a source may be written with other gaps between them.  As long as the gaps are
spaces, none between two tokens is empty and the line feeds in them lead to the same lines, the
scan finds the same tokens: `tokenize_of_isLayout`.  A quote that is a token by itself is the case
to watch: it stays one because no other quote comes to stand after it on its line, and which
characters stand on a line is known from the tokens (`mem_firstLine_iff`). -/

namespace StreamScript

open Rule
open scoped CharList

variable {x : Gapped} {xs ys : List Gapped} {last : String} {line : Nat} {c d : Char}
  {m cs rest after : List Char} {kind : TokenKind} {words : List String} {w : String}

/-- Whether the text is empty or begins with a space. -/
def Parted (cs : List Char) : Prop := ∀ c ∈ cs.head?, isSpace c = true

/-! ### A match before a space -/

theorem prefix_append_iff {w : List Char} (hw : ∀ c ∈ w, isSpace c = false) (h : Parted after) :
    w <+: cs ++ after ↔ w <+: cs := by
  cases after with
  | nil => rw [List.append_nil]
  | cons d after =>
      have hd : d ∉ w := fun hmem => by simp [hw d hmem, Parted] at h
      rw [← List.isPrefixOf_iff_prefix, ← List.isPrefixOf_iff_prefix,
        isPrefixOf_append_cons hd]

theorem takeWhile_isWordPart_append (hm : (m ++ rest).takeWhile isWordPart = m)
    (h : Parted after) : (m ++ after).takeWhile isWordPart = m := by
  have hpart : ∀ d ∈ m, isWordPart d = true := by
    rw [← hm]
    exact List.all_eq_true.1 List.all_takeWhile
  rw [List.takeWhile_append_of_pos hpart]
  cases after with
  | nil => simp
  | cons d after =>
      have hd := (not_mem_of_isSpace (h d rfl)).2.2.2
      simp [hd]

theorem takeWhile_quote_append (hm : (m ++ rest).takeWhile (· ≠ '"') ++ ['"'] = m)
    (after : List Char) : (m ++ after).takeWhile (· ≠ '"') ++ ['"'] = m := by
  generalize hbody : (m ++ rest).takeWhile (· ≠ '"') = body at hm
  have hopen : ∀ d ∈ body, d ≠ '"' := by
    rw [← hbody]
    intro d hd
    simpa using List.all_eq_true.1 List.all_takeWhile d hd
  rw [← hm, List.append_assoc, List.singleton_append, takeWhile_ne_of_stop hopen]

/-- A table of words without spaces in which no word begins a later one. -/
structure WordTable (words : List String) : Prop where
  longerFirst : LongerFirst words
  not_isSpace : ∀ w ∈ words, ∀ c ∈ w.toList, isSpace c = false

theorem wordTable_keywords : WordTable keywords :=
  ⟨longerFirst_keywords, by decide⟩

theorem wordTable_operators : WordTable operators :=
  ⟨longerFirst_operators, by decide⟩

theorem WordTable.not_prefix_append (hw : WordTable words) (hv : w ∈ words) (h : Parted after)
    (hnot : ¬ w.toList <+: cs ++ rest) : ¬ w.toList <+: cs ++ after := by
  rw [prefix_append_iff (hw.not_isSpace w hv) h]
  exact fun hthere => hnot (hthere.trans (List.prefix_append cs rest))

theorem WordTable.longest?_eq_none (hw : WordTable words) (h : Parted after)
    (hn : longest? words (c :: (m ++ rest)) = none) : longest? words (c :: (m ++ after)) = none := by
  rw [← List.cons_append, longest?_eq_find? hw.longerFirst, List.find?_eq_none] at hn ⊢
  intro v hv
  have hnot := hn v hv
  rw [List.isPrefixOf_iff_prefix] at hnot ⊢
  exact hw.not_prefix_append hv h hnot

theorem WordTable.longest?_eq_some (hw : WordTable words) (h : Parted after)
    (hwm : w.toList = c :: m) (hs : longest? words (c :: (m ++ rest)) = some w) :
    longest? words (c :: (m ++ after)) = some w := by
  rw [← List.cons_append, ← hwm, longest?_eq_find? hw.longerFirst,
    List.find?_eq_some_iff_append] at hs ⊢
  obtain ⟨-, before, more, hwords, hbefore⟩ := hs
  refine ⟨?_, before, more, hwords, ?_⟩
  · rw [List.isPrefixOf_iff_prefix]
    exact List.prefix_append _ _
  · intro v hv
    have hnot := hbefore v hv
    have hmem : v ∈ words := by
      rw [hwords]
      exact List.mem_append_left _ hv
    rw [Bool.not_eq_true', Bool.eq_false_iff, ne_eq, List.isPrefixOf_iff_prefix] at hnot ⊢
    exact hw.not_prefix_append hmem h hnot

/-! ### Lines of characters -/

theorem mem_firstLine_append :
    d ∈ firstLine (m ++ cs) ↔ d ∈ firstLine m ∨ '\n' ∉ m ∧ d ∈ firstLine cs := by
  induction m with
  | nil => simp [firstLine]
  | cons e m ih =>
      by_cases he : e = '\n'
      · simp [he]
      · simp [firstLine_cons_of_ne he, Ne.symm he, ih, or_assoc]

/-- A longest match is still the longest one where a space follows it, if that leaves no quote
open which was closed, and closes none. -/
theorem longestToken_append (hm : longestToken c (m ++ rest) = (kind, c :: m)) (h : Parted after)
    (hquote : '"' ∈ firstLine rest ↔ '"' ∈ firstLine after) :
    longestToken c (m ++ after) = (kind, c :: m) := by
  have hline : '"' ∈ firstLine (m ++ rest) ↔ '"' ∈ firstLine (m ++ after) := by
    rw [mem_firstLine_append, mem_firstLine_append, hquote]
  unfold longestToken at hm ⊢
  cases hk : longest? keywords (c :: (m ++ rest)) with
  | some w =>
      rw [hk] at hm
      rw [wordTable_keywords.longest?_eq_some h (Prod.mk.inj hm).2 hk]
      exact hm
  | none =>
      rw [hk] at hm
      rw [wordTable_keywords.longest?_eq_none h hk]
      dsimp only at hm ⊢
      split at hm
      · next hw =>
        rw [if_pos hw]
        obtain ⟨hkind, htake⟩ := Prod.mk.inj hm
        rw [takeWhile_isWordPart_append (List.cons.inj htake).2 h, hkind]
      next hw =>
      rw [if_neg hw]
      split at hm
      · next hq =>
        rw [hline] at hq
        rw [if_pos hq]
        obtain ⟨hkind, htake⟩ := Prod.mk.inj hm
        obtain ⟨hc, htake⟩ := List.cons.inj htake
        rw [List.cons_append, takeWhile_quote_append htake after, hkind, hc]
      next hq =>
      rw [hline] at hq
      rw [if_neg hq]
      cases ho : longest? operators (c :: (m ++ rest)) with
      | some w =>
          rw [ho] at hm
          rw [wordTable_operators.longest?_eq_some h (Prod.mk.inj hm).2 ho]
          exact hm
      | none =>
          rw [ho] at hm
          rw [wordTable_operators.longest?_eq_none h ho]
          exact hm

/-! ### Two layouts of the same tokens -/

theorem firstLine_eq_self (h : '\n' ∉ m) : firstLine m = m := by
  induction m with
  | nil => rfl
  | cons c m ih =>
      rw [List.mem_cons, not_or] at h
      rw [firstLine_cons_of_ne (Ne.symm h.1), ih h.2]

/-- A character that is no space stands on the first line if it stands in a token of that line. -/
theorem mem_firstLine_weave (h : OnLines line xs) (hgaps : ∀ x ∈ xs, Spaces x.gap)
    (hlast : Spaces last) (hn : ∀ x ∈ xs, '\n' ∉ x.token.text.toList) (hd : isSpace d = false) :
    d ∈ firstLine (weave xs last).toList ↔
      ∃ t ∈ xs.map Gapped.token, t.line = line ∧ d ∈ t.text.toList := by
  have hspaces : ∀ {g : String}, Spaces g → d ∉ firstLine g.toList := by
    intro g hg hmem
    rw [hg d ((List.takeWhile_sublist _).mem hmem)] at hd
    cases hd
  induction xs generalizing line with
  | nil => simpa [weave] using hspaces hlast
  | cons x xs ih =>
      obtain ⟨hgap, hgaps⟩ := List.forall_mem_cons.1 hgaps
      obtain ⟨htext, hn⟩ := List.forall_mem_cons.1 hn
      rw [toList_weave_cons, mem_firstLine_append, mem_firstLine_append, firstLine_eq_self htext]
      by_cases hfeed : '\n' ∈ x.gap.toList
      · -- the line ends in the gap, and all tokens are on later lines
        have hlater : ∀ y ∈ x :: xs, line < y.token.line := by
          have hpos : 0 < lineFeeds x.gap := List.count_pos_iff.2 hfeed
          have hx := h.1
          refine List.forall_mem_cons.2 ⟨by omega, fun y hy => ?_⟩
          have := h.2.le y hy
          omega
        refine iff_of_false (fun hmem => ?_) ?_
        · exact hmem.elim (hspaces hgap) fun hmem => hmem.1 hfeed
        · rintro ⟨t, ht, hline, -⟩
          obtain ⟨y, hy, rfl⟩ := List.mem_map.1 ht
          exact absurd (hlater y hy) (by omega)
      · have hline : x.token.line = line := by
          rw [h.1, lineFeeds, List.count_eq_zero.2 hfeed, Nat.add_zero]
        have hrest := ih h.2 hgaps hn
        rw [hline] at hrest
        simp [hspaces hgap, htext, hfeed, hline, hrest]

theorem IsLayout.mem_firstLine_iff {s : String} (h : IsLayout (longestScan line cs) s xs last)
    (hlines : OnLines line xs) (hd : isSpace d = false) :
    d ∈ firstLine s.toList ↔ ∃ t ∈ longestScan line cs, t.line = line ∧ d ∈ t.text.toList := by
  have hn : ∀ x ∈ xs, '\n' ∉ x.token.text.toList := by
    intro x hx
    have hmem : x.token ∈ longestScan line cs := by
      rw [← h.tokens]
      exact List.mem_map_of_mem hx
    exact newline_not_mem_of_mem_longestScan hmem
  rw [← h.text, ← h.tokens]
  exact mem_firstLine_weave hlines h.gaps h.last hn hd

theorem parted_weave (hgaps : ∀ x ∈ xs, Spaces x.gap) (hlast : Spaces last)
    (hne : ∀ x ∈ xs, x.gap ≠ "") : Parted (weave xs last).toList := by
  cases xs with
  | nil => exact fun c hc => hlast c (List.mem_of_mem_head? hc)
  | cons x xs =>
      have hx := List.forall_mem_cons.1 hgaps
      obtain ⟨c, cs, hcs⟩ := List.exists_cons_of_ne_nil fun h =>
        (List.forall_mem_cons.1 hne).1 (String.toList_eq_nil_iff.1 h)
      have hc := hx.1 c (by simp [hcs])
      rw [toList_weave_cons, hcs]
      simpa [Parted] using hc

/-- A layout is scanned token by token where each token is the longest match after its gap. -/
theorem longestScan_weave_cons (hgap : Spaces x.gap)
    (hline : x.token.line = line + lineFeeds x.gap) (htext : x.token.text.toList = c :: m)
    (hc : isSpace c = false)
    (hmatch : longestToken c (m ++ (weave xs last).toList) = (x.token.kind, c :: m)) :
    longestScan line (weave (x :: xs) last).toList =
      x.token :: longestScan x.token.line (weave xs last).toList := by
  have hdrop : (c :: (m ++ (weave xs last).toList)).drop (c :: m).length =
      (weave xs last).toList := List.drop_left
  have hcount : line + x.gap.toList.count '\n' = x.token.line := hline.symm
  rw [toList_weave_cons, longestScan_append_spaces line hgap, hcount, htext, List.cons_append,
    longestScan_token _ hc, hmatch, hdrop, ← htext, String.ofList_toList]

/-- A text with the same tokens on the same lines, and with no empty gap between two of them,
scans to the same tokens. -/
theorem IsLayout.longestScan_eq {s u end' : String} {ys : List Gapped}
    (h : IsLayout (longestScan line s.toList) s xs last) (hlines : OnLines line xs)
    (h' : IsLayout (longestScan line s.toList) u ys end') (hlines' : OnLines line ys)
    (hne : ∀ y ∈ ys.tail, y.gap ≠ "") :
    longestScan line u.toList = longestScan line s.toList := by
  induction xs generalizing ys line s u with
  | nil =>
      have hnil : longestScan line s.toList = [] := h.tokens.symm
      have hys : ys = [] := List.map_eq_nil_iff.1 (h'.tokens.trans hnil)
      subst hys
      have hscan := longestScan_append_spaces line h'.last []
      rw [List.append_nil, longestScan_nil] at hscan
      rw [hnil, ← h'.text]
      exact hscan
  | cons x xs ih =>
      obtain ⟨c, m, htext, hc, hmatch, hrest⟩ := h.uncons
      have hscan : longestScan line s.toList =
          x.token :: longestScan x.token.line (weave xs last).toList := by
        rw [← h.tokens, List.map_cons, hrest.tokens]
      obtain ⟨htokens, rfl, hgaps, hlast⟩ := h'
      rw [hscan] at htokens ⊢
      cases ys with
      | nil => cases htokens
      | cons y ys =>
          obtain ⟨gap, token⟩ := y
          obtain ⟨rfl, hys⟩ := List.cons.inj htokens
          obtain ⟨hgap, hgaps⟩ := List.forall_mem_cons.1 hgaps
          have htail : IsLayout (longestScan x.token.line (weave xs last).toList)
              (weave ys end') ys end' := ⟨hys, rfl, hgaps, hlast⟩
          -- a lone quote stays one, because both texts have quotes on this line or neither has
          have hquote : '"' ∈ firstLine (weave xs last).toList ↔
              '"' ∈ firstLine (weave ys end').toList := by
            rw [hrest.mem_firstLine_iff hlines.2 (by decide),
              htail.mem_firstLine_iff hlines'.2 (by decide)]
          have hnext : longestToken c (m ++ (weave ys end').toList) = (x.token.kind, c :: m) :=
            longestToken_append hmatch (parted_weave hgaps hlast hne) hquote
          have hsame : longestScan x.token.line (weave ys end').toList =
              longestScan x.token.line (weave xs last).toList :=
            ih hrest hlines.2 htail hlines'.2 fun z hz => hne z (List.mem_of_mem_tail hz)
          rw [longestScan_weave_cons hgap hlines'.1 htext hc hnext, hsame]

/-- The number of line feeds in the gaps. -/
def gapFeeds : List Gapped → Nat
  | [] => 0
  | x :: xs => lineFeeds x.gap + gapFeeds xs

theorem onLines_of_gapFeeds (h : ∀ i, ∀ hi : i < xs.length,
    xs[i].token.line = line + gapFeeds (xs.take (i + 1))) : OnLines line xs := by
  induction xs generalizing line with
  | nil => trivial
  | cons x xs ih =>
      have hx : x.token.line = line + lineFeeds x.gap := h 0 (Nat.zero_lt_succ _)
      refine ⟨hx, ih fun i hi => ?_⟩
      have hnext := h (i + 1) (Nat.succ_lt_succ hi)
      rw [List.getElem_cons_succ, List.take_succ_cons, gapFeeds] at hnext
      omega

/-! ### Tokens written back -/

/-- So many line feeds. -/
def feeds (n : Nat) : String := String.ofList (List.replicate n '\n')

/-- The gap between tokens on two lines: a space if the lines are the same, else line feeds. -/
def gapBetween (before line : Nat) : String := if before < line then feeds (line - before) else " "

/-- The tokens with the gaps after a token on line `before`. -/
def written (before : Nat) : List Token → List Gapped
  | [] => []
  | t :: ts => ⟨gapBetween before t.line, t⟩ :: written t.line ts

/-- The tokens with single spaces and line feeds between them, and line feeds before the first. -/
def unscan : List Token → String
  | [] => ""
  | t :: ts => weave (⟨feeds (t.line - 1), t⟩ :: written t.line ts) ""

theorem spaces_feeds (n : Nat) : Spaces (feeds n) := by
  intro c hc
  rw [feeds, String.toList_ofList] at hc
  rw [List.eq_of_mem_replicate hc]
  decide

theorem lineFeeds_feeds (n : Nat) : lineFeeds (feeds n) = n := by
  rw [lineFeeds, feeds, String.toList_ofList, List.count_replicate_self]

theorem feeds_ne_empty {n : Nat} (h : 0 < n) : feeds n ≠ "" := by
  intro hempty
  have hfeeds := lineFeeds_feeds n
  rw [hempty] at hfeeds
  exact absurd hfeeds (Nat.ne_of_lt h)

theorem gapBetween_spec {before line : Nat} (h : before ≤ line) :
    Spaces (gapBetween before line) ∧ gapBetween before line ≠ "" ∧
      line = before + lineFeeds (gapBetween before line) := by
  unfold gapBetween
  split
  · next hlt =>
    refine ⟨spaces_feeds _, feeds_ne_empty (by omega), ?_⟩
    rw [lineFeeds_feeds]
    omega
  · next hnot => exact ⟨by decide, by decide, Nat.le_antisymm (Nat.not_lt.1 hnot) h⟩

/-- Tokens in the order of their lines, written after a token on an earlier or the same line. -/
theorem written_spec {before : Nat} (hbefore : ∀ t ∈ ts, before ≤ t.line)
    (hsorted : ts.Pairwise (·.line ≤ ·.line)) :
    (written before ts).map Gapped.token = ts ∧
      (∀ x ∈ written before ts, Spaces x.gap ∧ x.gap ≠ "") ∧ OnLines before (written before ts) := by
  induction ts generalizing before with
  | nil => exact ⟨rfl, by simp [written], trivial⟩
  | cons t ts ih =>
      rw [List.pairwise_cons] at hsorted
      obtain ⟨htokens, hgaps, hlines⟩ := ih hsorted.1 hsorted.2
      obtain ⟨hspaces, hne, hline⟩ := gapBetween_spec (hbefore t List.mem_cons_self)
      refine ⟨by rw [written, List.map_cons, htokens], ?_, hline, hlines⟩
      exact List.forall_mem_cons.2 ⟨⟨hspaces, hne⟩, hgaps⟩

theorem exists_layout_unscan (hlines : ∀ t ∈ ts, 1 ≤ t.line)
    (hsorted : ts.Pairwise (·.line ≤ ·.line)) :
    ∃ xs, IsLayout ts (unscan ts) xs "" ∧ OnLines 1 xs ∧ ∀ x ∈ xs.tail, x.gap ≠ "" := by
  have hempty : Spaces "" := by simp [Spaces]
  cases ts with
  | nil => exact ⟨[], ⟨rfl, rfl, by simp, hempty⟩, trivial, by simp⟩
  | cons t ts =>
      rw [List.pairwise_cons] at hsorted
      obtain ⟨htokens, hgaps, hrest⟩ := written_spec hsorted.1 hsorted.2
      have hline : 1 ≤ t.line := hlines t List.mem_cons_self
      refine ⟨_, ⟨?_, rfl, ?_, hempty⟩, ⟨?_, hrest⟩, fun x hx => (hgaps x hx).2⟩
      · rw [List.map_cons, htokens]
      · exact List.forall_mem_cons.2 ⟨spaces_feeds _, fun x hx => (hgaps x hx).1⟩
      · show t.line = 1 + lineFeeds (feeds (t.line - 1))
        rw [lineFeeds_feeds]
        omega

/-! ### Sources -/

theorem tokenize_of_isLayout {s u : String} (h : IsLayout (tokenize s) u xs last)
    (hlines : OnLines 1 xs) (hne : ∀ x ∈ xs.tail, x.gap ≠ "") : tokenize u = tokenize s := by
  obtain ⟨ys, end', hs, hys⟩ := exists_layout s
  rw [tokenize_eq_longestScan] at h hs ⊢
  rw [tokenize_eq_longestScan]
  exact hs.longestScan_eq hys h hlines hne

/-- Texts in which the tokens of a source stand on the same lines, with other gaps of spaces and no
empty gap between two tokens, have the same tokens and parse to the same result.  One of them is
the text with single spaces and line feeds between the tokens. -/
theorem tokenize_respaced (s : String) :
    (∀ u xs last, IsLayout (tokenize s) u xs last → (∀ x ∈ xs.tail, x.gap ≠ "") →
      (∀ i, ∀ hi : i < xs.length, gapFeeds (xs.take (i + 1)) = xs[i].token.line - 1) →
      tokenize u = tokenize s ∧ parseSource u = parseSource s) ∧
    tokenize (unscan (tokenize s)) = tokenize s := by
  obtain ⟨ys, end', hs, hys⟩ := exists_layout s
  have hpos : ∀ t ∈ tokenize s, 1 ≤ t.line := by
    rw [← hs.tokens, List.forall_mem_map]
    exact hys.le
  have hsorted : (tokenize s).Pairwise (·.line ≤ ·.line) := by
    rw [← hs.tokens]
    exact hys.pairwise
  refine ⟨?_, ?_⟩
  · intro u xs last h hne hfeeds
    have hlines : OnLines 1 xs := by
      refine onLines_of_gapFeeds fun i hi => ?_
      have hmem : xs[i].token ∈ tokenize s := by
        rw [← h.tokens]
        exact List.mem_map_of_mem (List.getElem_mem hi)
      have hline := hfeeds i hi
      have hpositive := hpos _ hmem
      omega
    have htokens : tokenize u = tokenize s := tokenize_of_isLayout h hlines hne
    exact ⟨htokens, by rw [parseSource, htokens, parseSource]⟩
  · obtain ⟨xs, h, hlines, hne⟩ := exists_layout_unscan hpos hsorted
    exact tokenize_of_isLayout h hlines hne

/-- A quote by itself before a name, with other gaps. -/
theorem tokenize_respaced_lone_quote :
    tokenize " a \n\t\" b\r" = tokenize "a\n\"b" ∧
      parseSource " a \n\t\" b\r" = parseSource "a\n\"b" := by
  have htokens : tokenize "a\n\"b" =
      [⟨.identifier, "a", 1⟩, ⟨.unknown, "\"", 2⟩, ⟨.identifier, "b", 2⟩] := by decide +kernel
  refine (tokenize_respaced "a\n\"b").1 _
    [⟨" ", ⟨.identifier, "a", 1⟩⟩, ⟨" \n\t", ⟨.unknown, "\"", 2⟩⟩, ⟨" ", ⟨.identifier, "b", 2⟩⟩]
    "\r" ⟨htokens.symm, by decide, by decide, by decide⟩ (by decide) ?_
  decide

end StreamScript
