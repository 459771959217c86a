import StreamScript.Proofs.SourceLines

/-! # Scanning line by line

No rule looks past a line feed, so the scan could stop at each of them and start again: the tokens
of a text with a line feed in it are those of what stands before it and those of what stands after
it (`longestScan_append_newline`), and a start on a later line moves the tokens down
(`longestScan_add`).  So the tokens of a source are those of its lines, and a change of one line
leaves the tokens of all other lines as they are (`tokenize_line_by_line`). -/

namespace StreamScript

open Rule

variable {words : List String} {cs ds l : List Char} {t : Token} {line n : Nat}

/-- The token `n` lines further down. -/
def Token.below (n : Nat) (t : Token) : Token := { t with line := t.line + n }

/-- The lines of a source, without their line feeds. -/
def sourceLines (s : String) : List String := (textLines s.toList).map String.ofList

/-! ### A line feed -/

theorem longest?_append_cons {d : Char} (h : ∀ w ∈ words, d ∉ w.toList) (cs ds : List Char) :
    longest? words (cs ++ d :: ds) = longest? words cs := by
  have hfilter : words.filter (fun w => w.toList.isPrefixOf (cs ++ d :: ds)) =
      words.filter fun w => w.toList.isPrefixOf cs := by
    refine List.filter_congr fun w hw => ?_
    rw [isPrefixOf_append_cons (h w hw)]
  rw [longest?, hfilter, longest?]

/-- A longest match does not depend on what follows a space, if no quote comes to stand on its
line with it. -/
theorem longestToken_append_space {d : Char} (hd : isSpace d = true) (c : Char)
    (hclosed : '"' ∈ firstLine (cs ++ d :: ds) ↔ '"' ∈ firstLine cs) :
    longestToken c (cs ++ d :: ds) = longestToken c cs := by
  obtain ⟨hkeywords, hoperators, -, hpart⟩ := not_mem_of_isSpace hd
  have hword : (cs ++ d :: ds).takeWhile isWordPart = cs.takeWhile isWordPart :=
    takeWhile_append_cons hpart cs ds
  -- where a literal is closed, the quote that closes it stands before the space
  have hquote (h : '"' ∈ firstLine cs) :
      (cs ++ d :: ds).takeWhile (· ≠ '"') = cs.takeWhile (· ≠ '"') := by
    obtain ⟨body, rest, rfl, hbody⟩ :=
      List.eq_append_cons_of_mem ((List.takeWhile_sublist _).mem h)
    have hne : ∀ d ∈ body, d ≠ '"' := fun d hd hq => hbody (hq ▸ hd)
    rw [List.append_assoc, List.cons_append, takeWhile_ne_of_stop hne, takeWhile_ne_of_stop hne]
  unfold longestToken
  rw [← List.cons_append, longest?_append_cons hkeywords, longest?_append_cons hoperators,
    hword]
  simp only [hclosed]
  by_cases h : '"' ∈ firstLine cs
  · rw [hquote h]
  · simp only [h, and_false, if_false]

theorem longestToken_append_newline (c : Char) (cs ds : List Char) :
    longestToken c (cs ++ '\n' :: ds) = longestToken c cs := by
  have hline : firstLine (cs ++ '\n' :: ds) = firstLine cs :=
    takeWhile_append_cons (by decide) cs ds
  exact longestToken_append_space (by decide) c (by rw [hline])

theorem newline_not_mem_longestToken {c : Char} (hc : isSpace c = false) (cs : List Char) :
    '\n' ∉ (longestToken c cs).2 := by
  have hmem : Token.mk (longestToken c cs).1 (String.ofList (longestToken c cs).2) 1 ∈
      longestScan 1 (c :: cs) := by
    rw [longestScan_token 1 hc]
    exact List.mem_cons_self
  simpa using newline_not_mem_of_mem_longestScan hmem

theorem longestScan_append_newline (line : Nat) (cs ds : List Char) :
    longestScan line (cs ++ '\n' :: ds) =
      longestScan line cs ++ longestScan (line + cs.count '\n' + 1) ds := by
  fun_induction longestScan line cs with
  | case1 line => exact longestScan_newline line ds
  | case2 line cs ih =>
      rw [List.cons_append, longestScan_newline, ih, List.count_cons_self, Nat.add_right_comm line,
        Nat.add_assoc line]
  | case3 line c cs hline hblank ih =>
      rw [List.cons_append, longestScan_blank line hblank, ih, List.count_cons_of_ne hline]
  | case4 line c cs hline hblank found ih =>
      have hc : isSpace c = false := isSpace_eq_false_iff.2 ⟨hline, hblank⟩
      have hprefix : found.2 <+: c :: cs := prefix_longestToken hc cs
      have hcount : ((c :: cs).drop found.2.length).count '\n' = (c :: cs).count '\n' := by
        conv_rhs => rw [← List.prefix_iff_eq_append.1 hprefix, List.count_append]
        rw [List.count_eq_zero.2 (newline_not_mem_longestToken hc cs), Nat.zero_add]
      rw [hcount] at ih
      rw [List.cons_append, longestScan_token line hc, longestToken_append_newline,
        ← List.cons_append, List.drop_append_of_le_length hprefix.length_le, ih, List.cons_append]

theorem longestScan_add (line n : Nat) (cs : List Char) :
    longestScan (line + n) cs = (longestScan line cs).map (Token.below n) := by
  fun_induction longestScan line cs with
  | case1 line => exact longestScan_nil (line + n)
  | case2 line cs ih => rw [longestScan_newline, Nat.add_right_comm, ih]
  | case3 line c cs hline hblank ih => rw [longestScan_blank _ hblank, ih]
  | case4 line c cs hline hblank found ih =>
      rw [longestScan_token _ (isSpace_eq_false_iff.2 ⟨hline, hblank⟩), ih]
      rfl

/-! ### All lines -/

theorem line_of_mem_longestScan (hl : '\n' ∉ l) (h : t ∈ longestScan line l) : t.line = line := by
  fun_induction longestScan line l with
  | case1 => exact absurd h List.not_mem_nil
  | case2 line cs ih => exact absurd List.mem_cons_self hl
  | case3 line c cs hline hblank ih => exact ih (fun hmem => hl (List.mem_cons_of_mem c hmem)) h
  | case4 line c cs hline hblank found ih =>
      rcases List.mem_cons.1 h with rfl | h
      · rfl
      · exact ih (fun hmem => hl ((List.drop_sublist _ _).mem hmem)) h

/-- The tokens of lines that are joined by line feeds are those of each line, scanned by itself from
its own number on. -/
theorem longestScan_intercalate {lines : List (List Char)} (hfeeds : ∀ l ∈ lines, '\n' ∉ l)
    (hne : lines ≠ []) (line : Nat) :
    longestScan line (['\n'].intercalate lines) =
      (lines.zipIdx line).flatMap fun x => longestScan x.2 x.1 := by
  induction lines generalizing line with
  | nil => exact absurd rfl hne
  | cons first rest ih =>
      obtain ⟨hfirst, hrest⟩ := List.forall_mem_cons.1 hfeeds
      cases rest with
      | nil => simp
      | cons second rest =>
          rw [List.intercalate_cons_cons, List.append_assoc, List.singleton_append,
            longestScan_append_newline, List.count_eq_zero.2 hfirst, Nat.add_zero,
            ih hrest (List.cons_ne_nil second rest)]
          rfl

theorem newline_not_mem_of_mem_textLines (h : l ∈ textLines cs) : '\n' ∉ l :=
  fun hmem => (mem_of_mem_textLines h hmem).2 rfl

theorem longestScan_eq_flatMap (line : Nat) (cs : List Char) :
    longestScan line cs = ((textLines cs).zipIdx line).flatMap fun x => longestScan x.2 x.1 := by
  have hne : textLines cs ≠ [] := List.splitOn_ne_nil '\n' cs
  rw [← longestScan_intercalate (fun l hl => newline_not_mem_of_mem_textLines hl) hne]
  exact congrArg _ (List.intercalate_splitOn '\n').symm

theorem filter_longestScan (n line : Nat) (cs : List Char) :
    (longestScan line cs).filter (·.line ≠ n) =
      ((textLines cs).zipIdx line).flatMap fun x =>
        if x.2 = n then [] else longestScan x.2 x.1 := by
  rw [longestScan_eq_flatMap, List.filter_flatMap]
  refine List.flatMap_congr fun x hx => ?_
  have hline : ∀ t ∈ longestScan x.2 x.1, t.line = x.2 := fun t ht =>
    line_of_mem_longestScan (newline_not_mem_of_mem_textLines (List.fst_mem_of_mem_zipIdx hx)) ht
  split
  · next hn =>
    rw [List.filter_eq_nil_iff]
    intro t ht
    simp [hline t ht, hn]
  · next hn =>
    rw [List.filter_eq_self]
    intro t ht
    simpa [hline t ht] using hn

/-! ### A change of one line -/

section

variable {α β : Type} {g : α × Nat → List β} {xs ys : List α} {k : Nat}

theorem flatMap_zipIdx_eq_nil (hg : ∀ a, g (a, n) = []) (h : ∀ i, k + i ≠ n → xs[i]? = none) :
    (xs.zipIdx k).flatMap g = [] := by
  cases xs with
  | nil => rfl
  | cons x xs =>
      have hk : k = n := by
        by_contra hk
        cases h 0 hk
      have hxs : xs = [] := by simpa using h 1 (by omega)
      subst hk hxs
      rw [List.zipIdx_singleton, List.flatMap_singleton, hg]

theorem flatMap_zipIdx_congr (hg : ∀ a, g (a, n) = []) (h : ∀ i, k + i ≠ n → xs[i]? = ys[i]?) :
    (xs.zipIdx k).flatMap g = (ys.zipIdx k).flatMap g := by
  induction xs generalizing ys k with
  | nil => exact (flatMap_zipIdx_eq_nil hg fun i hi => (h i hi).symm).symm
  | cons x xs ih =>
      cases ys with
      | nil => exact flatMap_zipIdx_eq_nil hg h
      | cons y ys =>
          have htail : (xs.zipIdx (k + 1)).flatMap g = (ys.zipIdx (k + 1)).flatMap g :=
            ih fun i hi => h (i + 1) (by omega)
          have hhead : g (x, k) = g (y, k) := by
            by_cases hk : k = n
            · rw [hk, hg, hg]
            · cases h 0 hk
              rfl
          rw [List.zipIdx_cons, List.zipIdx_cons, List.flatMap_cons, List.flatMap_cons, htail,
            hhead]

end

theorem filter_tokenize_congr {s s' : String} (h : ∀ m, m ≠ n → line? s m = line? s' m) :
    (tokenize s).filter (·.line ≠ n) = (tokenize s').filter (·.line ≠ n) := by
  rw [tokenize_eq_longestScan, tokenize_eq_longestScan, filter_longestScan, filter_longestScan]
  refine flatMap_zipIdx_congr (fun _ => if_pos rfl) fun i hi => ?_
  have hline := h (i + 1) (by omega)
  exact hline

/-- The tokens of two texts with a line feed between them are those of the first, and those of the
second further down by the lines of the first.  So a source has the tokens of its lines, and if two
sources agree on all lines but one, then so do their tokens. -/
theorem tokenize_line_by_line :
    (∀ a b : String, tokenize (a ++ "\n" ++ b) =
      tokenize a ++ (tokenize b).map (Token.below (1 + lineFeeds a))) ∧
    (∀ s : String, tokenize s =
      (sourceLines s).zipIdx.flatMap fun x => (tokenize x.1).map (Token.below x.2)) ∧
    ∀ (s s' : String) (n : Nat), (∀ m, m ≠ n → line? s m = line? s' m) →
      (tokenize s).filter (·.line ≠ n) = (tokenize s').filter (·.line ≠ n) := by
  refine ⟨fun a b => ?_, fun s => ?_, fun s s' n h => ?_⟩
  · have htext : (a ++ "\n" ++ b).toList = a.toList ++ '\n' :: b.toList := by simp
    rw [tokenize_eq_longestScan, htext, longestScan_append_newline, tokenize_eq_longestScan,
      tokenize_eq_longestScan, Nat.add_assoc, longestScan_add, lineFeeds, Nat.add_comm 1]
  · rw [tokenize_eq_longestScan, longestScan_eq_flatMap, sourceLines, List.zipIdx_map,
      List.flatMap_map, List.zipIdx_succ, List.flatMap_map]
    refine List.flatMap_congr fun x _ => ?_
    show longestScan (x.2 + 1) x.1 = (tokenize (String.ofList x.1)).map (Token.below x.2)
    rw [tokenize_eq_longestScan, String.toList_ofList, Nat.add_comm, longestScan_add]
  · exact filter_tokenize_congr h

/-- Three lines, with a quote that is left open on the second. -/
def openQuote : String := "int a;\n\"if\nb.c(\"d\");"

/-- The same lines without the open quote. -/
def withoutQuote : String := "int a;\nif\nb.c(\"d\");"

/-- The open quote on the second line does not meet the quotes on the third. -/
theorem tokenize_line_by_line_openQuote :
    (∀ m, m ≠ 2 → line? openQuote m = line? withoutQuote m) ∧
      (tokenize openQuote).filter (·.line ≠ 2) = (tokenize withoutQuote).filter (·.line ≠ 2) := by
  have hopen : textLines openQuote.toList =
      ["int a;".toList, "\"if".toList, "b.c(\"d\");".toList] := by decide +kernel
  have hwithout : textLines withoutQuote.toList =
      ["int a;".toList, "if".toList, "b.c(\"d\");".toList] := by decide +kernel
  have h : ∀ m, m ≠ 2 → line? openQuote m = line? withoutQuote m := by
    intro m hm
    rcases m with _ | _ | _ | m
    · rfl
    · rw [line?, line?, hopen, hwithout]
      rfl
    · exact absurd rfl hm
    · rw [line?, line?, hopen, hwithout]
      rfl
  exact ⟨h, tokenize_line_by_line.2.2 openQuote withoutQuote 2 h⟩

end StreamScript
