import Mathlib.Logic.Relation
import StreamScript.Proofs.LineByLine
import StreamScript.Proofs.Respacing

/-! # Blanks at the edges of lines

Spaces, tabs and carriage returns at an edge of a line belong to no token.  No token goes over a
line feed, so those after one are skipped (`longestScan_append_newline`), and those before one, or
at the end of the text, cannot become a part of a token that ends in the line
(`longestToken_append_blanks`): a quote that is left open stays open.  So texts that differ only
there have the same tokens on the same lines (`tokenize_of_edges`), and it does not matter whether
lines end in a line feed alone or with a carriage return before it. -/

namespace StreamScript

open Rule Relation
open scoped CharList

variable {us vs blanks cs ds : List Char} {line : Nat} {c : Char}

/-- The place between the two parts of a text is at an edge of a line: at the start or the end of
the text, right after a line feed or right before one. -/
def AtLineEdge (us vs : List Char) : Prop :=
  us = [] ∨ vs = [] ∨ us.getLast? = some '\n' ∨ vs.head? = some '\n'

/-- The second text is the first one with blanks put in at an edge of a line. -/
inductive Padded : List Char → List Char → Prop
  | intro {us blanks vs : List Char} :
      AtLineEdge us vs → (∀ b ∈ blanks, isBlank b = true) → Padded (us ++ vs) (us ++ (blanks ++ vs))

/-- Each text comes from the other by putting in and taking out blanks at edges of lines. -/
def SameUpToEdges (s s' : String) : Prop := EqvGen Padded s.toList s'.toList

/-- A carriage return before every line feed. -/
def addReturns : List Char → List Char
  | [] => []
  | c :: cs => if c = '\n' then '\r' :: '\n' :: addReturns cs else c :: addReturns cs

/-- Every carriage return that stands before a line feed is left out. -/
def dropReturns : List Char → List Char
  | [] => []
  | [c] => [c]
  | c :: d :: cs =>
    if c = '\r' ∧ d = '\n' then '\n' :: dropReturns cs else c :: dropReturns (d :: cs)

/-! ### Scanning -/

theorem isSpace_of_isBlank (h : isBlank c = true) : isSpace c = true := isSpace_iff.2 (.inl h)

theorem newline_not_mem_blanks (h : ∀ b ∈ blanks, isBlank b = true) : '\n' ∉ blanks :=
  fun hmem => absurd (h '\n' hmem) (by decide)

theorem longestScan_blanks_append (h : ∀ b ∈ blanks, isBlank b = true) (line : Nat)
    (cs : List Char) : longestScan line (blanks ++ cs) = longestScan line cs := by
  rw [longestScan_append_spaces line fun b hb => isSpace_of_isBlank (h b hb),
    List.count_eq_zero.2 (newline_not_mem_blanks h), Nat.add_zero]

/-- Blanks at the end of a text change no match: none of them is a quote. -/
theorem longestToken_append_blanks (h : ∀ b ∈ blanks, isBlank b = true) (c : Char)
    (cs : List Char) : longestToken c (cs ++ blanks) = longestToken c cs := by
  cases blanks with
  | nil => rw [List.append_nil]
  | cons b bs =>
      have hquote : '"' ∉ firstLine (b :: bs) := by
        intro hmem
        have hblank := h '"' ((List.takeWhile_sublist _).mem hmem)
        exact absurd hblank (by decide)
      refine longestToken_append_space (isSpace_of_isBlank (h b List.mem_cons_self)) c ?_
      rw [mem_firstLine_append]
      exact or_iff_left fun hmem => hquote hmem.2

theorem longestScan_append_blanks (h : ∀ b ∈ blanks, isBlank b = true) (line : Nat)
    (cs : List Char) : longestScan line (cs ++ blanks) = longestScan line cs := by
  fun_induction longestScan line cs with
  | case1 line =>
      have hscan := longestScan_blanks_append h line []
      rwa [List.append_nil, longestScan_nil] at hscan
  | case2 line cs ih => rw [List.cons_append, longestScan_newline, ih]
  | case3 line c cs hline hblank ih => rw [List.cons_append, longestScan_blank line hblank, ih]
  | case4 line c cs hline hblank found ih =>
      have hc : isSpace c = false := isSpace_eq_false_iff.2 ⟨hline, hblank⟩
      have hprefix : found.2 <+: c :: cs := prefix_longestToken hc cs
      rw [List.cons_append, longestScan_token line hc, longestToken_append_blanks h,
        ← List.cons_append, List.drop_append_of_le_length hprefix.length_le, ih]

theorem longestScan_of_padded (h : Padded cs ds) (line : Nat) :
    longestScan line ds = longestScan line cs := by
  obtain ⟨hedge, hblanks⟩ := h
  next us blanks vs =>
  rcases hedge with rfl | rfl | hus | hvs
  · exact longestScan_blanks_append hblanks line vs
  · rw [List.append_nil, List.append_nil, longestScan_append_blanks hblanks]
  · obtain ⟨us, rfl⟩ := List.getLast?_eq_some_iff.1 hus
    rw [List.append_assoc, List.append_assoc, List.singleton_append, List.singleton_append,
      longestScan_append_newline, longestScan_append_newline, longestScan_blanks_append hblanks]
  · obtain ⟨vs, rfl⟩ := List.head?_eq_some_iff.1 hvs
    have hcount : (us ++ blanks).count '\n' = us.count '\n' := by
      rw [List.count_append, List.count_eq_zero.2 (newline_not_mem_blanks hblanks), Nat.add_zero]
    rw [← List.append_assoc, longestScan_append_newline, longestScan_append_newline,
      longestScan_append_blanks hblanks, hcount]

theorem longestScan_of_eqvGen (h : EqvGen Padded cs ds) (line : Nat) :
    longestScan line ds = longestScan line cs := by
  induction h with
  | rel cs ds h => exact longestScan_of_padded h line
  | refl cs => rfl
  | symm cs ds _ ih => exact ih.symm
  | trans cs ds es _ _ first second => exact second.trans first

/-! ### Line ends -/

theorem padded_return (us vs : List Char) : Padded (us ++ '\n' :: vs) (us ++ '\r' :: '\n' :: vs) :=
  @Padded.intro us ['\r'] ('\n' :: vs) (.inr (.inr (.inr rfl))) (by decide)

theorem eqvGen_addReturns (us cs : List Char) : EqvGen Padded (us ++ cs) (us ++ addReturns cs) := by
  induction cs generalizing us with
  | nil => exact .refl _
  | cons c cs ih =>
      by_cases hc : c = '\n'
      · subst hc
        have hrest := ih (us ++ ['\r', '\n'])
        rw [List.append_assoc, List.append_assoc] at hrest
        exact .trans _ _ _ (.rel _ _ (padded_return us cs)) hrest
      · have hrest := ih (us ++ [c])
        rw [List.append_assoc, List.append_assoc] at hrest
        rw [addReturns, if_neg hc]
        exact hrest

theorem eqvGen_dropReturns (us cs : List Char) :
    EqvGen Padded (us ++ cs) (us ++ dropReturns cs) := by
  fun_induction dropReturns cs generalizing us with
  | case1 => exact .refl _
  | case2 c => exact .refl _
  | case3 c d cs h ih =>
      obtain ⟨rfl, rfl⟩ := h
      have hrest := ih (us ++ ['\n'])
      rw [List.append_assoc, List.append_assoc] at hrest
      exact .trans _ _ _ (.symm _ _ (.rel _ _ (padded_return us cs))) hrest
  | case4 c d cs h ih =>
      have hrest := ih (us ++ [c])
      rw [List.append_assoc, List.append_assoc] at hrest
      exact hrest

/-! ### Sources -/

/-- Sources that differ only in blanks at edges of lines have the same tokens on the same lines and
the same program or error.  So have a source with a carriage return before every line feed, and one
without those that stand before a line feed. -/
theorem tokenize_of_edges :
    (∀ s s' : String, SameUpToEdges s s' →
      tokenize s' = tokenize s ∧ parseSource s' = parseSource s) ∧
    ∀ s : String,
      tokenize (.ofList (addReturns s.toList)) = tokenize s ∧
      tokenize (.ofList (dropReturns s.toList)) = tokenize s ∧
      parseSource (.ofList (addReturns s.toList)) = parseSource s ∧
      parseSource (.ofList (dropReturns s.toList)) = parseSource s := by
  have hscan {s s' : String} (h : SameUpToEdges s s') : tokenize s' = tokenize s := by
    rw [tokenize_eq_longestScan, tokenize_eq_longestScan, longestScan_of_eqvGen h]
  have hadd (s : String) : tokenize (.ofList (addReturns s.toList)) = tokenize s := by
    refine hscan ?_
    rw [SameUpToEdges, String.toList_ofList]
    exact eqvGen_addReturns [] s.toList
  have hdrop (s : String) : tokenize (.ofList (dropReturns s.toList)) = tokenize s := by
    refine hscan ?_
    rw [SameUpToEdges, String.toList_ofList]
    exact eqvGen_dropReturns [] s.toList
  refine ⟨fun s s' h => ⟨hscan h, ?_⟩, fun s => ⟨hadd s, hdrop s, ?_, ?_⟩⟩
  · rw [parseSource, hscan h, parseSource]
  · rw [parseSource, hadd, parseSource]
  · rw [parseSource, hdrop, parseSource]

/-- An open quote before blanks at the end of a line, and a call on the next line. -/
def openQuoteBlanks : String := "\"a \t\n b.c();\r"

/-- The same lines without blanks at their edges. -/
def openQuoteBare : String := "\"a\nb.c();"

/-- Three edges with blanks: before the line feed, after it, and at the end of the source. -/
theorem tokenize_of_edges_openQuote :
    SameUpToEdges openQuoteBare openQuoteBlanks ∧
      tokenize openQuoteBlanks = tokenize openQuoteBare ∧
      parseSource openQuoteBlanks = parseSource openQuoteBare := by
  have hfirst : Padded "\"a\nb.c();".toList "\"a \t\nb.c();".toList :=
    @Padded.intro "\"a".toList [' ', '\t'] "\nb.c();".toList (.inr (.inr (.inr rfl))) (by decide)
  have hsecond : Padded "\"a \t\nb.c();".toList "\"a \t\n b.c();".toList :=
    @Padded.intro "\"a \t\n".toList [' '] "b.c();".toList (.inr (.inr (.inl rfl))) (by decide)
  have hthird : Padded "\"a \t\n b.c();".toList openQuoteBlanks.toList :=
    @Padded.intro "\"a \t\n b.c();".toList ['\r'] [] (.inr (.inl rfl)) (by decide)
  have h : SameUpToEdges openQuoteBare openQuoteBlanks :=
    .trans _ _ _ (.rel _ _ hfirst) (.trans _ _ _ (.rel _ _ hsecond) (.rel _ _ hthird))
  exact ⟨h, tokenize_of_edges.1 _ _ h⟩

end StreamScript
