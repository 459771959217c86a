import StreamScript.Proofs.Layout
import StreamScript.Proofs.TextEnds
import StreamScript.Token.Listing

/-! # Reading a listing back

An entry of a listing quotes nothing, and the text of a token may look like the rest of an entry.
Therefore an entry is read from its right end, where the line is a number after a space and the name
of the kind is a word after a space; before them stands the text, whatever it is
(`Token.eq_of_fields`).

An entry ends with the first line feed if the text has none, so the listing of such tokens tells the
tokens.  The tokens of a source have no line feed in their texts, and so the listing of a source
tells all that a scan finds in it (`listing_faithful`). -/

namespace StreamScript

variable {t u : Token} {ts us : List Token}

/-! ### One entry -/

/-- The characters of an entry before its line end. -/
def Token.fields (t : Token) : List Char :=
  "Token: ".toList ++ t.text.toList ++ " Type:".toList ++ ' ' :: t.kind.name.toList ++
    " Line:".toList ++ ' ' :: (toString t.line).toList

theorem Token.toList_entry (t : Token) : t.entry.toList = t.fields ++ ['\n'] := by
  show ("Token: " ++ t.text ++ " Type: " ++ t.kind.name ++ " Line: " ++ toString t.line ++
    "\n").toList = t.fields ++ ['\n']
  unfold fields
  generalize toString t.line = number
  simp

theorem TokenKind.space_not_mem_name (kind : TokenKind) : ' ' ∉ kind.name.toList := by
  cases kind <;> decide

/-- The fields of an entry tell the token, also where the text is like the fields after it. -/
theorem Token.eq_of_fields (h : t.fields = u.fields) : t = u := by
  unfold fields at h
  obtain ⟨hbefore, hline⟩ := append_number_inj h
  obtain ⟨hbefore, hname⟩ := append_word_inj t.kind.space_not_mem_name u.kind.space_not_mem_name
    (List.append_cancel_right hbefore)
  have htext := List.append_cancel_left (List.append_cancel_right hbefore)
  cases t
  cases u
  simp only [mk.injEq]
  exact ⟨TokenKind.name_injective (String.toList_inj.1 hname), String.toList_inj.1 htext, hline⟩

/-! ### Many entries -/

theorem Token.newline_not_mem_fields (h : OneLine t.text) : '\n' ∉ t.fields := by
  have hname : '\n' ∉ t.kind.name.toList := by cases t.kind <;> decide
  have hnumber := not_mem_toString_of_isDigit (c := '\n') (by decide) t.line
  unfold OneLine at h
  unfold fields
  generalize toString t.line = number at hnumber
  simp [h, hname, hnumber]

theorem Token.eq_of_entry {cs ds : List Char} (ht : OneLine t.text) (hu : OneLine u.text)
    (h : t.entry.toList ++ cs = u.entry.toList ++ ds) : t = u ∧ cs = ds := by
  have hline {v : Token} (hv : OneLine v.text) : ∀ c ∈ v.fields, c ≠ '\n' := by
    rintro c hc rfl
    exact newline_not_mem_fields hv hc
  rw [toList_entry, toList_entry, List.append_assoc, List.append_assoc] at h
  obtain ⟨hfields, hrest⟩ := append_inj_of_stop (hline ht) (hline hu) (by simp) (by simp) h
  exact ⟨eq_of_fields hfields, (List.cons.inj hrest).2⟩

theorem listing_cons_ne (t : Token) (ts : List Token) : listing (t :: ts) ≠ listing [] := by
  intro h
  have htext := congrArg String.toList h
  rw [listing_cons, String.toList_append, Token.toList_entry] at htext
  simp at htext

theorem eq_of_listing (ht : ∀ t ∈ ts, OneLine t.text) (hu : ∀ u ∈ us, OneLine u.text)
    (h : listing ts = listing us) : ts = us := by
  induction ts generalizing us with
  | nil =>
      cases us with
      | nil => rfl
      | cons u us => exact absurd h.symm (listing_cons_ne u us)
  | cons t ts ih =>
      cases us with
      | nil => exact absurd h (listing_cons_ne t ts)
      | cons u us =>
          rw [List.forall_mem_cons] at ht hu
          have htext := congrArg String.toList h
          rw [listing_cons, listing_cons, String.toList_append, String.toList_append] at htext
          obtain ⟨rfl, hrest⟩ := Token.eq_of_entry ht.1 hu.1 htext
          rw [ih ht.2 hu.2 (String.toList_inj.1 hrest)]

/-- The listing of any tokens without line feeds tells the tokens.  The tokens of a source are such
tokens, and so the listing of a source tells its tokens. -/
theorem listing_faithful :
    (∀ ts us : List Token, (∀ t ∈ ts, OneLine t.text) → (∀ u ∈ us, OneLine u.text) →
      listing ts = listing us → ts = us) ∧
    (∀ s : String, ∀ t ∈ tokenize s, OneLine t.text) ∧
    ∀ s s' : String, listing (tokenize s) = listing (tokenize s') ↔ tokenize s = tokenize s' := by
  have hscanned (s : String) : ∀ t ∈ tokenize s, OneLine t.text :=
    fun _ ht => (text_of_mem_tokenize ht).2
  refine ⟨fun ts us ht hu h => eq_of_listing ht hu h, hscanned,
    fun s s' => ⟨fun h => ?_, fun h => ?_⟩⟩
  · exact eq_of_listing (hscanned s) (hscanned s') h
  · rw [h]

/-- A literal that looks like an entry from its text on, and a character that begins no token. -/
def imitation : String := "\"a Type: keyword Line: 1\"\n\t@"

/-- The literal and the character. -/
def imitationTokens : List Token :=
  [⟨.literal, "\"a Type: keyword Line: 1\"", 1⟩, ⟨.unknown, "@", 2⟩]

theorem listing_faithful_imitation :
    ((∀ t ∈ tokenize imitation, OneLine t.text) ∧ (∀ u ∈ imitationTokens, OneLine u.text) ∧
      listing (tokenize imitation) = listing imitationTokens) ∧
    tokenize imitation = imitationTokens := by
  have hscanned : ∀ t ∈ tokenize imitation, OneLine t.text :=
    fun t ht => (text_of_mem_tokenize ht).2
  have hgiven : ∀ u ∈ imitationTokens, OneLine u.text := by decide
  have htext : listing (tokenize imitation) = listing imitationTokens := by decide +kernel
  exact ⟨⟨hscanned, hgiven, htext⟩, listing_faithful.1 _ _ hscanned hgiven htext⟩

/-- With a line feed in a text one entry could be two. -/
example : listing [⟨.identifier, "a Type: identifier Line: 1\nToken: b", 2⟩] =
    listing [⟨.identifier, "a", 1⟩, ⟨.identifier, "b", 2⟩] := by decide

end StreamScript
