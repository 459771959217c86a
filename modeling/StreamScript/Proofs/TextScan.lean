import StreamScript.Proofs.Pieces
import StreamScript.Token.Scan

/-! # The scan on characters

`scanText line cs` is the list of tokens of a text whose first line has number `line`, cut piece
by piece from its characters.  `tokenize_eq_scanText` says that the scan through the bytes of a
source finds the same tokens. -/

namespace StreamScript

open Utf8

namespace Rule

theorem prefix_of_piece? {r : Rule} {cs m : List Char} (h : r.piece? cs = some m) : m <+: cs := by
  have hword : ∀ {words : List String}, leadingText? words cs = some m → m <+: cs := by
    intro words hw
    obtain ⟨w, hfind, rfl⟩ := Option.map_eq_some_iff.1 hw
    have hw := List.find?_some hfind
    exact List.isPrefixOf_iff_prefix.1 hw
  unfold piece? at h
  split at h
  · exact hword h
  · cases h
  · split at h <;> cases h
    exact List.takeWhile_prefix isWordPart
  · cases h
  · next c cs =>
    split at h <;> cases h
    next hc =>
      obtain ⟨rfl, hstop⟩ := hc
      obtain ⟨rest, hrest⟩ := List.head?_eq_some_iff.1 hstop
      refine ⟨rest, ?_⟩
      have := List.takeWhile_append_dropWhile (p := isLiteralPart) (l := cs)
      rw [hrest] at this
      simp [this]
  · exact hword h
  · cases h
  · split at h <;> cases h
    exact ⟨_, rfl⟩
  · split at h <;> cases h
    exact List.takeWhile_prefix isBlank
  · cases h
  · split at h <;> cases h
    exact ⟨_, rfl⟩

theorem ne_nil_of_piece? {r : Rule} {cs m : List Char} (h : r.piece? cs = some m) : m ≠ [] := by
  have hlength : r.length? (bytes cs) = some (bytes m).length := by
    rw [length?_bytes, h]
    rfl
  have := length?_pos hlength
  rintro rfl
  exact absurd this (by decide)

/-- The rules that are tried before a rule. -/
def before (r : Rule) : List Rule := inOrder.takeWhile (· ≠ r)

end Rule

/-- The piece of text at a place: the rule that found it, if one did, and its characters. -/
structure Piece where
  rule? : Option Rule
  text : List Char
deriving DecidableEq, Repr

namespace Piece

/-- The piece with which a text begins: by the first rule that applies, else one character. -/
def start (cs : List Char) : Piece :=
  match Rule.inOrder.findSome? fun r => (r.piece? cs).map fun m => (r, m) with
  | some (r, m) => ⟨some r, m⟩
  | none => ⟨none, cs.take 1⟩

/-- The lexeme that the piece is in the bytes of its text. -/
def lexeme (x : Piece) : Lexeme := ⟨x.rule?, (bytes x.text).length⟩

/-- The token that the piece is; `none` for skipped text. -/
def token? (x : Piece) (line : Nat) : Option Token :=
  x.lexeme.kind?.map fun kind => ⟨kind, String.ofList x.text, line⟩

variable {cs m : List Char} {r : Rule}

theorem piece?_of_findSome? {rules : List Rule}
    (h : rules.findSome? (fun r => (r.piece? cs).map fun m => (r, m)) = some (r, m)) :
    r.piece? cs = some m := by
  obtain ⟨q, -, hq⟩ := List.exists_of_findSome?_eq_some h
  obtain ⟨n, hn, he⟩ := Option.map_eq_some_iff.1 hq
  cases he
  exact hn

theorem findSome?_eq_some_iff {rules : List Rule} (hr : r ∈ rules) :
    rules.findSome? (fun r => (r.piece? cs).map fun m => (r, m)) = some (r, m) ↔
      r.piece? cs = some m ∧ ∀ q ∈ rules.takeWhile (· ≠ r), q.piece? cs = none := by
  induction rules with
  | nil => exact absurd hr List.not_mem_nil
  | cons q rules ih =>
      by_cases hqr : q = r
      · subst hqr
        constructor
        · intro h
          exact ⟨piece?_of_findSome? h, by simp⟩
        · rintro ⟨h, -⟩
          simp [h]
      · have ih := ih ((List.mem_cons.1 hr).resolve_left (Ne.symm hqr))
        rw [List.findSome?_cons, List.takeWhile_cons, if_pos (by simpa using hqr),
          List.forall_mem_cons]
        cases hq : q.piece? cs with
        | none => simp [ih]
        | some n => simp [hqr]

/-- A piece is found by the first rule that applies. -/
theorem start_eq_some_iff :
    start cs = ⟨some r, m⟩ ↔ r.piece? cs = some m ∧ ∀ q ∈ r.before, q.piece? cs = none := by
  have hr : r ∈ Rule.inOrder := by cases r <;> decide
  rw [Rule.before, ← findSome?_eq_some_iff hr, start]
  split
  · next hf => simp [hf]
  · next hf => simp [hf]

theorem start_eq_none_iff :
    start cs = ⟨none, m⟩ ↔ m = cs.take 1 ∧ ∀ r : Rule, r.piece? cs = none := by
  have hall : (∀ r ∈ Rule.inOrder, r.piece? cs = none) ↔ ∀ r : Rule, r.piece? cs = none :=
    ⟨fun h r => h r (by cases r <;> decide), fun h r _ => h r⟩
  have hnone : Rule.inOrder.findSome? (fun r => (r.piece? cs).map fun m => (r, m)) = none ↔
      ∀ r : Rule, r.piece? cs = none := by
    rw [List.findSome?_eq_none_iff, ← hall]
    simp only [Option.map_eq_none_iff]
  rw [← hnone, start]
  split
  · next hf => simp [hf]
  · next hf => simp [hf, eq_comm]

/-- A piece is a beginning of the text. -/
theorem prefix_start (cs : List Char) : (start cs).text <+: cs := by
  cases h : start cs with
  | mk rule? m =>
      cases rule? with
      | none =>
          rw [(start_eq_none_iff.1 h).1]
          exact List.take_prefix 1 cs
      | some r => exact Rule.prefix_of_piece? (start_eq_some_iff.1 h).1

theorem text_start_ne_nil (h : cs ≠ []) : (start cs).text ≠ [] := by
  cases hx : start cs with
  | mk rule? m =>
      cases rule? with
      | none =>
          rw [(start_eq_none_iff.1 hx).1]
          simpa using h
      | some r => exact Rule.ne_nil_of_piece? (start_eq_some_iff.1 hx).1

theorem text_append_drop (cs : List Char) :
    (start cs).text ++ cs.drop (start cs).text.length = cs :=
  List.prefix_iff_eq_append.1 (prefix_start cs)

theorem bytes_eq_append (cs : List Char) :
    bytes cs = bytes (start cs).text ++ bytes (cs.drop (start cs).text.length) := by
  rw [← bytes_append, text_append_drop]

theorem lexeme_start (cs : List Char) : Lexeme.start (bytes cs) = (start cs).lexeme := by
  cases cs with
  | nil => rfl
  | cons c cs =>
      obtain ⟨lead, more, hcons, hwidth⟩ := exists_utf8EncodeChar_eq_cons c
      have hbytes : bytes (c :: cs) = lead :: (more ++ bytes cs) := by
        rw [bytes_cons, hcons, List.cons_append]
      have hfind : Rule.inOrder.findSome? (fun r =>
          (r.length? (bytes (c :: cs))).map fun n => (r, n)) =
          (Rule.inOrder.findSome? fun r => (r.piece? (c :: cs)).map fun m => (r, m)).map
            fun x => (x.1, (bytes x.2).length) := by
        rw [List.map_findSome?]
        congr 1
        funext r
        rw [Rule.length?_bytes]
        simp [Function.comp_def]
      rw [hbytes] at hfind ⊢
      rw [Lexeme.start, hfind, start]
      cases Rule.inOrder.findSome? fun r => (r.piece? (c :: cs)).map fun m => (r, m) with
      | some x => rfl
      | none => simp [lexeme, bytes_cons, hcons, hwidth]

theorem length_drop_lt (h : cs ≠ []) : (cs.drop (start cs).text.length).length < cs.length := by
  have := List.length_pos_iff.2 (text_start_ne_nil h)
  have := List.length_pos_iff.2 h
  rw [List.length_drop]
  omega

end Piece

/-- The tokens of a text whose first line has number `line`. -/
def scanText (line : Nat) (cs : List Char) : List Token :=
  if _h : cs = [] then []
  else
    let x := Piece.start cs
    (x.token? line).toList ++ scanText (line + x.lexeme.newlines) (cs.drop x.text.length)
termination_by cs.length
decreasing_by exact Piece.length_drop_lt ‹_›

theorem scanText_nil (line : Nat) : scanText line [] = [] := by
  rw [scanText, dif_pos rfl]

theorem scanText_of_ne_nil (line : Nat) {cs : List Char} (h : cs ≠ []) :
    scanText line cs = ((Piece.start cs).token? line).toList ++
      scanText (line + (Piece.start cs).lexeme.newlines)
        (cs.drop (Piece.start cs).text.length) := by
  rw [scanText, dif_neg h]

theorem scanText_append {line : Nat} {x : Piece} {cs : List Char} (hx : x.text ≠ [])
    (h : Piece.start (x.text ++ cs) = x) :
    scanText line (x.text ++ cs) =
      (x.token? line).toList ++ scanText (line + x.lexeme.newlines) cs := by
  rw [scanText_of_ne_nil line (by simp [hx]), h, List.drop_left]

namespace Cursor

variable (line : Nat) (cs : List Char)

/-- At the bytes of a text a cursor has the bytes of the text's piece before it. -/
theorem slice_bytes : slice ⟨bytes cs, line⟩ = bytes (Piece.start cs).text := by
  rw [slice, lexeme, Piece.lexeme_start, Piece.bytes_eq_append cs]
  exact List.take_left

theorem next_bytes : next ⟨bytes cs, line⟩ =
    ⟨bytes (cs.drop (Piece.start cs).text.length), line + (Piece.start cs).lexeme.newlines⟩ := by
  rw [next, lexeme, Piece.lexeme_start]
  congr 1
  rw [Piece.bytes_eq_append cs]
  exact List.drop_left

theorem token?_bytes : token? ⟨bytes cs, line⟩ = (Piece.start cs).token? line := by
  rw [token?, slice_bytes, text_bytes, lexeme, Piece.lexeme_start]
  rfl

end Cursor

/-- The scan through the bytes of a text finds the tokens of its characters. -/
theorem scan_bytes (line : Nat) (cs : List Char) :
    Cursor.scan ⟨bytes cs, line⟩ [] = scanText line cs := by
  by_cases h : cs = []
  · subst h
    rw [scanText_nil, Cursor.scan_of_rest_eq_nil rfl, List.reverse_nil]
  · have hb : bytes cs ≠ [] := mt bytes_eq_nil_iff.1 h
    rw [Cursor.scan_eq_token_append hb, scanText_of_ne_nil line h, Cursor.token?_bytes,
      Cursor.next_bytes, scan_bytes _ (cs.drop _)]
termination_by cs.length
decreasing_by exact Piece.length_drop_lt h

theorem tokenize_eq_scanText (s : String) : tokenize s = scanText 1 s.toList :=
  scan_bytes 1 s.toList

end StreamScript
