import StreamScript.Proofs.Lexical

/-! # The places of a scan

A scan counts in bytes, and a character can have more than one.  Here each cursor of a scan comes
with the number of bytes that were passed to reach it, the sum of the lengths of the lexemes before
it (`ScanPlace`).  Such a place lies between two characters of the source (`ScanPlace.Between`): a
lexeme is the bytes of whole characters, so one step keeps this (`ScanPlace.Between.next`), and it
holds of every place that the scan visits and of the one at which it stops.

Then at every place the lexeme begins and ends at a boundary between characters and is neither empty
nor longer than what is left, so that each slice of the source is a text (`ScanPlace.Sound`), and
the scan stops exactly at the end (`scan_on_boundaries`).  Boundaries are those of
`String.Pos.Raw.IsValid`. -/

namespace StreamScript

open Utf8

/-! ### Boundaries -/

namespace Utf8

theorem length_encode (s : String) : (encode s).length = s.utf8ByteSize := by
  have h := congrArg ByteArray.size (toByteArray_encode s)
  simpa using h

theorem length_bytes (cs : List Char) : (bytes cs).length = (String.ofList cs).utf8ByteSize := by
  rw [← length_encode, encode_eq_bytes, String.toList_ofList]

/-- Where a text is cut between two of its characters its bytes are cut at a boundary. -/
theorem isValid_of_append {source : String} {us vs : List Char} (h : source.toList = us ++ vs) :
    String.Pos.Raw.IsValid source ⟨(bytes us).length⟩ := by
  rw [String.Pos.Raw.isValid_iff_exists_append]
  refine ⟨String.ofList us, String.ofList vs, ?_, ?_⟩
  · rw [← String.ofList_append, ← h, String.ofList_toList]
  · rw [length_bytes]
    rfl

end Utf8

/-! ### Places -/

/-- A cursor with the number of bytes before it. -/
structure ScanPlace where
  offset : Nat
  cursor : Cursor
deriving DecidableEq, Repr

namespace ScanPlace

/-- The start of a source. -/
def ofSource (source : String) : ScanPlace := ⟨0, .ofSource source⟩

/-- The place after the lexeme. -/
def next (p : ScanPlace) : ScanPlace := ⟨p.offset + p.cursor.lexeme.length, p.cursor.next⟩

/-- The places at which the scan finds a lexeme, from this one on. -/
def visited (p : ScanPlace) : List ScanPlace :=
  if _h : p.cursor.rest = [] then [] else p :: p.next.visited
termination_by p.cursor.rest.length
decreasing_by exact Cursor.length_rest_next_lt ‹_›

/-- The place at which the scan from this one on ends. -/
def stop (p : ScanPlace) : ScanPlace :=
  if _h : p.cursor.rest = [] then p else p.next.stop
termination_by p.cursor.rest.length
decreasing_by exact Cursor.length_rest_next_lt ‹_›

variable {source : String} {p q : ScanPlace}

/-- The scan finds its tokens at these places. -/
theorem scan_eq_filterMap (p : ScanPlace) :
    p.cursor.scan [] = p.visited.filterMap fun q => q.cursor.token? := by
  fun_induction visited p with
  | case1 p hp => exact Cursor.scan_of_rest_eq_nil hp []
  | case2 p hp ih =>
      rw [Cursor.scan_eq_token_append hp, List.filterMap_cons]
      cases p.cursor.token? with
      | none => exact ih
      | some t => exact congrArg (t :: ·) ih

/-! ### Between two characters -/

/-- The place lies between the characters `us` and `vs` of the source: those before it have its
offset in bytes, and the cursor has the bytes of those after it. -/
structure Between (source : String) (us vs : List Char) (p : ScanPlace) : Prop where
  source_eq : source.toList = us ++ vs
  offset_eq : p.offset = (bytes us).length
  rest_eq : p.cursor.rest = bytes vs

variable {us vs : List Char}

theorem between_ofSource (source : String) :
    (ofSource source).Between source [] source.toList := ⟨rfl, rfl, rfl⟩

namespace Between

theorem cursor_eq (h : p.Between source us vs) : p.cursor = ⟨bytes vs, p.cursor.line⟩ := by
  rw [← h.rest_eq]

theorem rest_eq_nil_iff (h : p.Between source us vs) : p.cursor.rest = [] ↔ vs = [] := by
  rw [h.rest_eq, bytes_eq_nil_iff]

theorem lexeme_eq (h : p.Between source us vs) : p.cursor.lexeme = (Piece.start vs).lexeme := by
  rw [h.cursor_eq]
  exact Piece.lexeme_start vs

theorem slice_eq (h : p.Between source us vs) : p.cursor.slice = bytes (Piece.start vs).text := by
  rw [h.cursor_eq, Cursor.slice_bytes]

theorem next (h : p.Between source us vs) :
    p.next.Between source (us ++ (Piece.start vs).text)
      (vs.drop (Piece.start vs).text.length) := by
  constructor
  · rw [List.append_assoc, Piece.text_append_drop]
    exact h.source_eq
  · rw [bytes_append, List.length_append, ← h.offset_eq]
    show p.offset + p.cursor.lexeme.length = _
    rw [h.lexeme_eq]
    rfl
  · show p.cursor.next.rest = _
    rw [h.cursor_eq, Cursor.next_bytes]

theorem isValid (h : p.Between source us vs) : String.Pos.Raw.IsValid source ⟨p.offset⟩ := by
  rw [h.offset_eq]
  exact isValid_of_append h.source_eq

theorem size_eq (h : p.Between source us vs) :
    source.utf8ByteSize = p.offset + p.cursor.rest.length := by
  rw [← length_encode, encode_eq_bytes, h.source_eq, bytes_append, List.length_append,
    h.offset_eq, h.rest_eq]

theorem rest_eq_drop (h : p.Between source us vs) :
    p.cursor.rest = (encode source).drop p.offset := by
  rw [encode_eq_bytes, h.source_eq, bytes_append, h.offset_eq, h.rest_eq]
  exact List.drop_left.symm

theorem length_le (h : p.Between source us vs) :
    p.cursor.lexeme.length ≤ p.cursor.rest.length := by
  rw [h.lexeme_eq, h.rest_eq, Piece.bytes_eq_append vs, List.length_append]
  exact Nat.le_add_right _ _

/-- Where no rule applies the lexeme is one character. -/
theorem slice_of_rule?_eq_none (h : p.Between source us vs) (hp : p.cursor.rest ≠ [])
    (hr : p.cursor.lexeme.rule? = none) : ∃ c, p.cursor.slice = String.utf8EncodeChar c := by
  obtain ⟨c, cs, rfl⟩ := List.exists_cons_of_ne_nil (mt h.rest_eq_nil_iff.2 hp)
  rw [h.lexeme_eq] at hr
  have hpiece : Piece.start (c :: cs) = ⟨none, (Piece.start (c :: cs)).text⟩ := by
    rw [← hr]
    rfl
  refine ⟨c, ?_⟩
  rw [h.slice_eq, (Piece.start_eq_none_iff.1 hpiece).1]
  simp [bytes_cons]

end Between

/-! ### All places of a scan -/

theorem rest_ne_nil_of_mem_visited (hq : q ∈ p.visited) : q.cursor.rest ≠ [] := by
  fun_induction visited p with
  | case1 p hp => exact absurd hq List.not_mem_nil
  | case2 p hp ih =>
      rcases List.mem_cons.1 hq with rfl | hq
      · exact hp
      · exact ih hq

/-- All places that the scan visits lie between two characters. -/
theorem Between.of_mem_visited (h : p.Between source us vs) (hq : q ∈ p.visited) :
    ∃ us vs, q.Between source us vs := by
  fun_induction visited p generalizing us vs with
  | case1 p hp => exact absurd hq List.not_mem_nil
  | case2 p hp ih =>
      rcases List.mem_cons.1 hq with rfl | hq
      · exact ⟨us, vs, h⟩
      · exact ih h.next hq

theorem Between.exists_stop (h : p.Between source us vs) :
    p.stop.cursor.rest = [] ∧ ∃ us vs, p.stop.Between source us vs := by
  fun_induction stop p generalizing us vs with
  | case1 p hp => exact ⟨hp, us, vs, h⟩
  | case2 p hp ih => exact ih h.next

/-- The lexeme at the place is a part of what is left of the source, not empty, and cut out of it at
boundaries between characters. -/
structure Sound (source : String) (p : ScanPlace) : Prop where
  offset_lt : p.offset < source.utf8ByteSize
  isValid : String.Pos.Raw.IsValid source ⟨p.offset⟩
  rest_eq : p.cursor.rest = (encode source).drop p.offset
  length_pos : 1 ≤ p.cursor.lexeme.length
  length_le : p.cursor.lexeme.length ≤ p.cursor.rest.length
  isValid_end : String.Pos.Raw.IsValid source ⟨p.offset + p.cursor.lexeme.length⟩
  /-- The bytes of the lexeme are those of a text. -/
  exists_text : ∃ s, p.cursor.slice = encode s
  /-- A quote or a line feed that is found after the first byte is a byte of what is left. -/
  literal_stop : ∀ b body i, p.cursor.rest = b :: body →
    body.findIdx? (Rule.isLiteralStop <| ascii ·) = some i → i + 1 < p.cursor.rest.length
  /-- Where no rule applies the lexeme is one whole character. -/
  exists_char : p.cursor.lexeme.rule? = none → ∃ c, p.cursor.slice = String.utf8EncodeChar c

theorem Between.sound (h : p.Between source us vs) (hp : p.cursor.rest ≠ []) : p.Sound source where
  offset_lt := by
    have hpos := List.length_pos_iff.2 hp
    rw [h.size_eq]
    omega
  isValid := h.isValid
  rest_eq := h.rest_eq_drop
  length_pos := Lexeme.length_pos hp
  length_le := h.length_le
  isValid_end := h.next.isValid
  exists_text := by
    refine ⟨String.ofList (Piece.start vs).text, ?_⟩
    rw [h.slice_eq, encode_eq_bytes, String.toList_ofList]
  literal_stop := by
    intro b body i hrest hi
    obtain ⟨hlt, -⟩ := List.findIdx?_eq_some_iff_getElem.1 hi
    rw [hrest, List.length_cons]
    omega
  exists_char := h.slice_of_rule?_eq_none hp

end ScanPlace

/-- At all places of a scan the lexeme is cut out of the source at boundaries between characters,
and the scan ends exactly at the end of the source.  Its tokens are those of these places, and one
of unknown kind is one character. -/
theorem scan_on_boundaries (source : String) :
    (∀ p ∈ (ScanPlace.ofSource source).visited, p.Sound source) ∧
    (ScanPlace.ofSource source).stop.offset = source.utf8ByteSize ∧
    tokenize source = (ScanPlace.ofSource source).visited.filterMap (fun p => p.cursor.token?) ∧
    ∀ t ∈ tokenize source, t.kind = .unknown → ∃ c, t.text = String.singleton c := by
  have hstart := ScanPlace.between_ofSource source
  refine ⟨fun p hp => ?_, ?_, ScanPlace.scan_eq_filterMap (ScanPlace.ofSource source),
    fun t ht hk => ?_⟩
  · obtain ⟨us, vs, h⟩ := hstart.of_mem_visited hp
    exact h.sound (ScanPlace.rest_ne_nil_of_mem_visited hp)
  · obtain ⟨hrest, us, vs, h⟩ := hstart.exists_stop
    rw [h.size_eq, hrest]
    rfl
  · have hlexical := lexical_of_mem_tokenize ht
    unfold Token.Lexical at hlexical
    rw [hk] at hlexical
    obtain ⟨c, hc⟩ := hlexical
    exact ⟨c, hc⟩

/-- A literal of four bytes and three characters, an arrow of three bytes, and a line feed. -/
def accentAndArrow : String := "\"é\"→\n"

/-- The place of the arrow. -/
def arrowPlace : ScanPlace := ⟨4, ⟨encode "→\n", 1⟩⟩

theorem scan_on_boundaries_accentAndArrow :
    arrowPlace ∈ (ScanPlace.ofSource accentAndArrow).visited ∧ arrowPlace.Sound accentAndArrow ∧
    ⟨.unknown, "→", 1⟩ ∈ tokenize accentAndArrow ∧ ∃ c, "→" = String.singleton c := by
  have hplace : arrowPlace ∈ (ScanPlace.ofSource accentAndArrow).visited := by decide +kernel
  have htoken : ⟨.unknown, "→", 1⟩ ∈ tokenize accentAndArrow := by decide +kernel
  obtain ⟨hsound, -, -, hunknown⟩ := scan_on_boundaries accentAndArrow
  exact ⟨hplace, hsound arrowPlace hplace, htoken, hunknown _ htoken rfl⟩

end StreamScript
