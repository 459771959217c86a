import StreamScript.Utf8

/-! # Characters and their bytes

Tests on the bytes of a text that look for ASCII characters are tests on its characters: a byte
below 128 is a whole character, and all bytes of other characters are 128 or more.  So a search
through the bytes stops where the same search through the characters does. -/

namespace StreamScript.Utf8

/-- The bytes of a list of characters. -/
def bytes (cs : List Char) : List UInt8 := cs.flatMap String.utf8EncodeChar

theorem encode_eq_bytes (s : String) : encode s = bytes s.toList := rfl

@[simp] theorem bytes_nil : bytes [] = [] := rfl

theorem bytes_cons (c : Char) (cs : List Char) :
    bytes (c :: cs) = String.utf8EncodeChar c ++ bytes cs := rfl

@[simp] theorem bytes_append (cs ds : List Char) : bytes (cs ++ ds) = bytes cs ++ bytes ds :=
  List.flatMap_append

theorem text_bytes (cs : List Char) : text (bytes cs) = String.ofList cs := by
  have h := text_encode (String.ofList cs)
  rwa [encode_eq_bytes, String.toList_ofList] at h

theorem bytes_eq_nil_iff {cs : List Char} : bytes cs = [] ↔ cs = [] := by
  cases cs with
  | nil => simp
  | cons c cs => simp [bytes_cons, String.utf8EncodeChar_ne_nil]

/-! ### The bytes of one character -/

variable {c : Char} {b : UInt8}

theorem toNat_ascii (b : UInt8) : (ascii b).toNat = b.toNat := by
  have hb : b.toNat < 256 := b.toNat_lt
  have hv : b.toNat.isValidChar := .inl (by omega)
  rw [ascii, Char.ofNat, dif_pos hv]
  rfl

theorem utf8EncodeChar_of_lt (h : c.toNat < 128) :
    String.utf8EncodeChar c = [UInt8.ofNat c.toNat] := by
  have hc : c.val.toNat ≤ 0x7f := by
    have : c.val.toNat < 128 := h
    omega
  rw [String.utf8EncodeChar]
  exact if_pos hc

theorem ascii_ofNat (h : c.toNat < 128) : ascii (UInt8.ofNat c.toNat) = c := by
  apply Char.toNat_inj.1
  rw [toNat_ascii, UInt8.toNat_ofNat', Nat.mod_eq_of_lt (by omega)]

theorem le_of_mem_utf8EncodeChar (h : 128 ≤ c.toNat) (hb : b ∈ String.utf8EncodeChar c) :
    128 ≤ b.toNat := by
  have hc : ¬ c.val.toNat ≤ 0x7f := by
    have : 128 ≤ c.val.toNat := h
    omega
  rw [String.utf8EncodeChar] at hb
  simp only [if_neg hc] at hb
  split at hb
  · simp only [List.mem_cons, List.not_mem_nil, or_false] at hb
    rcases hb with rfl | rfl <;> rw [UInt8.toNat_ofNat'] <;> omega
  split at hb
  · simp only [List.mem_cons, List.not_mem_nil, or_false] at hb
    rcases hb with rfl | rfl | rfl <;> rw [UInt8.toNat_ofNat'] <;> omega
  · simp only [List.mem_cons, List.not_mem_nil, or_false] at hb
    rcases hb with rfl | rfl | rfl | rfl <;> rw [UInt8.toNat_ofNat'] <;> omega

theorem width_eq (lead : UInt8) :
    width lead = if lead.toNat < 128 then 1 else if lead.toNat < 224 then 2
      else if lead.toNat < 240 then 3 else 4 := by
  simp only [width, UInt8.lt_iff_toNat_lt]
  rfl

/-- The first byte of a character tells how many bytes it has. -/
theorem exists_utf8EncodeChar_eq_cons (c : Char) :
    ∃ lead more, String.utf8EncodeChar c = lead :: more ∧ width lead = more.length + 1 := by
  have hv : c.val.toNat < 0x110000 := by
    have := c.valid
    simp only [UInt32.isValidChar, Nat.isValidChar] at this
    omega
  rw [String.utf8EncodeChar]
  split
  · refine ⟨_, _, rfl, ?_⟩
    rw [width_eq, UInt8.toNat_ofNat', if_pos (by omega)]
    rfl
  split
  · refine ⟨_, _, rfl, ?_⟩
    rw [width_eq, UInt8.toNat_ofNat', if_neg (by omega), if_pos (by omega)]
    rfl
  split
  · refine ⟨_, _, rfl, ?_⟩
    rw [width_eq, UInt8.toNat_ofNat', if_neg (by omega), if_neg (by omega), if_pos (by omega)]
    rfl
  · refine ⟨_, _, rfl, ?_⟩
    rw [width_eq, UInt8.toNat_ofNat', if_neg (by omega), if_neg (by omega), if_neg (by omega)]
    rfl

/-! ### Tests for ASCII characters -/

/-- Whether a test succeeds on ASCII characters only. -/
def AsciiTest (f : Char → Bool) : Prop := ∀ c, f c = true → c.toNat < 128

variable {f : Char → Bool}

/-- A test that fails on a character fails on all its bytes. -/
theorem AsciiTest.of_mem (hf : AsciiTest f) (hc : f c = false)
    (hb : b ∈ String.utf8EncodeChar c) : f (ascii b) = false := by
  rcases Nat.lt_or_ge c.toNat 128 with h | h
  · rw [utf8EncodeChar_of_lt h, List.mem_singleton] at hb
    rw [hb, ascii_ofNat h, hc]
  · have hle := le_of_mem_utf8EncodeChar h hb
    cases hfb : f (ascii b) with
    | false => rfl
    | true =>
        have hlt := hf _ hfb
        rw [toNat_ascii] at hlt
        omega

/-- A test sees in the first byte of a character what it sees in the character. -/
theorem AsciiTest.lead_eq (hf : AsciiTest f) {lead : UInt8} {more : List UInt8}
    (h : String.utf8EncodeChar c = lead :: more) : f (ascii lead) = f c := by
  cases hc : f c with
  | true =>
      have hlt := hf c hc
      rw [utf8EncodeChar_of_lt hlt] at h
      obtain ⟨rfl, -⟩ := List.cons.inj h
      rw [ascii_ofNat hlt, hc]
  | false =>
      apply hf.of_mem hc
      rw [h]
      exact List.mem_cons_self

theorem AsciiTest.takeWhile_bytes (hf : AsciiTest f) (cs : List Char) :
    (bytes cs).takeWhile (f <| ascii ·) = bytes (cs.takeWhile f) := by
  induction cs with
  | nil => rfl
  | cons c cs ih =>
      rw [List.takeWhile_cons]
      cases hc : f c with
      | true =>
          have h := hf c hc
          rw [bytes_cons, utf8EncodeChar_of_lt h, List.singleton_append, List.takeWhile_cons,
            ascii_ofNat h, hc, ih]
          simp [bytes_cons, utf8EncodeChar_of_lt h]
      | false =>
          obtain ⟨lead, more, hcons, -⟩ := exists_utf8EncodeChar_eq_cons c
          rw [bytes_cons, hcons, List.cons_append, List.takeWhile_cons, hf.lead_eq hcons, hc]
          simp

theorem AsciiTest.findIdx?_bytes_eq_none (hf : AsciiTest f) {cs : List Char}
    (h : ∀ c ∈ cs, f c = false) : (bytes cs).findIdx? (f <| ascii ·) = none := by
  rw [List.findIdx?_eq_none_iff]
  intro b hb
  obtain ⟨c, hc, hbc⟩ := List.mem_flatMap.1 hb
  exact hf.of_mem (h c hc) hbc

theorem AsciiTest.findIdx?_bytes_append (hf : AsciiTest f) {cs : List Char}
    (h : ∀ c ∈ cs, f c = false) (hc : f c = true) (ds : List Char) :
    (bytes (cs ++ c :: ds)).findIdx? (f <| ascii ·) = some (bytes cs).length ∧
      (bytes (cs ++ c :: ds))[(bytes cs).length]?.map ascii = some c := by
  have hlt := hf c hc
  rw [bytes_append, bytes_cons, utf8EncodeChar_of_lt hlt, List.findIdx?_append,
    hf.findIdx?_bytes_eq_none h]
  constructor
  · rw [List.singleton_append, List.findIdx?_cons, ascii_ofNat hlt, hc]
    simp
  · simp [ascii_ofNat hlt]

/-! ### ASCII words at the start -/

/-- Whether all characters are ASCII. -/
def Ascii (w : List Char) : Prop := ∀ c ∈ w, c.toNat < 128

instance (w : List Char) : Decidable (Ascii w) := List.decidableBAll _ w

theorem bytes_of_ascii {w : List Char} (h : Ascii w) :
    bytes w = w.map fun c => UInt8.ofNat c.toNat := by
  induction w with
  | nil => rfl
  | cons c w ih =>
      have hc := h c List.mem_cons_self
      have hw : Ascii w := fun d hd => h d (List.mem_cons_of_mem c hd)
      rw [bytes_cons, utf8EncodeChar_of_lt hc, ih hw]
      rfl

/-- The byte of an ASCII character is the first byte of no other character. -/
theorem ofNat_eq_lead_iff {d lead : Char} {byte : UInt8} {more : List UInt8} (hd : d.toNat < 128)
    (h : String.utf8EncodeChar lead = byte :: more) :
    UInt8.ofNat d.toNat = byte ↔ d = lead := by
  constructor
  · intro he
    have hbyte : byte.toNat < 128 := by
      rw [← he, UInt8.toNat_ofNat']
      omega
    have hlead : lead.toNat < 128 := by
      rcases Nat.lt_or_ge lead.toNat 128 with hlt | hge
      · exact hlt
      · have hmem : byte ∈ String.utf8EncodeChar lead := by
          rw [h]
          exact List.mem_cons_self
        have := le_of_mem_utf8EncodeChar hge hmem
        omega
    rw [utf8EncodeChar_of_lt hlead] at h
    obtain ⟨rfl, -⟩ := List.cons.inj h
    rw [← ascii_ofNat hd, he, ascii_ofNat hlead]
  · intro he
    rw [he] at hd ⊢
    rw [utf8EncodeChar_of_lt hd] at h
    exact (List.cons.inj h).1

theorem isPrefixOf_bytes {w : List Char} (hw : Ascii w) (cs : List Char) :
    (bytes w).isPrefixOf (bytes cs) = w.isPrefixOf cs := by
  induction w generalizing cs with
  | nil => simp
  | cons d w ih =>
      have hd := hw d List.mem_cons_self
      have hw' : Ascii w := fun e he => hw e (List.mem_cons_of_mem d he)
      rw [bytes_cons, utf8EncodeChar_of_lt hd]
      cases cs with
      | nil => rfl
      | cons c cs =>
          obtain ⟨lead, more, hcons, -⟩ := exists_utf8EncodeChar_eq_cons c
          have hlead := ofNat_eq_lead_iff hd hcons
          by_cases hdc : d = c
          · subst hdc
            rw [bytes_cons, utf8EncodeChar_of_lt hd]
            simp [ih hw']
          · have hne : UInt8.ofNat d.toNat ≠ lead := mt hlead.1 hdc
            rw [bytes_cons, hcons, List.cons_append, List.cons_append,
              List.isPrefixOf_cons_cons, List.isPrefixOf_cons_cons, beq_eq_false_iff_ne.2 hne,
              beq_eq_false_iff_ne.2 hdc]
            rfl

theorem contains_bytes {w : List Char} (hw : Ascii w) {byte : UInt8} {more : List UInt8}
    (h : String.utf8EncodeChar c = byte :: more) : (bytes w).contains byte = w.contains c := by
  rw [bytes_of_ascii hw, Bool.eq_iff_iff, List.contains_iff_mem, List.contains_iff_mem,
    List.mem_map]
  constructor
  · rintro ⟨d, hd, he⟩
    rw [ofNat_eq_lead_iff (hw d hd) h] at he
    exact he ▸ hd
  · intro hc
    exact ⟨c, hc, (ofNat_eq_lead_iff (hw c hc) h).2 rfl⟩

end StreamScript.Utf8
