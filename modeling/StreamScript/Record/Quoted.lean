import StreamScript.Record.Printed

/-! # Quoted text

Texts stand in records between double quotes.  A quote and a backslash inside are written with a
backslash before them, tab, carriage return, line feed and NUL by a letter or digit after a
backslash, every other character that is not printed by its number, and all else as it is.  So a
quoted text has printed characters only (`isPrinted_of_mem_encode`). -/

namespace StreamScript.Quoted

/-- A number in lower-case hexadecimal digits, without leading zeros. -/
def hex (n : Nat) : List Char := Nat.toDigits 16 n

/-- What stands for the character after a backslash, if it has a form of its own. -/
def short? : Char → Option Char
  | '"' => some '"'
  | '\\' => some '\\'
  | '\t' => some 't'
  | '\r' => some 'r'
  | '\n' => some 'n'
  | '\x00' => some '0'
  | _ => none

/-- How a character is written between quotes. -/
def escape (c : Char) : List Char :=
  match short? c with
  | some d => ['\\', d]
  | none => if isPrinted c then [c] else ['\\', 'u', '\x7b'] ++ hex c.toNat ++ ['\x7d']

/-- A text between quotes. -/
def encode (s : String) : String :=
  String.ofList ('"' :: s.toList.flatMap escape ++ ['"'])

/-! ### What is written -/

/-- The characters that an escape is made of. -/
def marks : List Char := "\\\"trn0u\x7b\x7d123456789abcdef".toList

theorem isPrinted_of_mem_marks {d : Char} (h : d ∈ marks) : isPrinted d := by
  have hcode : marks.all fun d => 0x20 ≤ d.toNat && d.toNat < 0x7f := by decide
  obtain ⟨hle, hlt⟩ : 0x20 ≤ d.toNat ∧ d.toNat < 0x7f := by
    simpa using List.all_eq_true.1 hcode d h
  exact (isPrinted_iff_of_lt hlt).2 hle

theorem mem_marks_of_short? {c d : Char} (h : short? c = some d) : d ∈ marks := by
  unfold short? at h
  split at h <;> cases h <;> decide

theorem mem_marks_of_mem_hex {n : Nat} {d : Char} (h : d ∈ hex n) : d ∈ marks := by
  have hdigit : ∀ k < 16, k.digitChar ∈ marks := by decide
  induction n using Nat.strongRecOn with
  | ind n ih =>
      unfold hex at h
      rcases Nat.lt_or_ge n 16 with hn | hn
      · rw [Nat.toDigits_of_lt_base hn, List.mem_singleton] at h
        rw [h]
        exact hdigit n hn
      · rw [Nat.toDigits_of_base_le (by decide) hn, List.mem_append, List.mem_singleton] at h
        rcases h with h | rfl
        · exact ih (n / 16) (by omega) h
        · exact hdigit _ (Nat.mod_lt n (by decide))

theorem isPrinted_of_mem_escape {c d : Char} (h : d ∈ escape c) : isPrinted d := by
  have hmark : ['\\', 'u', '\x7b', '\x7d'] ⊆ marks := by decide
  unfold escape at h
  split at h
  · next x hx =>
    rw [List.mem_cons, List.mem_singleton] at h
    rcases h with rfl | rfl
    · exact isPrinted_of_mem_marks (hmark (.head _))
    · exact isPrinted_of_mem_marks (mem_marks_of_short? hx)
  split at h
  · next hc =>
    rw [List.mem_singleton.1 h]
    exact hc
  · apply isPrinted_of_mem_marks
    rw [List.mem_append, List.mem_append, List.mem_singleton] at h
    rcases h with (h | h) | rfl
    · exact hmark (List.mem_append_left ['\x7d'] h)
    · exact mem_marks_of_mem_hex h
    · exact hmark (by decide)

theorem isPrinted_of_mem_encode {s : String} {d : Char} (h : d ∈ (encode s).toList) :
    isPrinted d := by
  have hquote : isPrinted '"' := (isPrinted_iff_of_lt (by decide)).2 (by decide)
  rw [encode, String.toList_ofList, List.mem_append, List.mem_cons, List.mem_flatMap,
    List.mem_singleton] at h
  rcases h with (rfl | ⟨c, -, hd⟩) | rfl
  · exact hquote
  · exact isPrinted_of_mem_escape hd
  · exact hquote

/-- A no-break space and an accent over the letter before it are written by their numbers. -/
example : encode "a\u0301\u00a0\"é" = "\"a\\u\x7b301\x7d\\u\x7ba0\x7d\\\"é\"" := by decide +kernel

end StreamScript.Quoted
