/-! # Where a part of a text ends

A text that is put together from parts can be taken apart again where a part has an end that can be
seen.  From the left, a part ends before the first character that it cannot have
(`append_inj_of_stop`), and from the right it begins after the last one (`append_inj_of_start`).  So
the last word of a text can be read back (`append_word_inj`), and in particular a number at the end
(`append_number_inj`). -/

namespace StreamScript

/-- No line ends in the text. -/
def OneLine (s : String) : Prop := '\n' ∉ s.toList

instance (s : String) : Decidable (OneLine s) := inferInstanceAs (Decidable ('\n' ∉ s.toList))

section

variable {α : Type} {p : α → Prop} {xs ys us vs : List α}

/-- Two lists are equal up to the first place where a test fails. -/
theorem append_inj_of_stop (hxs : ∀ x ∈ xs, p x) (hys : ∀ y ∈ ys, p y)
    (hus : ∀ u ∈ us.head?, ¬ p u) (hvs : ∀ v ∈ vs.head?, ¬ p v) (h : xs ++ us = ys ++ vs) :
    xs = ys ∧ us = vs := by
  induction xs generalizing ys with
  | nil =>
      cases ys with
      | nil => exact ⟨rfl, h⟩
      | cons y ys =>
          rw [List.nil_append] at h
          rw [h] at hus
          exact absurd (hys y List.mem_cons_self) (hus y rfl)
  | cons x xs ih =>
      cases ys with
      | nil =>
          rw [List.nil_append] at h
          rw [← h] at hvs
          exact absurd (hxs x List.mem_cons_self) (hvs x rfl)
      | cons y ys =>
          obtain ⟨rfl, htail⟩ := List.cons.inj h
          rw [List.forall_mem_cons] at hxs hys
          obtain ⟨rfl, rfl⟩ := ih hxs.2 hys.2 htail
          exact ⟨rfl, rfl⟩

/-- Two lists are equal from the last place on where a test fails. -/
theorem append_inj_of_start (hxs : ∀ x ∈ xs, p x) (hys : ∀ y ∈ ys, p y)
    (hus : ∀ u ∈ us.getLast?, ¬ p u) (hvs : ∀ v ∈ vs.getLast?, ¬ p v) (h : us ++ xs = vs ++ ys) :
    us = vs ∧ xs = ys := by
  have hreverse : xs.reverse ++ us.reverse = ys.reverse ++ vs.reverse := by
    rw [← List.reverse_append, ← List.reverse_append, h]
  rw [← List.head?_reverse] at hus hvs
  obtain ⟨hx, hu⟩ := append_inj_of_stop (fun x hx => hxs x (List.mem_reverse.1 hx))
    (fun y hy => hys y (List.mem_reverse.1 hy)) hus hvs hreverse
  exact ⟨List.reverse_inj.1 hu, List.reverse_inj.1 hx⟩

end

/-! ### Words at the end of a text -/

variable {us vs xs ys : List Char} {m n : Nat}

theorem append_word_inj (hxs : ' ' ∉ xs) (hys : ' ' ∉ ys)
    (h : us ++ ' ' :: xs = vs ++ ' ' :: ys) : us = vs ∧ xs = ys := by
  have hword {zs : List Char} (hzs : ' ' ∉ zs) : ∀ z ∈ zs, z ≠ ' ' := by
    rintro z hz rfl
    exact hzs hz
  rw [List.append_cons us, List.append_cons vs] at h
  obtain ⟨hbefore, hrest⟩ :=
    append_inj_of_start (hword hxs) (hword hys) (by simp) (by simp) h
  exact ⟨List.append_cancel_right hbefore, hrest⟩

theorem not_mem_toString_of_isDigit {c : Char} (hc : c.isDigit = false) (n : Nat) :
    c ∉ (toString n).toList := by
  intro h
  rw [Nat.toString_eq_repr, Nat.toList_repr] at h
  have hdigit := Nat.isDigit_of_mem_toDigits (by decide) (by decide) h
  rw [hc] at hdigit
  cases hdigit

theorem toString_nat_inj (h : (toString m).toList = (toString n).toList) : m = n := by
  have hvalue := congrArg (Nat.ofDigitChars 10 · 0) h
  simpa using hvalue

theorem append_number_inj
    (h : us ++ ' ' :: (toString m).toList = vs ++ ' ' :: (toString n).toList) :
    us = vs ∧ m = n := by
  have hspace (k : Nat) : ' ' ∉ (toString k).toList := not_mem_toString_of_isDigit (by decide) k
  obtain ⟨hbefore, hdigits⟩ := append_word_inj (hspace m) (hspace n) h
  exact ⟨hbefore, toString_nat_inj hdigits⟩

end StreamScript
