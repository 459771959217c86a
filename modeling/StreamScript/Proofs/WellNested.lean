import StreamScript.Proofs.Entries

/-! # Records of brackets

The records of a run tell of every bracket that is opened or closed.  A word of such records is
well nested (`WellNested`) if each opening is closed later, under its own kind and with its own
line, and the brackets between the two are closed among themselves.

Some records that lead from the open brackets `es` to the open brackets `es'` are a turn,
`Turns es rs es'`.  If a word becomes well nested by closing what is open before a turn, then with
the turn it does so by closing what is open after it (`Turns.wellNested`), and a turn acts on a
tracker as it acts on the entries (`Turns.replay`). -/

namespace StreamScript

/-- Whether the record tells of a bracket. -/
def Record.isBracket : Record → Bool
  | push .. | pop .. => true
  | _ => false

/-- Every bracket is closed after what was opened inside it, and the two records agree on it. -/
inductive WellNested : List Record → Prop
  | nil : WellNested []
  | pair {bracket : Bracket} {line : Nat} {inside rest : List Record} :
      WellNested inside → WellNested rest →
      WellNested (.push bracket line :: inside ++ .pop bracket line :: rest)

/-- The records of closing what is open, innermost first. -/
def closings (entries : List (Bracket × Nat)) : List Record :=
  entries.map fun entry => .pop entry.1 entry.2

/-- The tracker after the record. -/
def Tracker.record (t : Tracker) : Record → Tracker
  | .push bracket line => t.push bracket line
  | .pop bracket _ => (t.pop bracket).2
  | _ => t

/-- The tracker after the records. -/
def Tracker.replay (t : Tracker) (rs : List Record) : Tracker := rs.foldl Tracker.record t

variable {rs us vs ws : List Record} {es es' : List (Bracket × Nat)} {t : Tracker}

theorem Tracker.replay_append (t : Tracker) (rs us : List Record) :
    t.replay (rs ++ us) = (t.replay rs).replay us := List.foldl_append

theorem Tracker.replay_of_not_isBracket (h : ∀ r ∈ rs, r.isBracket = false) :
    t.replay rs = t := by
  induction rs with
  | nil => rfl
  | cons r rs ih =>
      rw [List.forall_mem_cons] at h
      have hr : t.record r = t := by
        cases r with
        | push bracket line => exact nomatch h.1
        | pop bracket line => exact nomatch h.1
        | _ => rfl
      show (t.record r).replay rs = t
      rw [hr, ih h.2]

/-- A bracket may be opened and closed at once anywhere. -/
theorem WellNested.insert (h : WellNested (us ++ vs)) (bracket : Bracket) (line : Nat) :
    WellNested (us ++ .push bracket line :: .pop bracket line :: vs) := by
  generalize hw : us ++ vs = ws at h
  induction h generalizing us vs with
  | nil =>
      obtain ⟨rfl, rfl⟩ := List.append_eq_nil_iff.1 hw
      exact .pair .nil .nil
  | @pair b l inside rest hinside hrest ihinside ihrest =>
      cases us with
      | nil =>
          obtain rfl : vs = .push b l :: inside ++ .pop b l :: rest := hw
          exact .pair .nil (.pair hinside hrest)
      | cons r us =>
          obtain ⟨rfl, htail⟩ := List.cons.inj hw
          -- the place is inside the first pair, or right before its end, or after it
          rcases List.append_eq_append_iff.1 htail with ⟨as, rfl, rfl⟩ | ⟨as, rfl, has⟩
          · have hpair : WellNested (.push b l :: (us ++ .push bracket line ::
                .pop bracket line :: as) ++ .pop b l :: rest) := .pair (ihinside rfl) hrest
            simpa using hpair
          · cases as with
            | nil =>
                obtain rfl : vs = .pop b l :: rest := has.symm
                have hpair : WellNested (.push b l :: (inside ++ .push bracket line ::
                    .pop bracket line :: []) ++ .pop b l :: rest) :=
                  .pair (ihinside (List.append_nil inside)) hrest
                simpa using hpair
            | cons r as =>
                obtain ⟨rfl, rfl⟩ := List.cons.inj has
                have hpair : WellNested (.push b l :: inside ++ .pop b l :: (as ++
                    .push bracket line :: .pop bracket line :: vs)) := .pair hinside (ihrest rfl)
                simpa using hpair

/-- The records lead from the one list of open brackets to the other, by opening or closing at
most one. -/
inductive Turns : List (Bracket × Nat) → List Record → List (Bracket × Nat) → Prop
  | keep {rs : List Record} {es : List (Bracket × Nat)} :
      (∀ r ∈ rs, r.isBracket = false) → Turns es rs es
  | opening {bracket : Bracket} {line : Nat} {es : List (Bracket × Nat)} :
      Turns es [.push bracket line] ((bracket, line) :: es)
  | closing {bracket : Bracket} {line : Nat} {es : List (Bracket × Nat)} :
      Turns ((bracket, line) :: es) [.pop bracket line] es

namespace Turns

theorem replay (h : Turns es rs es') :
    (Tracker.ofEntries es).replay rs = .ofEntries es' := by
  cases h with
  | keep hrs => exact Tracker.replay_of_not_isBracket hrs
  | opening => rfl
  | closing => simp [Tracker.replay, Tracker.record]

/-- In the middle of a turn the brackets are open that are so before it or after it. -/
theorem replay_of_prefix (h : Turns es rs es') (hu : us <+: rs) :
    (Tracker.ofEntries es).replay us = .ofEntries es ∨
      (Tracker.ofEntries es).replay us = .ofEntries es' := by
  have hsingle {r : Record} (hr : rs = [r]) : us = [] ∨ us = rs := by
    rw [hr] at hu ⊢
    rcases List.prefix_cons_iff.1 hu with rfl | ⟨vs, rfl, hvs⟩
    · exact .inl rfl
    · rw [List.prefix_nil.1 hvs]
      exact .inr rfl
  have hends (hus : us = [] ∨ us = rs) : (Tracker.ofEntries es).replay us = .ofEntries es ∨
      (Tracker.ofEntries es).replay us = .ofEntries es' := by
    rcases hus with rfl | rfl
    · exact .inl rfl
    · exact .inr h.replay
  cases h with
  | keep hrs =>
      exact .inl (Tracker.replay_of_not_isBracket fun r hr => hrs r (hu.subset hr))
  | opening => exact hends (hsingle rfl)
  | closing => exact hends (hsingle rfl)

theorem wellNested (h : Turns es rs es') (hw : WellNested (ws ++ closings es)) :
    WellNested (ws ++ rs.filter Record.isBracket ++ closings es') := by
  cases h with
  | keep hrs =>
      have hnone : rs.filter Record.isBracket = [] := List.filter_eq_nil_iff.2 (by simpa using hrs)
      rw [hnone, List.append_nil]
      exact hw
  | @opening bracket line es =>
      have hone : [Record.push bracket line].filter Record.isBracket = [.push bracket line] := rfl
      rw [hone, List.append_assoc]
      exact hw.insert bracket line
  | @closing bracket line es =>
      have hone : [Record.pop bracket line].filter Record.isBracket = [.pop bracket line] := rfl
      rw [hone, List.append_assoc]
      exact hw

end Turns

end StreamScript
