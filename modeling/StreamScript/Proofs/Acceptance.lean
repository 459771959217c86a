import StreamScript.Proofs.Reached

/-! # The programs that are accepted

A list of tokens is parsed to exactly the program that it spells: `spells_of_parse_eq_ok` says
that what is parsed is spelt, `parse_of_spells` that what is spelt is parsed. -/

namespace StreamScript

theorem exists_reaches_of_parse_eq_ok {ts : List Token} {p : Program} (h : parse ts = .ok p) :
    ∃ (x : Split) (s : State), x.tokens = ts ∧ x.Reaches s ∧ s.point = .statement ∧
      x.blocks = [] ∧ p = ⟨s.level.reverse⟩ := by
  cases hr : State.start.reads ts with
  | error e =>
      rw [parse_of_reads_error hr] at h
      cases h
  | ok s =>
      rw [parse_of_reads_ok hr] at h
      obtain ⟨x, hx, hs⟩ := exists_split_of_reads hr
      by_cases hp : s.point = .statement
      · rw [hs.finish_eq hp] at h
        cases hb : x.blocks with
        | nil =>
            rw [hb] at h
            cases h
            exact ⟨x, s, hx, hs, hp, hb, rfl⟩
        | cons brace blocks =>
            rw [hb] at h
            cases h
      · rw [State.finish_of_ne_statement hp] at h
        cases h

theorem spells_of_parse_eq_ok {ts : List Token} {p : Program} (h : parse ts = .ok p) :
    Spells 0 ts p.statements := by
  obtain ⟨x, s, rfl, hs, hp, hb, rfl⟩ := exists_reaches_of_parse_eq_ok h
  obtain ⟨hc, -⟩ := hs.current_of_statement hp
  have hopened := hs.opened
  have hspells := hs.spells
  rw [hb] at hopened
  generalize ho : x.outer = outer, s.frames = frames at hopened hspells
  cases hopened with
  | nil => simpa [Split.tokens, ho, hc] using hspells

theorem parse_of_spells {ts : List Token} {nodes : List Node} (h : Spells 0 ts nodes) :
    parse ts = .ok ⟨nodes⟩ := by
  have hd : Tracker.empty.depth ≤ 0 := Nat.le_refl 0
  have hr : State.start.reads ts =
      .ok ⟨.statement, nodes.reverse ++ [], [], .empty, lineAfter 1 ts⟩ :=
    h.reads_of_depth_le hd [] [] 1
  rw [parse_of_reads_ok hr, State.finish_of_innermost_none rfl rfl]
  simp

theorem Spells.unique {d e : Nat} {ts : List Token} {nodes nodes' : List Node}
    (h : Spells d ts nodes) (h' : Spells e ts nodes') : nodes = nodes' := by
  have hp := parse_of_spells (h.mono (Nat.zero_le d))
  rw [parse_of_spells (h'.mono (Nat.zero_le e))] at hp
  cases hp
  rfl

/-- A list of tokens is parsed to a program if and only if it spells the program. -/
theorem parse_eq_ok_iff_spells (ts : List Token) (p : Program) :
    parse ts = .ok p ↔ Spells 0 ts p.statements := by
  constructor
  · intro h
    exact spells_of_parse_eq_ok h
  · intro h
    exact parse_of_spells h

end StreamScript
