import StreamScript.Proofs.Reading
import StreamScript.Proofs.Spelling

/-! # Reading what is spelt

What the tokens of each form of the grammar do when they are read.  The main statement is
`Spells.reads`: statements that are spelt inside `d` blocks are read from any point between
statements with at most `d` brackets open, and they are put on the level that is being read; the
frames and the tracker are as before. -/

namespace StreamScript

variable {t : Token} {level : List Node} {frames : List Frame} {tracker : Tracker} {line : Nat}

/-! ### Moves of the tokens that a point asks for -/

namespace Point

theorem move_of_declarationType (hk : t.kind = .keyword) (ht : t.text ∈ declarationTypes) :
    move .statement t = .start (.declarationName t.text []) := by
  simp [move, begin, hk, ht]

theorem move_of_handleType (hk : t.kind = .keyword) (ht : t.text ∈ handleTypes) :
    move .statement t = .start (.handleName t.text) := by
  have hn : t.text ∉ declarationTypes := by
    simp only [handleTypes, List.mem_cons, List.not_mem_nil, or_false] at ht
    rcases ht with h | h | h <;> rw [h] <;> decide
  simp [move, begin, hk, ht, hn]

theorem move_of_guard {guard : Guard} (h : t.is .keyword guard.word) :
    move .statement t = .start (.guardOpening guard) := by
  obtain ⟨hk, ht⟩ := Token.is_iff.1 h
  cases guard <;> simp [move, begin, hk, ht, Guard.word, declarationTypes, handleTypes]

theorem move_of_for (h : t.is .keyword "for") : move .statement t = .start .forOpening := by
  obtain ⟨hk, ht⟩ := Token.is_iff.1 h
  simp [move, begin, hk, ht, declarationTypes, handleTypes]

theorem move_of_identifier (h : t.kind = .identifier) :
    move .statement t = .start (.callDot t.text) := by
  simp [move, begin, h]

theorem move_of_closing (h : t.closes .brace) : move .statement t = .closeBlock := by
  obtain ⟨hk, ht⟩ := Token.is_iff.1 h
  simp [move, begin, hk, ht]

variable {type name path target method : String} {names : List String} {guard : Guard}
  {slot : HeaderSlot} {value i c : Option Node} {header : Header} {count : Nat}

theorem move_declarationName (h : t.kind = .identifier) :
    move (.declarationName type names) t = .shift (.declarationNext type (t.text :: names)) :=
  if_pos h

theorem move_declarationNext_of_comma (h : t.is .punctuation ",") :
    move (.declarationNext type names) t = .shift (.declarationName type names) :=
  if_pos h

theorem move_declarationNext_of_semicolon (h : t.is .punctuation ";") :
    move (.declarationNext type names) t = .finish (.declaration type names.reverse) := by
  have hc : ¬ t.is .punctuation "," := by
    rw [Token.is_iff] at h ⊢
    simp [h.2]
  rw [move, if_neg hc]
  exact if_pos h

theorem move_handleName (h : t.kind = .identifier) :
    move (.handleName type) t = .shift (.handleOpening type t.text) := if_pos h

theorem move_handleOpening (h : t.opens .paren) :
    move (.handleOpening type name) t = .openParen (.handlePath type name) := if_pos h

theorem move_handlePath (h : t.kind = .literal) :
    move (.handlePath type name) t = .shift (.handleClosing type name t.text) := if_pos h

theorem move_handleClosing (h : t.closes .paren) :
    move (.handleClosing type name path) t = .closeParen (.handleEnd type name path) := if_pos h

theorem move_handleEnd (h : t.is .punctuation ";") :
    move (.handleEnd type name path) t = .finish (.handleDeclaration type name path) := if_pos h

theorem move_callDot (h : t.is .operator ".") :
    move (.callDot target) t = .shift (.callMethod target) := if_pos h

theorem move_callMethod (h : t.kind = .identifier) :
    move (.callMethod target) t = .shift (.callOpening target t.text) := if_pos h

theorem move_callOpening (h : t.opens .paren) :
    move (.callOpening target method) t = .openParen (.callClosing target method) := if_pos h

theorem move_callClosing (h : t.closes .paren) :
    move (.callClosing target method) t = .closeParen (.callEnd target method) := if_pos h

theorem move_callEnd (h : t.is .punctuation ";") :
    move (.callEnd target method) t = .finish (.memberCall target method) := if_pos h

theorem move_guardOpening (h : t.opens .paren) :
    move (.guardOpening guard) t = .openParen (.expression (.guarded guard) 0) := if_pos h

theorem move_forOpening (h : t.opens .paren) :
    move .forOpening t = .openParen (.expression .init 0) := if_pos h

theorem move_expression_of_sign (h : t.is .operator "!") (hc : count < maxDepth) :
    move (.expression slot count) t = .shift (.expression slot (count + 1)) := by
  rw [move, if_pos h, if_neg (Nat.ne_of_lt hc)]

theorem move_expression_of_operand (h : ¬ t.is .operator "!") :
    move (.expression slot count) t = .shift (.expressionEnd slot (negations count)) := if_neg h

theorem move_guardClosing (h : t.closes .paren) :
    move (.expressionEnd (.guarded guard) value) t = .closeParen (.block (.guarded guard value)) :=
  if_pos h

theorem move_initEnd (h : t.is .punctuation ";") :
    move (.expressionEnd .init value) t = .shift (.expression (.condition value) 0) := if_pos h

theorem move_conditionEnd (h : t.is .punctuation ";") :
    move (.expressionEnd (.condition i) value) t = .shift (.expression (.increment i value) 0) :=
  if_pos h

theorem move_forClosing (h : t.closes .paren) :
    move (.expressionEnd (.increment i c) value) t = .closeParen (.block (.forLoop i c value)) :=
  if_pos h

theorem move_block (h : t.opens .brace) :
    move (.block header) t = .openBlock header := if_pos h

end Point

open State Point

/-! ### One token -/

section

variable {p q : Point} (ts : List Token)

theorem reads_start (h : p.move t = .start q) :
    reads ⟨p, level, frames, tracker, line⟩ (t :: ts) =
      reads ⟨q, level, frames, tracker, t.line⟩ ts :=
  reads_cons_of_ok (result_of_start h) ts

theorem reads_shift (h : p.move t = .shift q) :
    reads ⟨p, level, frames, tracker, line⟩ (t :: ts) =
      reads ⟨q, level, frames, tracker, t.line⟩ ts :=
  reads_cons_of_ok (result_of_shift h) ts

theorem reads_openParen (h : p.move t = .openParen q) :
    reads ⟨p, level, frames, tracker, line⟩ (t :: ts) =
      reads ⟨q, level, frames, tracker.push .paren t.line, t.line⟩ ts :=
  reads_cons_of_ok (result_of_openParen h) ts

/-- A round bracket closes the one that was opened last. -/
theorem reads_closeParen {l : Nat} (h : p.move t = .closeParen q) :
    reads ⟨p, level, frames, tracker.push .paren l, line⟩ (t :: ts) =
      reads ⟨q, level, frames, tracker, t.line⟩ ts := by
  rw [reads_cons_of_ok (result_of_closeParen h) ts]
  simp

theorem reads_finish {node : Node} (h : p.move t = .finish node) :
    reads ⟨p, level, frames, tracker, line⟩ (t :: ts) =
      reads ⟨.statement, node :: level, frames, tracker, t.line⟩ ts :=
  reads_cons_of_ok (result_of_finish h) ts

theorem reads_openBlock {header : Header} (h : p.move t = .openBlock header)
    (hd : tracker.depth < maxDepth) :
    reads ⟨p, level, frames, tracker, line⟩ (t :: ts) =
      reads ⟨.statement, [], ⟨header, level⟩ :: frames, tracker.push .brace t.line, t.line⟩ ts :=
  reads_cons_of_ok (result_of_openBlock h hd) ts

theorem reads_openBlock_of_le {header : Header} (h : p.move t = .openBlock header)
    (hd : maxDepth ≤ tracker.depth) :
    reads ⟨p, level, frames, tracker, line⟩ (t :: ts) =
      .error ⟨.nestingTooDeep maxDepth, t.line⟩ :=
  reads_cons_of_error (result_of_openBlock_of_le h hd) ts

/-- A closing bracket puts the node of the innermost block on the level around it. -/
theorem reads_closing {l : Nat} {header : Header} {before : List Node}
    (h : t.closes .brace) :
    reads ⟨.statement, level, ⟨header, before⟩ :: frames, tracker.push .brace l, line⟩ (t :: ts) =
      reads ⟨.statement, header.node level.reverse :: before, frames, tracker, t.line⟩ ts := by
  rw [reads_cons_of_ok (result_of_closeBlock (move_of_closing h) rfl) ts]
  simp

end

/-! ### Expressions and names -/

theorem reads_signs {signs : List Token} (hs : ∀ t ∈ signs, t.is .operator "!")
    {slot : HeaderSlot} {count : Nat} (hc : count + signs.length ≤ maxDepth) :
    reads ⟨.expression slot count, level, frames, tracker, line⟩ signs =
      .ok ⟨.expression slot (count + signs.length), level, frames, tracker,
        lineAfter line signs⟩ := by
  induction signs generalizing count line with
  | nil => rfl
  | cons t signs ih =>
      rw [List.length_cons] at hc ⊢
      have ht := hs t List.mem_cons_self
      have hrest : ∀ u ∈ signs, u.is .operator "!" := fun u hu => hs u (List.mem_cons_of_mem t hu)
      rw [reads_shift signs (move_expression_of_sign ht (by omega)), ih hrest (by omega),
        lineAfter_cons, Nat.add_assoc, Nat.add_comm 1]

theorem SpellsSlot.reads {ts : List Token} {value : Option Node} (h : SpellsSlot ts value)
    (slot : HeaderSlot) :
    reads ⟨.expression slot 0, level, frames, tracker, line⟩ ts =
      .ok ⟨.expressionEnd slot value, level, frames, tracker, lineAfter line ts⟩ := by
  obtain ⟨signs, operand, rfl, hle, hs, ho, rfl⟩ := spellsExpression_iff.1 h
  have hsigns : State.reads ⟨.expression slot 0, level, frames, tracker, line⟩ signs =
      .ok ⟨.expression slot signs.length, level, frames, tracker, lineAfter line signs⟩ := by
    rw [reads_signs hs (by omega), Nat.zero_add]
  rw [reads_append_of_ok hsigns, reads_shift [] (move_expression_of_operand ho)]
  simp

theorem SpellsNames.reads {ts : List Token} {names : List String} (h : SpellsNames ts names)
    (type : String) (before : List String) :
    reads ⟨.declarationName type before, level, frames, tracker, line⟩ ts =
      .ok ⟨.declarationNext type (names.reverse ++ before), level, frames, tracker,
        lineAfter line ts⟩ := by
  induction h generalizing before line with
  | single hn =>
      rw [reads_shift [] (move_declarationName hn)]
      simp
  | cons hn hc _ ih =>
      rw [reads_shift _ (move_declarationName hn),
        reads_shift _ (move_declarationNext_of_comma hc), ih]
      simp

/-! ### Statements -/

theorem SpellsSimple.reads {ts : List Token} {node : Node} (h : SpellsSimple ts node) :
    reads ⟨.statement, level, frames, tracker, line⟩ ts =
      .ok ⟨.statement, node :: level, frames, tracker, lineAfter line ts⟩ := by
  cases h with
  | declaration hk ht hn hs =>
      rw [List.cons_append, reads_start _ (move_of_declarationType hk ht),
        reads_append_of_ok (hn.reads _ []),
        reads_finish [] (move_declarationNext_of_semicolon hs)]
      simp
  | handle hk ht hn ho hp hc hs =>
      rw [reads_start _ (move_of_handleType hk ht), reads_shift _ (move_handleName hn),
        reads_openParen _ (move_handleOpening ho), reads_shift _ (move_handlePath hp),
        reads_closeParen _ (move_handleClosing hc), reads_finish [] (move_handleEnd hs)]
      simp
  | call ht hd hm ho hc hs =>
      rw [reads_start _ (move_of_identifier ht), reads_shift _ (move_callDot hd),
        reads_shift _ (move_callMethod hm), reads_openParen _ (move_callOpening ho),
        reads_closeParen _ (move_callClosing hc), reads_finish [] (move_callEnd hs)]
      simp

theorem SpellsHeader.reads {ts : List Token} {header : Header} (h : SpellsHeader ts header) :
    reads ⟨.statement, level, frames, tracker, line⟩ ts =
      .ok ⟨.block header, level, frames, tracker, lineAfter line ts⟩ := by
  cases h with
  | @guarded guard _ _ _ _ _ hw ho hs hc =>
      rw [List.cons_append, List.cons_append, reads_start _ (move_of_guard hw),
        reads_openParen _ (move_guardOpening ho), reads_append_of_ok (hs.reads (.guarded guard)),
        reads_closeParen [] (move_guardClosing hc)]
      simp
  | forLoop hw ho hi hf hcond hse hn hc =>
      simp only [List.cons_append, List.append_assoc]
      rw [reads_start _ (move_of_for hw), reads_openParen _ (move_forOpening ho),
        reads_append_of_ok (hi.reads .init), reads_shift _ (move_initEnd hf),
        reads_append_of_ok (hcond.reads _), reads_shift _ (move_conditionEnd hse),
        reads_append_of_ok (hn.reads _), reads_closeParen [] (move_forClosing hc)]
      simp

/-- Statements that are spelt inside `d` blocks are read, and put on the level that is being read,
unless more than `d` brackets are open already and the statements nest too deep. -/
theorem Spells.reads {d : Nat} {ts : List Token} {nodes : List Node} (h : Spells d ts nodes)
    (level : List Node) (frames : List Frame) (tracker : Tracker) (line : Nat) :
    State.reads ⟨.statement, level, frames, tracker, line⟩ ts =
        .ok ⟨.statement, nodes.reverse ++ level, frames, tracker, lineAfter line ts⟩ ∨
      d < tracker.depth ∧ ∃ l, State.reads ⟨.statement, level, frames, tracker, line⟩ ts =
        .error ⟨.nestingTooDeep maxDepth, l⟩ := by
  induction h generalizing level frames tracker line with
  | nil => exact .inl rfl
  | @simple d ts us node nodes hs _ ih =>
      rw [reads_append_of_ok hs.reads, lineAfter_append]
      have := ih (node :: level) frames tracker (lineAfter line ts)
      simpa using this
  | @block d ts us vs opening closing header body nodes hh ho hd _ hc _ ihb ih =>
      rw [List.append_assoc, List.cons_append, reads_append_of_ok hh.reads]
      rcases Nat.lt_or_ge tracker.depth maxDepth with hlt | hge
      · rw [reads_openBlock _ (move_block ho) hlt]
        rcases ihb [] (⟨header, level⟩ :: frames) (tracker.push .brace opening.line) opening.line
          with hb | ⟨hb, l, hl⟩
        · rw [reads_append_of_ok hb, reads_closing _ hc]
          have := ih (header.node body :: level) frames tracker closing.line
          simpa using this
        · rw [Tracker.depth_push] at hb
          exact .inr ⟨by omega, l, reads_append_of_error hl _⟩
      · rw [reads_openBlock_of_le _ (move_block ho) hge]
        exact .inr ⟨by omega, opening.line, rfl⟩

/-- With at most `d` brackets open there is room for statements that are spelt inside `d`
blocks. -/
theorem Spells.reads_of_depth_le {d : Nat} {ts : List Token} {nodes : List Node}
    (h : Spells d ts nodes) {tracker : Tracker} (hd : tracker.depth ≤ d) (level : List Node)
    (frames : List Frame) (line : Nat) :
    State.reads ⟨.statement, level, frames, tracker, line⟩ ts =
      .ok ⟨.statement, nodes.reverse ++ level, frames, tracker, lineAfter line ts⟩ := by
  rcases h.reads level frames tracker line with hr | ⟨hlt, -⟩
  · exact hr
  · omega

end StreamScript
