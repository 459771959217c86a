import StreamScript.Grammar.Point
import StreamScript.Proofs.Spelling

/-! # Unfinished statements

A point inside a statement stands for the tokens of the statement that have been read.
`Point.Begun p ts opening` says that `ts` are such tokens, and which of them is the round bracket
that is open.  `Point.Begun.extends` says what one more token makes of them: the tokens of the
next point, a whole statement, or the header of a block. -/

namespace StreamScript

/-- The tokens before the expression of a slot, with the round bracket of the header. -/
inductive HeaderSlot.Begun : HeaderSlot → List Token → Token → Prop
  | guarded {guard : Guard} {word opening : Token} :
      word.is .keyword guard.word → opening.opens .paren →
      Begun (.guarded guard) [word, opening] opening
  | init {word opening : Token} :
      word.is .keyword "for" → opening.opens .paren → Begun .init [word, opening] opening
  | condition {ts us : List Token} {opening semicolon : Token} {value : Option Node} :
      Begun .init ts opening → SpellsSlot us value → semicolon.is .punctuation ";" →
      Begun (.condition value) (ts ++ us ++ [semicolon]) opening
  | increment {ts us : List Token} {opening semicolon : Token} {init value : Option Node} :
      Begun (.condition init) ts opening → SpellsSlot us value → semicolon.is .punctuation ";" →
      Begun (.increment init value) (ts ++ us ++ [semicolon]) opening

/-- The tokens of an unfinished statement that lead to a point, with the round bracket that is
open there, if one is. -/
inductive Point.Begun : Point → List Token → Option Token → Prop
  | statement : Begun .statement [] none
  | declarationFirst {t : Token} :
      t.kind = .keyword → t.text ∈ declarationTypes → Begun (.declarationName t.text []) [t] none
  | declarationNext {t : Token} {ts : List Token} {names : List String} :
      t.kind = .keyword → t.text ∈ declarationTypes → SpellsNames ts names →
      Begun (.declarationNext t.text names.reverse) (t :: ts) none
  | declarationName {type : String} {names : List String} {ts : List Token} {t : Token} :
      Begun (.declarationNext type names) ts none → t.is .punctuation "," →
      Begun (.declarationName type names) (ts ++ [t]) none
  | handleName {t : Token} :
      t.kind = .keyword → t.text ∈ handleTypes → Begun (.handleName t.text) [t] none
  | handleOpening {type : String} {ts : List Token} {t : Token} :
      Begun (.handleName type) ts none → t.kind = .identifier →
      Begun (.handleOpening type t.text) (ts ++ [t]) none
  | handlePath {type name : String} {ts : List Token} {t : Token} :
      Begun (.handleOpening type name) ts none → t.opens .paren →
      Begun (.handlePath type name) (ts ++ [t]) (some t)
  | handleClosing {type name : String} {ts : List Token} {opening t : Token} :
      Begun (.handlePath type name) ts (some opening) → t.kind = .literal →
      Begun (.handleClosing type name t.text) (ts ++ [t]) (some opening)
  | handleEnd {type name path : String} {ts : List Token} {opening t : Token} :
      Begun (.handleClosing type name path) ts (some opening) → t.closes .paren →
      Begun (.handleEnd type name path) (ts ++ [t]) none
  | callDot {t : Token} : t.kind = .identifier → Begun (.callDot t.text) [t] none
  | callMethod {target : String} {ts : List Token} {t : Token} :
      Begun (.callDot target) ts none → t.is .operator "." →
      Begun (.callMethod target) (ts ++ [t]) none
  | callOpening {target : String} {ts : List Token} {t : Token} :
      Begun (.callMethod target) ts none → t.kind = .identifier →
      Begun (.callOpening target t.text) (ts ++ [t]) none
  | callClosing {target method : String} {ts : List Token} {t : Token} :
      Begun (.callOpening target method) ts none → t.opens .paren →
      Begun (.callClosing target method) (ts ++ [t]) (some t)
  | callEnd {target method : String} {ts : List Token} {opening t : Token} :
      Begun (.callClosing target method) ts (some opening) → t.closes .paren →
      Begun (.callEnd target method) (ts ++ [t]) none
  | guardOpening {guard : Guard} {t : Token} :
      t.is .keyword guard.word → Begun (.guardOpening guard) [t] none
  | forOpening {t : Token} : t.is .keyword "for" → Begun .forOpening [t] none
  | expression {slot : HeaderSlot} {ts signs : List Token} {opening : Token} :
      slot.Begun ts opening → signs.length ≤ maxDepth → (∀ t ∈ signs, t.is .operator "!") →
      Begun (.expression slot signs.length) (ts ++ signs) (some opening)
  | expressionEnd {slot : HeaderSlot} {ts us : List Token} {opening : Token}
      {value : Option Node} :
      slot.Begun ts opening → SpellsSlot us value →
      Begun (.expressionEnd slot value) (ts ++ us) (some opening)
  | block {header : Header} {ts : List Token} :
      SpellsHeader ts header → Begun (.block header) ts none

/-! ### One more token -/

/-- What a move with the token `t` makes of an unfinished statement: the tokens `ts`, with the
round bracket that is open in them. -/
def Move.Extends (ts : List Token) (opening : Option Token) (t : Token) : Move → Prop
  | start next => opening = none ∧ next.Begun (ts ++ [t]) none
  | shift next => next.Begun (ts ++ [t]) opening
  | openParen next => opening = none ∧ next.Begun (ts ++ [t]) (some t)
  | closeParen next => (∃ o, opening = some o) ∧ next.Begun (ts ++ [t]) none
  | finish node => opening = none ∧ SpellsSimple (ts ++ [t]) node
  | openBlock header => opening = none ∧ SpellsHeader ts header ∧ t.opens .brace
  | closeBlock => ts = [] ∧ opening = none ∧ t.closes .brace
  | noStatement => ts = []
  | refuse | overlong => ts ≠ []

namespace HeaderSlot

variable {ts us : List Token} {opening t : Token} {value : Option Node}

theorem Begun.ne_nil {slot : HeaderSlot} (h : slot.Begun ts opening) : ts ≠ [] := by
  cases h <;> simp

theorem Begun.header_of_guarded {guard : Guard} (h : Begun (.guarded guard) ts opening)
    (hs : SpellsSlot us value) (ht : t.closes .paren) :
    SpellsHeader (ts ++ us ++ [t]) (.guarded guard value) := by
  cases h with
  | guarded hw ho => exact .guarded hw ho hs ht

theorem Begun.header_of_increment {init condition : Option Node}
    (h : Begun (.increment init condition) ts opening) (hs : SpellsSlot us value)
    (ht : t.closes .paren) :
    SpellsHeader (ts ++ us ++ [t]) (.forLoop init condition value) := by
  cases h with
  | increment h hc hsecond =>
      cases h with
      | condition h hi hfirst =>
          cases h with
          | init hw ho =>
              have := SpellsHeader.forLoop hw ho hi hfirst hc hsecond hs ht
              simpa using this

end HeaderSlot

namespace Point

variable {p next : Point} {ts : List Token} {opening : Option Token} {t : Token}

theorem Begun.ne_nil (h : p.Begun ts opening) (hp : p ≠ .statement) : ts ≠ [] := by
  cases h with
  | statement => exact absurd rfl hp
  | expression hs _ _ => simp [hs.ne_nil]
  | expressionEnd hs _ => simp [hs.ne_nil]
  | block hh => exact hh.ne_nil
  | _ => simp

theorem extends_onMark {mark : String} {m : Move} (hn : ts ≠ [])
    (h : t.is .punctuation mark → m.Extends ts opening t) :
    (onMark t mark m).Extends ts opening t := by
  unfold onMark
  split
  · next hm => exact h hm
  · exact hn

theorem extends_onKind {kind : TokenKind} (hn : ts ≠ [])
    (h : t.kind = kind → next.Begun (ts ++ [t]) opening) :
    (onKind t kind next).Extends ts opening t := by
  unfold onKind
  split
  · next hk => exact h hk
  · exact hn

/-- Between statements a token begins a statement of the form that it is the first token of. -/
theorem extends_begin (t : Token) : (begin t).Extends [] none t := by
  unfold begin
  split
  · next hk => exact ⟨rfl, .callDot hk⟩
  · next hk =>
      split
      · next ht => exact ⟨rfl, .declarationFirst hk ht⟩
      split
      · next ht => exact ⟨rfl, .handleName hk ht⟩
      split
      · next ht => exact ⟨rfl, .guardOpening (Token.is_iff.2 ⟨hk, ht⟩)⟩
      split
      · next ht => exact ⟨rfl, .guardOpening (Token.is_iff.2 ⟨hk, ht⟩)⟩
      split
      · next ht => exact ⟨rfl, .forOpening (Token.is_iff.2 ⟨hk, ht⟩)⟩
      · rfl
  · next hk =>
      split
      · next ht => exact ⟨rfl, rfl, Token.is_iff.2 ⟨hk, ht⟩⟩
      · rfl
  · rfl

theorem extends_declarationName {type : String} {names : List String}
    (h : Begun (.declarationName type names) ts opening) :
    (move (.declarationName type names) t).Extends ts opening t := by
  refine extends_onKind (h.ne_nil (by simp)) fun ht => ?_
  cases h with
  | declarationFirst hk hd => exact .declarationNext hk hd (.single ht)
  | declarationName h hc =>
      cases h with
      | @declarationNext type ts names hk hd hn =>
          have := Begun.declarationNext hk hd (hn.snoc hc ht)
          simpa using this

theorem extends_declarationNext {type : String} {names : List String}
    (h : Begun (.declarationNext type names) ts opening) :
    (move (.declarationNext type names) t).Extends ts opening t := by
  have hne := h.ne_nil (by simp)
  cases h with
  | declarationNext hk hd hn =>
      rw [move]
      split
      · next hc => exact .declarationName (.declarationNext hk hd hn) hc
      · refine extends_onMark hne fun hs => ⟨rfl, ?_⟩
        rw [List.reverse_reverse]
        exact .declaration hk hd hn hs

/-- Names, a bracket, a path and a bracket make a handle declaration with the semicolon. -/
theorem Begun.handle {type name path : String} {opening : Option Token}
    (h : Begun (.handleEnd type name path) ts opening) (ht : t.is .punctuation ";") :
    SpellsSimple (ts ++ [t]) (.handleDeclaration type name path) := by
  cases h with
  | handleEnd h hclosing => cases h with
    | handleClosing h hpath => cases h with
      | handlePath h hopening => cases h with
        | handleOpening h hname => cases h with
          | handleName hk hd => exact .handle hk hd hname hopening hpath hclosing ht

theorem Begun.call {target method : String} {opening : Option Token}
    (h : Begun (.callEnd target method) ts opening) (ht : t.is .punctuation ";") :
    SpellsSimple (ts ++ [t]) (.memberCall target method) := by
  cases h with
  | callEnd h hclosing => cases h with
    | callClosing h hopening => cases h with
      | callOpening h hmethod => cases h with
        | callMethod h hdot => cases h with
          | callDot hk => exact .call hk hdot hmethod hopening hclosing ht

theorem Begun.expression_zero {slot : HeaderSlot} {o : Token} (h : slot.Begun ts o) :
    Begun (.expression slot 0) ts (some o) := by
  have hsigns : ∀ t ∈ ([] : List Token), t.is .operator "!" := by simp
  have := Begun.expression h (Nat.zero_le _) hsigns
  rwa [List.append_nil] at this

theorem extends_expression {slot : HeaderSlot} {count : Nat}
    (h : Begun (.expression slot count) ts opening) :
    (move (.expression slot count) t).Extends ts opening t := by
  have hne := h.ne_nil (by simp)
  cases h with
  | @expression slot ts signs opening hb hle hs =>
      rw [move]
      split
      · next ht =>
          split
          · exact hne
          · next hc =>
              have hlen : signs.length + 1 = (signs ++ [t]).length := by simp
              rw [Move.Extends, hlen, List.append_assoc]
              refine .expression hb (by rw [← hlen]; omega) fun u hu => ?_
              rcases List.mem_append.1 hu with hu | hu
              · exact hs u hu
              · rw [List.mem_singleton.1 hu]; exact ht
      · next ht =>
          rw [Move.Extends, List.append_assoc]
          exact .expressionEnd hb (spellsExpression_iff.2 ⟨signs, t, rfl, hle, hs, ht, rfl⟩)

/-- What follows an expression leads to the next expression or completes the header. -/
theorem extends_expressionEnd {slot : HeaderSlot} {value : Option Node}
    (h : Begun (.expressionEnd slot value) ts opening) :
    (move (.expressionEnd slot value) t).Extends ts opening t := by
  have hne := h.ne_nil (by simp)
  cases h with
  | @expressionEnd slot ts us o value hb hs =>
      cases slot with
      | guarded guard =>
          exact extends_onMark hne fun ht => ⟨⟨o, rfl⟩, .block (hb.header_of_guarded hs ht)⟩
      | init => exact extends_onMark hne fun ht => Begun.expression_zero (.condition hb hs ht)
      | condition i => exact extends_onMark hne fun ht => Begun.expression_zero (.increment hb hs ht)
      | increment i c =>
          exact extends_onMark hne fun ht => ⟨⟨o, rfl⟩, .block (hb.header_of_increment hs ht)⟩

/-- One more token after an unfinished statement. -/
theorem Begun.extends (h : p.Begun ts opening) (t : Token) :
    (p.move t).Extends ts opening t := by
  have hne := h.ne_nil
  cases h with
  | statement => exact extends_begin t
  | declarationFirst hk ht => exact extends_declarationName (.declarationFirst hk ht)
  | declarationName h hc => exact extends_declarationName (.declarationName h hc)
  | declarationNext hk ht hn => exact extends_declarationNext (.declarationNext hk ht hn)
  | handleName hk ht =>
      exact extends_onKind (by simp) fun hi => .handleOpening (.handleName hk ht) hi
  | handleOpening h hi =>
      exact extends_onMark (by simp) fun ho => ⟨rfl, .handlePath (.handleOpening h hi) ho⟩
  | handlePath h ho =>
      exact extends_onKind (by simp) fun hl => .handleClosing (.handlePath h ho) hl
  | @handleClosing _ _ _ o _ h hl =>
      exact extends_onMark (by simp) fun hc => ⟨⟨o, rfl⟩, .handleEnd (.handleClosing h hl) hc⟩
  | handleEnd h hc =>
      exact extends_onMark (by simp) fun hs => ⟨rfl, (Begun.handleEnd h hc).handle hs⟩
  | callDot hk =>
      rw [move]
      split
      · next hd => exact .callMethod (.callDot hk) hd
      · exact hne (by simp)
  | callMethod h hd =>
      exact extends_onKind (by simp) fun hi => .callOpening (.callMethod h hd) hi
  | callOpening h hi =>
      exact extends_onMark (by simp) fun ho => ⟨rfl, .callClosing (.callOpening h hi) ho⟩
  | @callClosing _ _ _ o h ho =>
      exact extends_onMark (by simp) fun hc => ⟨⟨o, rfl⟩, .callEnd (.callClosing h ho) hc⟩
  | callEnd h hc =>
      exact extends_onMark (by simp) fun hs => ⟨rfl, (Begun.callEnd h hc).call hs⟩
  | @guardOpening guard _ hw =>
      exact extends_onMark (by simp) fun ho => ⟨rfl, .expression_zero (.guarded hw ho)⟩
  | forOpening hw =>
      exact extends_onMark (by simp) fun ho => ⟨rfl, .expression_zero (.init hw ho)⟩
  | expression hb hle hs => exact extends_expression (.expression hb hle hs)
  | expressionEnd hb hs => exact extends_expressionEnd (.expressionEnd hb hs)
  | block hh => exact extends_onMark (hne (by simp)) fun ht => ⟨rfl, hh, ht⟩

end Point

end StreamScript
