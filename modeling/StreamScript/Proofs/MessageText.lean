import StreamScript.Proofs.Reading
import StreamScript.Proofs.TextEnds

/-! # Reading an error message back

Not every error can be read back from its message: what is required and what is found are written
one after the other, and a comma inside the requirement could be the one between them.  But a parse
requires only what the grammar expects at some place (`ErrorKind.Expects`, `expects_of_parse`), and
no expectation has a comma in its words (`Expectation.comma_not_mem_text`).  Then the first comma
ends the requirement, and all that follows it is what is found, whatever text that is.

The four causes begin with different letters (`ErrorKind.initial`), and the line is the number at
the end.  So the message of a parse that fails tells the error (`message_unambiguous`). -/

namespace StreamScript

variable {ts us : List Token} {e e' : ParseError} {kind kind' : ErrorKind}

/-! ### What a parse requires -/

/-- What the error requires, if it requires something, is one of the expectations of the grammar. -/
def ErrorKind.Expects : ErrorKind → Prop
  | expectedToken expected _ => ∃ x : Expectation, expected = x.text
  | unexpectedToken _ | mismatchedBracket _ | nestingTooDeep _ => True

namespace State

variable {s : State} {t : Token}

theorem expects_unmet (s : State) (found : Option String) (line : Nat) :
    (s.unmet found line).kind.Expects :=
  ⟨s.point.expectation, rfl⟩

theorem expects_of_step (h : (s.step t).result = .error e) : e.kind.Expects := by
  cases rejects_of_step h with
  | refuse _ => exact s.expects_unmet (some t.text) t.line
  | noStatement _ => trivial
  | closeBlock _ _ => trivial
  | openBlock _ _ => trivial
  | overlong _ => trivial

theorem expects_of_finish (h : s.finish.result = .error e) : e.kind.Expects := by
  by_cases hp : s.point = .statement
  · cases hi : s.tracker.innermost with
    | none =>
        rw [finish_of_innermost_none hp hi] at h
        cases h
    | some entry =>
        rw [finish_of_innermost hp hi] at h
        cases h
        trivial
  · rw [finish_of_ne_statement hp] at h
    cases h
    exact s.expects_unmet none s.line

end State

/-- A parse that fails requires what the grammar expects. -/
theorem expects_of_parse (h : parse ts = .error e) : e.kind.Expects := by
  cases hr : State.start.reads ts with
  | ok s =>
      rw [parse_of_reads_ok hr] at h
      exact State.expects_of_finish h
  | error e' =>
      rw [parse_of_reads_error hr] at h
      cases h
      obtain ⟨before, t, after, s, -, -, he⟩ := State.exists_step_of_reads_error hr
      exact State.expects_of_step he

theorem Expectation.comma_not_mem_text (x : Expectation) : ',' ∉ x.text.toList := by
  cases x with
  | guardOpening guard => cases guard <;> decide +kernel
  | guardClosing guard => cases guard <;> decide +kernel
  | guardBlock guard => cases guard <;> decide +kernel
  | _ => decide +kernel

/-! ### The parts of a message -/

/-- What a message says of the token that is found, if one is. -/
def foundText : Option String → List Char
  | none => []
  | some found => ',' :: (" got '".toList ++ found.toList ++ "'".toList)

theorem foundText_injective {found found' : Option String}
    (h : foundText found = foundText found') : found = found' := by
  cases found with
  | none =>
      cases found' with
      | none => rfl
      | some text => cases h
  | some text =>
      cases found' with
      | none => cases h
      | some text' =>
          unfold foundText at h
          have htext := List.append_cancel_left (List.append_cancel_right (List.cons.inj h).2)
          rw [String.toList_inj.1 htext]

theorem head_foundText (found : Option String) : ∀ c ∈ (foundText found).head?, ¬ c ≠ ',' := by
  cases found with
  | none => nofun
  | some text =>
      intro c hc
      cases hc
      exact not_not_intro rfl

namespace ErrorKind

theorem toList_message_expectedToken (expected : String) (found : Option String) :
    (expectedToken expected found).message.toList =
      "Expected ".toList ++ (expected.toList ++ foundText found) := by
  cases found with
  | none =>
      show ("Expected " ++ expected).toList = _
      simp [foundText]
  | some text =>
      show ("Expected " ++ expected ++ ", got '" ++ text ++ "'").toList = _
      simp [foundText]

theorem toList_message_unexpectedToken (text : String) :
    (unexpectedToken text).message.toList = "Unexpected token: ".toList ++ text.toList :=
  String.toList_append

theorem toList_message_mismatchedBracket (bracket : Bracket) :
    (mismatchedBracket bracket).message.toList =
      "Mismatched brackets detected, unclosed '".toList ++ bracket.name.toList ++ "'".toList := by
  show ("Mismatched brackets detected, unclosed '" ++ bracket.name ++ "'").toList = _
  rw [String.toList_append, String.toList_append]

theorem toList_message_nestingTooDeep (limit : Nat) :
    (nestingTooDeep limit).message.toList =
      "Nesting deeper than ".toList ++ (toString limit).toList ++ " levels".toList := by
  show ("Nesting deeper than " ++ toString limit ++ " levels").toList = _
  rw [String.toList_append, String.toList_append]

/-- The first letter of the message. -/
def initial : ErrorKind → Char
  | expectedToken .. => 'E'
  | unexpectedToken _ => 'U'
  | mismatchedBracket _ => 'M'
  | nestingTooDeep _ => 'N'

theorem head?_message (kind : ErrorKind) : kind.message.toList.head? = some kind.initial := by
  cases kind with
  | expectedToken expected found => rw [toList_message_expectedToken]; rfl
  | unexpectedToken text => rw [toList_message_unexpectedToken]; rfl
  | mismatchedBracket bracket => rw [toList_message_mismatchedBracket]; rfl
  | nestingTooDeep limit => rw [toList_message_nestingTooDeep]; rfl

theorem initial_eq_of_message (h : kind.message = kind'.message) :
    kind.initial = kind'.initial := by
  have hhead := congrArg (fun message : String => message.toList.head?) h
  simpa only [head?_message, Option.some.injEq] using hhead

/-! ### Reading a message back -/

/-- The requirement ends before the first comma. -/
theorem expectedToken_eq_of_message {x y : Expectation} {found found' : Option String}
    (h : (expectedToken x.text found).message = (expectedToken y.text found').message) :
    expectedToken x.text found = expectedToken y.text found' := by
  have hword (z : Expectation) : ∀ c ∈ z.text.toList, c ≠ ',' := by
    rintro c hc rfl
    exact z.comma_not_mem_text hc
  have htext := congrArg String.toList h
  rw [toList_message_expectedToken, toList_message_expectedToken] at htext
  obtain ⟨hexpected, hfound⟩ := append_inj_of_stop (hword x) (hword y) (head_foundText found)
    (head_foundText found') (List.append_cancel_left htext)
  rw [String.toList_inj.1 hexpected, foundText_injective hfound]

/-- The words of a cause that requires only what the grammar expects tell the cause. -/
theorem eq_of_message (hk : kind.Expects) (hk' : kind'.Expects) (h : kind.message = kind'.message) :
    kind = kind' := by
  have hinitial := initial_eq_of_message h
  have htext := congrArg String.toList h
  cases kind with
  | expectedToken expected found =>
      cases kind' with
      | expectedToken expected' found' =>
          obtain ⟨x, rfl⟩ := hk
          obtain ⟨y, rfl⟩ := hk'
          exact expectedToken_eq_of_message h
      | _ => simp [initial] at hinitial
  | unexpectedToken text =>
      cases kind' with
      | unexpectedToken text' =>
          rw [toList_message_unexpectedToken, toList_message_unexpectedToken] at htext
          rw [String.toList_inj.1 (List.append_cancel_left htext)]
      | _ => simp [initial] at hinitial
  | mismatchedBracket bracket =>
      cases kind' with
      | mismatchedBracket bracket' =>
          rw [toList_message_mismatchedBracket, toList_message_mismatchedBracket] at htext
          have hname := List.append_cancel_left (List.append_cancel_right htext)
          rw [Bracket.name_injective (String.toList_inj.1 hname)]
      | _ => simp [initial] at hinitial
  | nestingTooDeep limit =>
      cases kind' with
      | nestingTooDeep limit' =>
          rw [toList_message_nestingTooDeep, toList_message_nestingTooDeep] at htext
          have hlimit := List.append_cancel_left (List.append_cancel_right htext)
          rw [toString_nat_inj hlimit]
      | _ => simp [initial] at hinitial

end ErrorKind

theorem ParseError.toList_message (e : ParseError) :
    e.message.toList =
      e.kind.message.toList ++ " at line".toList ++ ' ' :: (toString e.line).toList ++ ['.'] := by
  show (e.kind.message ++ " at line " ++ toString e.line ++ ".").toList = _
  generalize toString e.line = number
  simp

/-- The words of an error tell the line and the words of its cause. -/
theorem ParseError.kind_message_eq (h : e.message = e'.message) :
    e.kind.message = e'.kind.message ∧ e.line = e'.line := by
  have htext := congrArg String.toList h
  rw [toList_message, toList_message] at htext
  obtain ⟨hbefore, hline⟩ := append_number_inj (List.append_cancel_right htext)
  exact ⟨String.toList_inj.1 (List.append_cancel_right hbefore), hline⟩

/-- Two parses that fail with the same message fail with the same error. -/
theorem message_unambiguous (ts us : List Token) (e e' : ParseError) (h : parse ts = .error e)
    (h' : parse us = .error e') (hm : e.message = e'.message) : e = e' := by
  obtain ⟨hmessage, hline⟩ := ParseError.kind_message_eq hm
  have hkind := ErrorKind.eq_of_message (expects_of_parse h) (expects_of_parse h') hmessage
  cases e
  cases e'
  simp only [ParseError.mk.injEq]
  exact ⟨hkind, hline⟩

/-- A text that could be the end of a message. -/
def messageEnd : String := "a', got 'b' at line 3."

/-- A declaration without a name, and with that text in its place. -/
def messageForName : List Token := [⟨.keyword, "int", 1⟩, ⟨.unknown, messageEnd, 3⟩]

/-- The same after a name and a comma. -/
def messageForNextName : List Token :=
  [⟨.keyword, "string", 9⟩, ⟨.identifier, "a", 0⟩, ⟨.punctuation, ",", 2⟩,
    ⟨.literal, messageEnd, 3⟩]

theorem message_unambiguous_messageEnd :
    (parse messageForName =
        .error ⟨.expectedToken Expectation.declarationName.text (some messageEnd), 3⟩ ∧
      parse messageForNextName =
        .error ⟨.expectedToken "identifier in variable declaration"
          (some "a', got 'b' at line 3."), 3⟩ ∧
      ParseError.message ⟨.expectedToken Expectation.declarationName.text (some messageEnd), 3⟩ =
        ParseError.message ⟨.expectedToken "identifier in variable declaration"
          (some "a', got 'b' at line 3."), 3⟩) ∧
    ParseError.mk (.expectedToken Expectation.declarationName.text (some messageEnd)) 3 =
      ⟨.expectedToken "identifier in variable declaration" (some "a', got 'b' at line 3."), 3⟩ := by
  have h : parse messageForName =
      .error ⟨.expectedToken Expectation.declarationName.text (some messageEnd), 3⟩ := rfl
  have h' : parse messageForNextName =
      .error ⟨.expectedToken "identifier in variable declaration"
        (some "a', got 'b' at line 3."), 3⟩ := rfl
  exact ⟨⟨h, h', rfl⟩, message_unambiguous messageForName messageForNextName _ _ h h' rfl⟩

/-- With a comma in the requirement two errors could have one message. -/
example : ErrorKind.message (.expectedToken "a" (some "b")) =
    ErrorKind.message (.expectedToken "a, got 'b'" none) := by decide

end StreamScript
