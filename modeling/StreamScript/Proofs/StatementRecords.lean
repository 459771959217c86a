import StreamScript.Proofs.BlockDepth
import StreamScript.Proofs.Preorder

/-! # The records of statements

A run leaves a record of each statement when it takes the statement's first token, long before the
node of the statement is made.  `State.words` are the leading words of all statements that have been
begun in a state: those of the statements that are read, as if all open blocks ended there, and that
of the statement at the point.  A step adds to them what it records (`words_of_step`), so the records
of a run tell the leading words of its program in pre-order (`trace_agrees_with_program`). -/

namespace StreamScript

variable {s s' : State} {t : Token} {ts : List Token} {log : List Record} {p : Program}
  {level more : List Node}

/-- The text in the record of a statement. -/
def Record.statementText? : Record → Option String
  | statement _ text => some text
  | _ => none

/-- The number in the record of a program. -/
def Record.parsedCount? : Record → Option Nat
  | parsed count => some count
  | _ => none

/-- The texts of the statements that are recorded. -/
def statementTexts (rs : List Record) : List String := rs.filterMap Record.statementText?

@[simp] theorem statementTexts_append (rs us : List Record) :
    statementTexts (rs ++ us) = statementTexts rs ++ statementTexts us := List.filterMap_append

/-! ### Words -/

/-- The word that begins a statement with the header. -/
def Header.word : Header → String
  | guarded guard _ => guard.word
  | forLoop .. => "for"

/-- The word that begins a statement with the slot. -/
def HeaderSlot.word : HeaderSlot → String
  | guarded guard => guard.word
  | init | condition _ | increment _ _ => "for"

/-- The word that has begun the statement at a point. -/
def Point.word? : Point → Option String
  | statement => none
  | declarationName typeName _ | declarationNext typeName _ => some typeName
  | handleName handleType | handleOpening handleType _ | handlePath handleType _
  | handleClosing handleType _ _ | handleEnd handleType _ _ => some handleType
  | callDot target | callMethod target | callOpening target _ | callClosing target _
  | callEnd target _ => some target
  | guardOpening guard => some guard.word
  | forOpening => some "for"
  | expression slot _ | expressionEnd slot _ => some slot.word
  | block header => some header.word

@[simp] theorem Point.word?_statement : Point.statement.word? = none := rfl

/-- What a move from a point does with the word of the statement: a token that begins a statement is
its word, and the other moves keep it, up to the node that is made. -/
def Move.KeepsWord (p : Point) (t : Token) : Move → Prop
  | .start next => p.word? = none ∧ next.word? = some t.text
  | .shift next | .openParen next | .closeParen next => next.word? = p.word?
  | .finish node => p.word? ≠ none ∧ node.leadingWord? = p.word? ∧ node.inner = []
  | .openBlock header => p.word? = some header.word
  | .closeBlock => p.word? = none
  | .noStatement | .refuse | .overlong => True

theorem Point.keepsWord_onMark {p : Point} {mark : String} {m : Move} (h : m.KeepsWord p t) :
    (onMark t mark m).KeepsWord p t := by
  unfold onMark
  split
  · exact h
  · trivial

theorem Point.keepsWord_onKind {p next : Point} {kind : TokenKind} (h : next.word? = p.word?) :
    (onKind t kind next).KeepsWord p t := by
  unfold onKind
  split
  · exact h
  · trivial

theorem Point.keepsWord_begin (t : Token) : (begin t).KeepsWord .statement t := by
  unfold begin
  split
  · exact ⟨rfl, rfl⟩
  · split
    · exact ⟨rfl, rfl⟩
    split
    · exact ⟨rfl, rfl⟩
    split
    · next ht => exact ⟨rfl, congrArg some ht.symm⟩
    split
    · next ht => exact ⟨rfl, congrArg some ht.symm⟩
    split
    · next ht => exact ⟨rfl, congrArg some ht.symm⟩
    · trivial
  · split
    · rfl
    · trivial
  · trivial

theorem Point.keepsWord_move (p : Point) (t : Token) : (p.move t).KeepsWord p t := by
  cases p with
  | statement => exact keepsWord_begin t
  | declarationName | handleName | handlePath | callMethod => exact keepsWord_onKind rfl
  | declarationNext =>
      rw [move]
      split
      · exact rfl
      · exact keepsWord_onMark ⟨Option.some_ne_none _, rfl, rfl⟩
  | handleOpening | handleClosing | callOpening | callClosing | guardOpening | forOpening =>
      exact keepsWord_onMark rfl
  | handleEnd | callEnd => exact keepsWord_onMark ⟨Option.some_ne_none _, rfl, rfl⟩
  | callDot =>
      rw [move]
      split
      · exact rfl
      · trivial
  | expression slot count =>
      rw [move]
      split
      · split
        · trivial
        · exact rfl
      · exact rfl
  | expressionEnd slot value => cases slot <;> exact keepsWord_onMark rfl
  | block header => exact keepsWord_onMark rfl

/-! ### Leading words -/

/-- The leading words of statements and of all that is in them, in pre-order. -/
def leadingWords (nodes : List Node) : List (Option String) :=
  (Node.listPreorder nodes).map Node.leadingWord?

@[simp] theorem leadingWords_nil : leadingWords [] = [] := rfl

@[simp] theorem leadingWords_append (nodes more : List Node) :
    leadingWords (nodes ++ more) = leadingWords nodes ++ leadingWords more := by
  simp [leadingWords]

@[simp] theorem leadingWords_header (header : Header) (body : List Node) :
    leadingWords [header.node body] = some header.word :: leadingWords body := by
  have hinner : (header.node body).inner = Node.listPreorder body := by
    rw [Node.inner_eq]
    rcases header with ⟨_ | _, condition⟩ | ⟨init, condition, increment⟩ <;> rfl
  have hword : (header.node body).leadingWord? = some header.word := by
    rcases header with ⟨_ | _, condition⟩ | ⟨init, condition, increment⟩ <;> rfl
  simp [leadingWords, hinner, hword]

/-- Statements that are added to the innermost level come after all that has been read. -/
theorem leadingWords_closeAll {words : List (Option String)}
    (h : leadingWords more.reverse = leadingWords level.reverse ++ words) (frames : List Frame) :
    leadingWords (closeAll frames more).reverse =
      leadingWords (closeAll frames level).reverse ++ words := by
  induction frames generalizing level more with
  | nil => exact h
  | cons frame frames ih =>
      refine ih ?_
      simp [h]

namespace State

/-- The leading words of all statements that have been begun. -/
def words (s : State) : List (Option String) :=
  leadingWords s.whole.reverse ++ s.point.word?.toList.map some

theorem statementTexts_closed (s : State) (bracket : Bracket) :
    statementTexts (s.closed bracket).1 = [] := by
  unfold closed
  split <;> rfl

theorem statementTexts_of_closeParen {next : Point} (h : s.point.move t = .closeParen next) :
    statementTexts (s.step t).records = [] := by
  rw [step, h]
  exact statementTexts_closed _ _

theorem statementTexts_of_closeBlock {frame : Frame} {frames : List Frame}
    (h : s.point.move t = .closeBlock) (hf : s.frames = frame :: frames) :
    statementTexts (s.step t).records = [] := by
  rw [step, h]
  simp only [apply, hf]
  exact statementTexts_closed _ _

/-- What a step records of statements are the words that it adds. -/
theorem words_of_step (h : (s.step t).result = .ok s') :
    s'.words = s.words ++ (statementTexts (s.step t).records).map some := by
  have hkeeps := s.point.keepsWord_move t
  -- a step inside a statement keeps its word and all statements before
  have hinside {next : Point} {tracker : Tracker} (hnext : next.word? = s.point.word?)
      (hrecords : statementTexts (s.step t).records = []) :
      words ⟨next, s.level, s.frames, tracker, t.line⟩ =
        s.words ++ (statementTexts (s.step t).records).map some := by
    rw [hrecords]
    simp [words, whole, hnext]
  cases takes_of_step h with
  | start hm =>
      rw [hm] at hkeeps
      obtain ⟨hnone, hnext⟩ := hkeeps
      rw [records_of_start hm]
      simp [words, whole, hnone, hnext, statementTexts, Record.statementText?]
  | shift hm =>
      rw [hm] at hkeeps
      exact hinside hkeeps (by rw [records_of_shift hm]; rfl)
  | openParen hm =>
      rw [hm] at hkeeps
      exact hinside hkeeps (by rw [records_of_openParen hm]; rfl)
  | closeParen hm =>
      rw [hm] at hkeeps
      exact hinside hkeeps (statementTexts_of_closeParen hm)
  | @finish node hm =>
      rw [hm] at hkeeps
      obtain ⟨hne, hword, hinner⟩ := hkeeps
      obtain ⟨word, hpoint⟩ := Option.ne_none_iff_exists'.1 hne
      have hnode : leadingWords (node :: s.level).reverse =
          leadingWords s.level.reverse ++ [some word] := by
        simp [leadingWords, hinner, hword, hpoint]
      rw [records_of_finish hm, words, whole, leadingWords_closeAll hnode]
      simp [words, whole, hpoint, statementTexts]
  | @openBlock header hm =>
      rw [hm] at hkeeps
      have hpoint : s.point.word? = some header.word := hkeeps
      have hnode : leadingWords (header.node [] :: s.level).reverse =
          leadingWords s.level.reverse ++ [some header.word] := by
        simp
      rw [records_of_openBlock hm, words, whole, closeAll, List.reverse_nil,
        leadingWords_closeAll hnode]
      simp [words, whole, hpoint, statementTexts, Record.statementText?]
  | closeBlock hm hf =>
      rw [hm] at hkeeps
      have hpoint : s.point.word? = none := hkeeps
      rw [statementTexts_of_closeBlock hm hf]
      simp [words, whole, closeAll, hf, hpoint]

end State

/-! ### Runs -/

theorem forall_mem_log {P : Record → Prop} (hstep : ∀ s t, ∀ r ∈ (State.step s t).records, P r)
    (ts : List Token) : ∀ r ∈ (Run.ofTokens ts).log, P r := by
  have hread (run : Run) (t : Token) (h : ∀ r ∈ run.log, P r) : ∀ r ∈ (run.read t).log, P r := by
    intro r hr
    unfold Run.read at hr
    split at hr
    · exact h r hr
    · next s _ =>
      rcases List.mem_append.1 hr with hr | hr
      · exact hstep s t r (List.mem_reverse.1 hr)
      · exact h r hr
  exact List.foldlRecOn ts Run.read (fun r hr => absurd hr List.not_mem_nil)
    fun run h t _ => hread run t h

/-- Along a reading the records of statements tell the words of the state. -/
theorem statementTexts_foldl_read (hlog : (statementTexts log.reverse).map some = s.words)
    (h : s.reads ts = .ok s') :
    (statementTexts (ts.foldl Run.read ⟨log, .ok s⟩).log.reverse).map some = s'.words := by
  induction ts generalizing s log with
  | nil =>
      cases h
      exact hlog
  | cons t ts ih =>
      obtain ⟨r, hr, hs⟩ := State.exists_step_of_reads_cons h
      have hread : Run.read ⟨log, .ok s⟩ t = ⟨(s.step t).records.reverse ++ log, .ok r⟩ :=
        congrArg (Run.mk _) hr
      rw [List.foldl_cons, hread]
      refine ih ?_ hs
      rw [State.words_of_step hr, ← hlog, List.reverse_append, List.reverse_reverse,
        statementTexts_append, List.map_append]

theorem statementTexts_ofTokens (h : State.start.reads ts = .ok s) :
    (statementTexts (Run.ofTokens ts).log.reverse).map some = s.words :=
  statementTexts_foldl_read rfl h

theorem State.parsedCount?_of_mem_step (s : State) (t : Token) :
    ∀ r ∈ (s.step t).records, r.parsedCount? = none := by
  have hclosed (s : State) (bracket : Bracket) :
      ∀ r ∈ (s.closed bracket).1, r.parsedCount? = none := by
    unfold State.closed
    split <;> simp [Record.parsedCount?]
  rw [step]
  cases s.point.move t with
  | closeParen => exact hclosed _ _
  | closeBlock =>
      simp only [apply]
      split
      · simp [Record.parsedCount?]
      · exact hclosed _ _
  | openBlock =>
      simp only [apply]
      split <;> simp [Record.parsedCount?]
  | _ => simp [apply, Record.parsedCount?]

theorem records_of_parse_eq_ok (h : parse ts = .ok p) :
    (Run.ofTokens ts).finish.records =
      (Run.ofTokens ts).log.reverse ++ [.parsed p.statements.length] := by
  have hstate : (Run.ofTokens ts).state = State.start.reads ts := Run.state_foldl_read [] _ ts
  rw [reads_of_parse_eq_ok h] at hstate
  rw [Run.finish, hstate]
  simp [State.finish, Tracker.empty, Tracker.innermost]

/-- A program that is parsed leaves the records of its statements in pre-order, each with the leading
word of the statement, and the record of their number at top level.  The summary gives this number
and that of the nested statements, and divides the first among the kinds, in the order of their
names. -/
theorem trace_agrees_with_program {source : String} (h : parseSource source = .ok p) :
    (statementTexts (trace source).records).map some = p.preorder.map Node.leadingWord? ∧
    (statementTexts (trace source).records).length = p.statements.length + p.nested ∧
    (trace source).records.filterMap Record.parsedCount? = [p.statements.length] ∧
    ∃ counts : List (String × Nat),
      p.summary = s!"{p.statements.length} statement(s), {p.nested} nested: " ++
        ", ".intercalate (counts.map fun (name, count) => s!"{count} {name}") ∧
      (counts.map Prod.snd).sum = p.statements.length ∧
      (counts.map Prod.fst).Pairwise (· < ·) ∧
      ∀ name count, (name, count) ∈ counts ↔
        0 < count ∧ p.statements.countP (·.kindName == name) = count := by
  have hrecords : (trace source).records = (tokenize source).map .token ++
      ((Run.ofTokens (tokenize source)).log.reverse ++ [.parsed p.statements.length]) :=
    congrArg _ (records_of_parse_eq_ok h)
  have htexts : (statementTexts (trace source).records).map some =
      p.preorder.map Node.leadingWord? := by
    have htokens : statementTexts ((tokenize source).map .token) = [] := by
      simp [statementTexts, Record.statementText?]
    have hparsed : statementTexts [.parsed p.statements.length] = [] := rfl
    have hlog := statementTexts_ofTokens (reads_of_parse_eq_ok h)
    rw [hrecords, statementTexts_append, statementTexts_append, htokens, hparsed,
      List.nil_append, List.append_nil, hlog]
    simp [State.words, State.whole, closeAll, leadingWords, Program.preorder]
  refine ⟨htexts, ?_, ?_, p.tally, rfl, p.sum_tally, p.pairwise_tally, fun _ _ => Program.mem_tally⟩
  · rw [← p.length_preorder, ← List.length_map some, htexts, List.length_map]
  · have hlog := forall_mem_log State.parsedCount?_of_mem_step (tokenize source)
    have hnone : (Run.ofTokens (tokenize source)).log.reverse.filterMap Record.parsedCount? = [] :=
      List.filterMap_eq_nil_iff.2 fun r hr => hlog r (List.mem_reverse.1 hr)
    have htokens : ((tokenize source).map Record.token).filterMap Record.parsedCount? = [] := by
      simp [Record.parsedCount?]
    rw [hrecords, List.filterMap_append, List.filterMap_append, hnone, htokens]
    rfl

/-- A loop with a declaration and a guarded call inside, and a second declaration after it. -/
def loopAndNames : String :=
  "while (!a) \x7b\n  int b;\n  if (c) \x7b\n    f.g();\n  \x7d\n\x7d\nstring d, e;\n"

/-- The program that it spells. -/
def loopAndNamesProgram : Program :=
  ⟨[.whileLoop (some (.unaryOperation "!" none))
      [.declaration "int" ["b"], .ifThen none [.memberCall "f" "g"]],
    .declaration "string" ["d", "e"]]⟩

/-- Five statements are recorded, of which two are at top level. -/
theorem trace_agrees_with_program_loopAndNames :
    parseSource loopAndNames = .ok loopAndNamesProgram ∧
      statementTexts (trace loopAndNames).records = ["while", "int", "if", "f", "string"] ∧
      (trace loopAndNames).records.filterMap Record.parsedCount? = [2] ∧
      loopAndNamesProgram.summary =
        "2 statement(s), 3 nested: 1 Declaration, 1 WhileLoop" := by
  have htokens : tokenize loopAndNames =
      [⟨.keyword, "while", 1⟩, ⟨.punctuation, "(", 1⟩, ⟨.operator, "!", 1⟩, ⟨.identifier, "a", 1⟩,
        ⟨.punctuation, ")", 1⟩, ⟨.punctuation, "\x7b", 1⟩, ⟨.keyword, "int", 2⟩,
        ⟨.identifier, "b", 2⟩, ⟨.punctuation, ";", 2⟩, ⟨.keyword, "if", 3⟩,
        ⟨.punctuation, "(", 3⟩, ⟨.identifier, "c", 3⟩, ⟨.punctuation, ")", 3⟩,
        ⟨.punctuation, "\x7b", 3⟩, ⟨.identifier, "f", 4⟩, ⟨.operator, ".", 4⟩,
        ⟨.identifier, "g", 4⟩, ⟨.punctuation, "(", 4⟩, ⟨.punctuation, ")", 4⟩,
        ⟨.punctuation, ";", 4⟩, ⟨.punctuation, "\x7d", 5⟩, ⟨.punctuation, "\x7d", 6⟩,
        ⟨.keyword, "string", 7⟩, ⟨.identifier, "d", 7⟩, ⟨.punctuation, ",", 7⟩,
        ⟨.identifier, "e", 7⟩, ⟨.punctuation, ";", 7⟩] := by decide +kernel
  have h : parseSource loopAndNames = .ok loopAndNamesProgram := by
    rw [parseSource, htokens]
    rfl
  obtain ⟨htexts, -, hparsed, -⟩ := trace_agrees_with_program h
  refine ⟨h, ?_, hparsed, by rfl⟩
  exact (List.map_injective_iff.2 (Option.some_injective _)) htexts

end StreamScript
