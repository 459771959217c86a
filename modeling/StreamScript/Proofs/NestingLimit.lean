import StreamScript.Proofs.Agreement

/-! # The nesting limit

The bound on the nesting is exact, and it changes nothing else: a parse that no token leads too
deep gives what the descent gives.

The descent and the reading are compared along the descent.  A reader that does not call itself is
followed token by token; for `names`, for `expression`, and for `statement`, `block` and `body`
together, the induction is on their recursion.  The depth of the tracker is the number of blocks
around the statement that is read, so no step but the two that are bounded asks for it. -/

namespace StreamScript

open State Point

variable {t : Token} {ts : List Token} {last line d : Nat} {level : List Node}
  {frames : List Frame} {tracker : Tracker}

namespace Descent

/-! ### Statements without blocks -/

theorem follows_handle {type : String} :
    (handle type).Follows ⟨.handleName type, level, frames, tracker, line⟩
      fun node line => ⟨.statement, node :: level, frames, tracker, line⟩ := by
  refine .bind (follows_ofKind nofun rfl fun _ => rfl) fun name line => ?_
  refine .bind (follows_openParen nofun rfl fun _ => rfl) fun opening line => ?_
  refine .bind (follows_ofKind nofun rfl fun _ => rfl) fun path line => ?_
  refine .bind (follows_closeParen nofun rfl fun _ => rfl) fun _ line => ?_
  refine .bind (follows_finish nofun rfl fun _ => rfl) fun _ line => ?_
  exact .pure rfl

theorem follows_call {target : String} :
    (call target).Follows ⟨.callDot target, level, frames, tracker, line⟩
      fun node line => ⟨.statement, node :: level, frames, tracker, line⟩ := by
  refine .bind (follows_one nofun rfl (fun t ht => if_neg (by simp [ht])) fun t ht =>
    result_of_shift (move_callDot ht)) fun _ line => ?_
  refine .bind (follows_ofKind nofun rfl fun _ => rfl) fun method line => ?_
  refine .bind (follows_openParen nofun rfl fun _ => rfl) fun opening line => ?_
  refine .bind (follows_closeParen nofun rfl fun _ => rfl) fun _ line => ?_
  refine .bind (follows_finish nofun rfl fun _ => rfl) fun _ line => ?_
  exact .pure rfl

theorem agrees_names {type : String} {before : List String} (hlast : lineAfter line ts = last) :
    (names last ts).Agrees
      (Reached last fun names line =>
        ⟨.statement, .declaration type (before.reverse ++ names) :: level, frames, tracker, line⟩)
      (outcome ⟨.declarationName type before, level, frames, tracker, line⟩ ts) := by
  induction ts using names.induct generalizing before line with
  | case1 ts ih =>
      rw [names]
      refine agrees_taking nofun rfl hlast (fun t ht => if_neg (by simpa using ht)) ?_
      rintro name rest h rfl hname hlast
      have hname : name.kind = .identifier := by simpa using hname
      rw [outcome_of_ok (result_of_shift (move_declarationName hname))]
      refine agrees_taking nofun rfl hlast (fun t ht => ?_) ?_
      · rw [Bool.or_eq_false_iff] at ht
        exact (if_neg (by simp [ht.1])).trans (if_neg (by simp [ht.2]))
      rintro t rest' h' rfl ht hlast
      split
      · next hcomma =>
        rw [outcome_of_ok (result_of_shift (move_declarationNext_of_comma hcomma))]
        exact (ih _ h rest' h' hlast).map_reached fun names line => by simp
      · next hcomma =>
        have hsemicolon : t.is .punctuation ";" := by simpa [hcomma] using ht
        rw [outcome_of_ok (result_of_finish (move_declarationNext_of_semicolon hsemicolon))]
        exact .pure ⟨t.line, hlast, by simp⟩

theorem follows_names {type : String} :
    Reader.Follows names ⟨.declarationName type [], level, frames, tracker, line⟩ fun names line =>
      ⟨.statement, .declaration type names :: level, frames, tracker, line⟩ :=
  fun _ _ hlast => agrees_names hlast

/-! ### Headers -/

theorem agrees_expression {slot : HeaderSlot} {count : Nat} (hcount : count ≤ maxDepth)
    (hlast : lineAfter line ts = last) :
    (expression count last ts).Agrees (fun e rest o => ∃ n, e = negations n ∧
        Reached last (fun _ line =>
          ⟨.expressionEnd slot (negations (count + n)), level, frames, tracker, line⟩) () rest o)
      (outcome ⟨.expression slot count, level, frames, tracker, line⟩ ts) := by
  induction count, ts using expression.induct generalizing line with
  | case1 count ts ih =>
      rw [expression]
      refine agrees_taking nofun rfl hlast nofun ?_
      intro t rest h hts _ hlast
      rw [hts]
      split
      · next hsign =>
        -- the descent goes on after sign 129, the reading stops there
        rcases Nat.eq_or_lt_of_le hcount with rfl | hlt
        · have hmove : move (.expression slot maxDepth) t = .overlong := by
            rw [move, if_pos hsign, if_pos rfl]
          rw [outcome_of_error (result_of_overlong hmove)]
          exact .tooDeep _ t
        · rw [outcome_of_ok (result_of_shift (move_expression_of_sign hsign hlt))]
          refine .deeper (by simpa using Nat.ne_of_lt hlt) ?_
          refine (ih rest h hlt hlast).map fun e rest o => ?_
          rintro ⟨n, rfl, line, hline, rfl⟩
          exact ⟨n + 1, rfl, line, hline, by rw [Nat.add_assoc, Nat.add_comm 1]⟩
      · next hsign =>
        rw [outcome_of_ok (result_of_shift (move_expression_of_operand hsign))]
        exact .pure ⟨0, rfl, t.line, hlast, rfl⟩

theorem follows_expression {slot : HeaderSlot} :
    Reader.Follows (expression 0) ⟨.expression slot 0, level, frames, tracker, line⟩
      fun e line => ⟨.expressionEnd slot e, level, frames, tracker, line⟩ := by
  intro last ts hlast
  refine (agrees_expression (Nat.zero_le _) hlast).mono fun e rest o => ?_
  rintro ⟨n, rfl, line, hline, rfl⟩
  exact ⟨line, hline, by rw [Nat.zero_add]⟩

theorem follows_guarded {guard : Guard} :
    (guarded guard).Follows ⟨.guardOpening guard, level, frames, tracker, line⟩
      fun condition line => ⟨.block (.guarded guard condition), level, frames, tracker, line⟩ := by
  refine .bind (follows_openParen nofun rfl fun _ => rfl) fun opening line => ?_
  refine .bind follows_expression fun condition line => ?_
  refine .bind (follows_closeParen nofun rfl fun _ => rfl) fun _ line => ?_
  exact .pure rfl

theorem follows_forLoop :
    forLoop.Follows ⟨.forOpening, level, frames, tracker, line⟩ fun parts line =>
      ⟨.block (.forLoop parts.1 parts.2.1 parts.2.2), level, frames, tracker, line⟩ := by
  refine .bind (follows_openParen nofun rfl fun _ => rfl) fun opening line => ?_
  refine .bind follows_expression fun init line => ?_
  refine .bind (follows_shift nofun rfl fun _ => rfl) fun _ line => ?_
  refine .bind follows_expression fun condition line => ?_
  refine .bind (follows_shift nofun rfl fun _ => rfl) fun _ line => ?_
  refine .bind follows_expression fun increment line => ?_
  refine .bind (follows_closeParen nofun rfl fun _ => rfl) fun _ line => ?_
  exact .pure rfl

/-- No form of statement begins with the token. -/
structure BeginsNone (t : Token) : Prop where
  not_call : t.kind ≠ .identifier
  not_declaration : ¬ (t.kind = .keyword ∧ t.text ∈ declarationTypes)
  not_handle : ¬ (t.kind = .keyword ∧ t.text ∈ handleTypes)
  not_if : ¬ t.is .keyword "if"
  not_while : ¬ t.is .keyword "while"
  not_for : ¬ t.is .keyword "for"

theorem BeginsNone.move (h : BeginsNone t) :
    move .statement t = .noStatement ∨ t.closes .brace ∧ move .statement t = .closeBlock := by
  by_cases hclose : t.closes .brace
  · exact .inr ⟨hclose, move_of_closing hclose⟩
  · left
    obtain ⟨hid, hdecl, hhandle, hif, hwhile, hfor⟩ := h
    rw [Token.closes_iff] at hclose
    rw [Token.is_iff] at hif hwhile hfor
    rcases t with ⟨kind, text, line⟩
    cases kind with
    | keyword => simp_all [move, begin]
    | punctuation => simp_all [move, begin]
    | identifier => exact absurd rfl hid
    | literal => rfl
    | operator => rfl
    | unknown => rfl

/-! ### Statements -/

/-- The descent agrees with the reading on a statement that begins with `t` inside `d` blocks. -/
def StatementAgrees (last d : Nat) (t : Token) (ts : List Token) : Prop :=
  ∀ level frames tracker line, tracker.depth = d → d ≤ maxDepth →
    (t.closes .brace → frames = []) → lineAfter t.line ts = last →
    (statement last d t ts).Agrees
      (Reached last fun node line => ⟨.statement, node :: level, frames, tracker, line⟩)
      (outcome ⟨.statement, level, frames, tracker, line⟩ (t :: ts))

/-- The descent agrees with the reading on a block after its header, inside `d` blocks. -/
def BlockAgrees (last d : Nat) (e : Expectation) (ts : List Token) : Prop :=
  ∀ header level frames tracker line, (Point.block header).expectation = e → tracker.depth = d →
    d ≤ maxDepth → lineAfter line ts = last →
    (block last d e ts).Agrees
      (Reached last fun nodes line =>
        ⟨.statement, header.node nodes :: level, frames, tracker, line⟩)
      (outcome ⟨.block header, level, frames, tracker, line⟩ ts)

/-- The descent agrees with the reading on the rest of a block, the innermost of `d`. -/
def BodyAgrees (last d : Nat) (opening : Token) (ts : List Token) : Prop :=
  ∀ header level before frames tracker line, tracker.depth + 1 = d → d ≤ maxDepth →
    lineAfter line ts = last →
    (body last d opening ts).Agrees
      (Reached last fun nodes line =>
        ⟨.statement, header.node (level.reverse ++ nodes) :: before, frames, tracker, line⟩)
      (outcome ⟨.statement, level, ⟨header, before⟩ :: frames,
        tracker.push .brace opening.line, line⟩ ts)

/-- A statement with a block: `g` gives the header of the reading, and the node is made of it. -/
theorem StatementAgrees.of_block {α : Type} {p : Point} {f : Reader α} {e : Expectation}
    {g : α → Header} (hmove : move .statement t = .start p)
    (hf : ∀ {level frames tracker line}, f.Follows ⟨p, level, frames, tracker, line⟩
      fun a line => ⟨.block (g a), level, frames, tracker, line⟩)
    (he : ∀ a, (Point.block (g a)).expectation = e)
    (hstatement : statement last d t ts =
      (f last ts).bind fun a rest _ => (block last d e rest).map fun nodes => (g a).node nodes)
    (hblock : ∀ rest : List Token, rest.length ≤ ts.length → BlockAgrees last d e rest) :
    StatementAgrees last d t ts := by
  intro level frames tracker line hdepth hd _ hlast
  rw [outcome_of_ok (result_of_start hmove), hstatement]
  refine (hf last ts hlast).bind_reached fun a rest hrest line hlast => ?_
  have hblock := hblock rest hrest (g a) level frames tracker line (he a) hdepth hd hlast
  exact hblock.map_reached fun _ _ => rfl

theorem StatementAgrees.of_beginsNone (h : BeginsNone t) : StatementAgrees last d t ts := by
  intro level frames tracker line _ _ hclose _
  have hresult : (step ⟨.statement, level, frames, tracker, line⟩ t).result =
      .error ⟨.unexpectedToken t.text, t.line⟩ := by
    rcases h.move with hmove | ⟨hc, hmove⟩
    · exact result_of_noStatement hmove
    · exact result_of_closeBlock_of_nil hmove (hclose hc)
  rw [outcome_of_error hresult, statement, if_neg h.not_call, if_neg h.not_declaration,
    if_neg h.not_handle, if_neg h.not_if, if_neg h.not_while, if_neg h.not_for]
  exact .fail nofun

theorem BlockAgrees.of_body {e : Expectation}
    (hbody : ∀ opening (rest : List Token), rest.length < ts.length →
      BodyAgrees last (d + 1) opening rest) : BlockAgrees last d e ts := by
  intro header level frames tracker line he hdepth hd hlast
  rw [block]
  refine agrees_taking nofun he hlast (fun t ht => if_neg (by simp [ht])) ?_
  rintro opening rest hrest rfl hopening hlast
  have hmove : move (.block header) opening = .openBlock header := move_block hopening
  -- no bracket but those of blocks is open here, so the tracker is full exactly at block 129
  rcases Nat.eq_or_lt_of_le hd with rfl | hlt
  · have hstep := result_of_openBlock_of_le (s := ⟨.block header, level, frames, tracker, line⟩)
      hmove (Nat.le_of_eq hdepth.symm)
    rw [outcome_of_error hstep]
    exact .tooDeep _ opening
  · have hstep := result_of_openBlock (s := ⟨.block header, level, frames, tracker, line⟩)
      hmove (hdepth ▸ hlt)
    rw [outcome_of_ok hstep]
    refine .deeper (by simpa using Nat.ne_of_lt hlt) ?_
    exact hbody opening rest hrest header [] level frames tracker opening.line
      (congrArg Nat.succ hdepth) hlt hlast

/-- The tokens end inside a block, and its bracket is to blame. -/
theorem BodyAgrees.nil {opening : Token} : BodyAgrees last d opening [] := by
  intro header level before frames tracker line _ _ _
  have hfinish := finish_of_innermost (s := ⟨.statement, level, ⟨header, before⟩ :: frames,
    tracker.push .brace opening.line, line⟩) rfl (tracker.innermost_push .brace opening.line)
  rw [outcome, reads_nil, body]
  simp only [hfinish]
  exact .fail nofun

theorem BodyAgrees.cons {opening : Token} (hhead : StatementAgrees last d t ts)
    (htail : ∀ rest, rest.length ≤ ts.length → BodyAgrees last d opening rest) :
    BodyAgrees last d opening (t :: ts) := by
  intro header level before frames tracker line hdepth hd hlast
  rw [body]
  refine .within _ ?_
  split
  · next hclose =>
    have hstep := result_of_closeBlock (s := ⟨.statement, level, ⟨header, before⟩ :: frames,
      tracker.push .brace opening.line, line⟩) (move_of_closing hclose) rfl
    rw [Tracker.pop_push] at hstep
    rw [outcome_of_ok hstep]
    exact .pure ⟨t.line, hlast, by simp⟩
  · next hclose =>
    have hhead := hhead level (⟨header, before⟩ :: frames) (tracker.push .brace opening.line) line
      hdepth hd (fun h => absurd h hclose) hlast
    refine hhead.bind_reached fun node rest hrest line hlast => ?_
    have htail := htail rest hrest header (node :: level) before frames tracker line hdepth hd hlast
    exact htail.map_reached fun nodes line => by simp

theorem statementAgrees (last d : Nat) (t : Token) (ts : List Token) :
    StatementAgrees last d t ts := by
  refine (statement.mutual_induct (StatementAgrees last) (BlockAgrees last) (BodyAgrees last)
    ?call ?declaration ?handle ?ifThen ?whileLoop ?forLoop ?none ?block ?nil ?cons).1 d t ts
  case call =>
    intro d t ts hid level frames tracker line _ _ _ hlast
    rw [outcome_of_ok (result_of_start (move_of_identifier hid)), statement, if_pos hid]
    exact follows_call last ts hlast
  case declaration =>
    intro d t ts hid hdecl level frames tracker line _ _ _ hlast
    rw [outcome_of_ok (result_of_start (move_of_declarationType hdecl.1 hdecl.2)), statement,
      if_neg hid, if_pos hdecl]
    exact (follows_names last ts hlast).map_reached fun _ _ => rfl
  case handle =>
    intro d t ts hid hdecl hhandle level frames tracker line _ _ _ hlast
    rw [outcome_of_ok (result_of_start (move_of_handleType hhandle.1 hhandle.2)), statement,
      if_neg hid, if_neg hdecl, if_pos hhandle]
    exact follows_handle last ts hlast
  case ifThen =>
    intro d t ts hid hdecl hhandle hif hblock
    have hmove : move .statement t = .start (.guardOpening .ifThen) := move_of_guard hif
    refine .of_block hmove follows_guarded (fun _ => rfl) ?_ hblock
    rw [statement, if_neg hid, if_neg hdecl, if_neg hhandle, if_pos hif]
    rfl
  case whileLoop =>
    intro d t ts hid hdecl hhandle hif hwhile hblock
    have hmove : move .statement t = .start (.guardOpening .whileLoop) := move_of_guard hwhile
    refine .of_block hmove follows_guarded (fun _ => rfl) ?_ hblock
    rw [statement, if_neg hid, if_neg hdecl, if_neg hhandle, if_neg hif, if_pos hwhile]
    rfl
  case forLoop =>
    intro d t ts hid hdecl hhandle hif hwhile hfor hblock
    refine .of_block (move_of_for hfor) follows_forLoop (fun _ => rfl) ?_ hblock
    rw [statement, if_neg hid, if_neg hdecl, if_neg hhandle, if_neg hif, if_neg hwhile, if_pos hfor]
    rfl
  case none =>
    intro d t ts hid hdecl hhandle hif hwhile hfor
    exact .of_beginsNone ⟨hid, hdecl, hhandle, hif, hwhile, hfor⟩
  case block =>
    intro d e ts hbody
    exact .of_body hbody
  case nil => exact fun d opening => .nil
  case cons =>
    intro d opening t ts hhead htail
    exact .cons hhead htail

/-! ### Programs -/

theorem agrees_statements (hlast : lineAfter line ts = last) :
    (statements last ts).Agrees (fun nodes _ o => o = .ok ⟨level.reverse ++ nodes⟩)
      (outcome ⟨.statement, level, [], .empty, line⟩ ts) := by
  induction ts using statements.induct generalizing level line with
  | case1 =>
      have hfinish := finish_of_innermost_none (s := ⟨.statement, level, [], .empty, line⟩) rfl rfl
      rw [statements, outcome, reads_nil]
      refine .pure ?_
      rw [List.append_nil]
      exact hfinish
  | case2 t ts ih =>
      rw [statements]
      refine .within _ ?_
      have hhead := statementAgrees last 0 t ts level [] .empty line rfl (Nat.zero_le _)
        (fun _ => rfl) hlast
      refine hhead.bind_reached fun node rest hrest line hlast => ?_
      refine (ih rest hrest hlast).map fun nodes rest o ho => ?_
      rw [ho, List.reverse_cons, List.append_assoc]
      rfl

theorem agrees_program (ts : List Token) :
    (program ts).Agrees (fun p _ o => o = .ok p) (StreamScript.parse ts) := by
  have hparse : StreamScript.parse ts = State.start.outcome ts := parse_eq ts
  rw [hparse]
  exact (agrees_statements rfl).map fun nodes rest o ho => ho

end Descent

/-- A parse that is not stopped by the nesting gives what the descent gives, be it a program or an
error.  It is stopped exactly where the descent takes a bracket that opens block 129 or the sign
`!` with number 129 of an expression, and blames the line of the first such token. -/
theorem parse_eq_descent (ts : List Token) :
    ((∀ limit line, parse ts ≠ .error ⟨.nestingTooDeep limit, line⟩) →
      parse ts = Descent.parse ts) ∧
    ∀ limit line, parse ts = .error ⟨.nestingTooDeep limit, line⟩ ↔
      limit = 128 ∧ ∃ n, (Descent.nestings ts).find? (·.level = 129) = some n ∧
        line = n.token.line := by
  have h := Descent.agrees_program ts
  unfold Found.Agrees at h
  cases hn : (Descent.nestings ts).find? (·.level = 129) with
  | some n =>
      have hfound : (Descent.program ts).nestings.find? (·.level = maxDepth + 1) = some n := hn
      rw [hfound] at h
      refine ⟨fun hnot => absurd h (hnot _ _), fun limit line => ⟨fun heq => ?_, ?_⟩⟩
      · cases h.symm.trans heq
        exact ⟨rfl, n, rfl, rfl⟩
      · rintro ⟨rfl, m, hm, rfl⟩
        cases hm
        exact h
  | none =>
      have hfound : (Descent.program ts).nestings.find? (·.level = maxDepth + 1) = none := hn
      rw [hfound] at h
      have hboth : parse ts = Descent.parse ts ∧
          ∀ limit line, parse ts ≠ .error ⟨.nestingTooDeep limit, line⟩ := by
        unfold Descent.parse
        cases hr : (Descent.program ts).result with
        | error e =>
            rw [hr] at h
            refine ⟨h.1, fun limit line heq => ?_⟩
            cases h.1.symm.trans heq
            exact h.2 limit rfl
        | ok found =>
            rw [hr] at h
            refine ⟨h, fun limit line heq => ?_⟩
            cases h.symm.trans heq
      refine ⟨fun _ => hboth.1, fun limit line => ⟨fun heq => absurd heq (hboth.2 limit line), ?_⟩⟩
      rintro ⟨-, m, hm, -⟩
      cases hm

/-- One sign too many stops a parse at its line; a header that ends too soon does not. -/
theorem parse_eq_descent_signs :
    parse (⟨.keyword, "if", 1⟩ :: ⟨.punctuation, "(", 1⟩ ::
        List.replicate 129 ⟨.operator, "!", 2⟩) = .error ⟨.nestingTooDeep 128, 2⟩ ∧
      parse [⟨.keyword, "if", 1⟩, ⟨.punctuation, "(", 1⟩] =
        Descent.parse [⟨.keyword, "if", 1⟩, ⟨.punctuation, "(", 1⟩] := by
  refine ⟨((parse_eq_descent _).2 128 2).2 ⟨rfl, ⟨129, ⟨.operator, "!", 2⟩⟩, ?_, rfl⟩,
    (parse_eq_descent _).1 fun limit line h => ?_⟩
  · decide +kernel
  · cases h

end StreamScript
