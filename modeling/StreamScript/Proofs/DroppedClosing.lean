import StreamScript.Proofs.BlockDepth
import StreamScript.Proofs.Concatenation
import StreamScript.Proofs.Unclosed

/-! # A closing bracket that is missing

If one of the brackets that close the blocks of a program is left out, then every later bracket
closes the block inside the one that it closed before, and the statements between them stand one
block deeper.  `State.Deeper` relates the two readings: in the second one more block is open,
outside of all others.  A step keeps this as long as there is room (`Deeper.step`), and so a reading
does (`Deeper.reads`).

In the end the additional block is the only one that is open.  It is the block of the statement of
the outermost level in which the bracket stood (`parse_of_dropped_closing`). -/

namespace StreamScript

variable {s s' r : State} {t : Token} {ts us vs : List Token} {line : Nat}

/-! ### One block more -/

/-- The second state is at the same point inside one more block, which is around all others and was
opened on the line. -/
structure State.Deeper (line : Nat) (s s' : State) : Prop where
  point : s'.point = s.point
  frames : s'.frames.length = s.frames.length + 1
  tracker : ∃ inner, s.tracker.openers = inner.map Prod.fst ∧
    s'.tracker = .ofEntries (inner ++ [(.brace, line)])

theorem Split.Reaches.openers_eq {x : Split} (h : x.Reaches s) :
    s.tracker.openers =
      (x.opening.map fun _ => .paren).toList ++ List.replicate s.frames.length .brace := by
  rw [h.tracker, Split.entries, ← h.opened.length_eq]
  cases x.opening <;> simp [Tracker.ofEntries, braceEntries, Function.comp_def, List.map_const']

theorem openers_pop {tracker : Tracker} {bracket : Bracket} {openers : List Bracket}
    (h : tracker.openers = bracket :: openers) : (tracker.pop bracket).2.openers = openers := by
  obtain ⟨_, lines⟩ := tracker
  simp only at h
  subst h
  cases lines <;> simp [Tracker.pop]

theorem exists_inner_pop {tracker tracker' : Tracker} {bracket : Bracket} {openers : List Bracket}
    (h : ∃ inner, tracker.openers = inner.map Prod.fst ∧
      tracker' = .ofEntries (inner ++ [(.brace, line)]))
    (hb : tracker.openers = bracket :: openers) :
    ∃ inner, (tracker.pop bracket).2.openers = inner.map Prod.fst ∧
      (tracker'.pop bracket).2 = .ofEntries (inner ++ [(.brace, line)]) := by
  obtain ⟨inner, hopeners, rfl⟩ := h
  rw [hb] at hopeners
  cases inner with
  | nil => cases hopeners
  | cons entry inner =>
      obtain ⟨hbracket, htail⟩ := List.cons.inj hopeners
      obtain ⟨_, l⟩ := entry
      simp only at hbracket
      subst hbracket
      refine ⟨inner, ?_, ?_⟩
      · rw [openers_pop hb, htail]
      · rw [List.cons_append, Tracker.pop_ofEntries_cons]

namespace State

/-- A step does the same inside one more block, if that leaves room for the blocks it opens. -/
theorem Deeper.step {x : Split} (h : Deeper line s s') (hx : x.Reaches s)
    (hr : (s.step t).result = .ok r) (hd : r.frames.length < maxDepth) :
    ∃ r', (s'.step t).result = .ok r' ∧ Deeper line r r' := by
  obtain ⟨hpoint, hframes, htracker⟩ := h
  have hextends := hx.begun.extends t
  cases takes_of_step hr with
  | start hm => exact ⟨_, result_of_start (hpoint ▸ hm), rfl, hframes, htracker⟩
  | shift hm => exact ⟨_, result_of_shift (hpoint ▸ hm), rfl, hframes, htracker⟩
  | finish hm => exact ⟨_, result_of_finish (hpoint ▸ hm), rfl, hframes, htracker⟩
  | openParen hm =>
      obtain ⟨inner, hopeners, hentries⟩ := htracker
      refine ⟨_, result_of_openParen (hpoint ▸ hm), rfl, hframes, (.paren, t.line) :: inner, ?_, ?_⟩
      · exact congrArg (List.cons Bracket.paren) hopeners
      · rw [hentries]
        rfl
  | closeParen hm =>
      rw [hm] at hextends
      obtain ⟨⟨o, ho⟩, -⟩ := hextends
      have hopeners := hx.openers_eq
      rw [ho] at hopeners
      exact ⟨_, result_of_closeParen (hpoint ▸ hm), rfl, hframes,
        exists_inner_pop htracker hopeners⟩
  | openBlock hm _ =>
      rw [hm] at hextends
      obtain ⟨ho, -, -⟩ := hextends
      obtain ⟨inner, hopeners, hentries⟩ := htracker
      have hdepth : s'.tracker.depth < maxDepth := by
        have hlength := congrArg List.length hx.openers_eq
        rw [hopeners, ho, List.length_map] at hlength
        rw [hentries, Tracker.depth_ofEntries, List.length_append, hlength]
        simpa using hd
      refine ⟨_, result_of_openBlock (hpoint ▸ hm) hdepth, rfl, ?_, (.brace, t.line) :: inner, ?_,
        ?_⟩
      · exact congrArg Nat.succ hframes
      · exact congrArg (List.cons Bracket.brace) hopeners
      · rw [hentries]
        rfl
  | @closeBlock frame frames hm hf =>
      rw [hm] at hextends
      obtain ⟨-, ho, -⟩ := hextends
      have hopeners := hx.openers_eq
      rw [hf, List.length_cons] at hframes
      rw [ho, hf] at hopeners
      obtain ⟨frame', frames', hf'⟩ := List.exists_cons_of_length_eq_add_one hframes
      rw [hf', List.length_cons, Nat.add_left_inj] at hframes
      exact ⟨_, result_of_closeBlock (hpoint ▸ hm) hf', rfl, hframes,
        exists_inner_pop htracker hopeners⟩

theorem Deeper.reads {x : Split} (h : Deeper line s s') (hx : x.Reaches s)
    (hr : s.reads us = .ok r) (hd : Node.listDepth r.whole < maxDepth) :
    ∃ r', s'.reads us = .ok r' ∧ Deeper line r r' := by
  induction us generalizing x s s' with
  | nil =>
      cases hr
      exact ⟨s', rfl, h⟩
  | cons t us ih =>
      obtain ⟨q, hq, hr⟩ := exists_step_of_reads_cons hr
      have hroom : q.frames.length < maxDepth := by
        have hmono := depth_whole_le_of_reads hr
        have hframes := q.length_frames_le
        omega
      obtain ⟨q', hq', hdeeper⟩ := h.step hx hq hroom
      obtain ⟨y, -, hy⟩ := hx.step hq
      obtain ⟨r', hr', hdeeper'⟩ := ih hdeeper hy hr
      exact ⟨r', by rw [reads_cons_of_ok hq', hr'], hdeeper'⟩

theorem Deeper.finish_eq (h : Deeper line s s') (hp : s.point = .statement)
    (he : s.tracker = .empty) : s'.finish.result = .error ⟨.mismatchedBracket .brace, line⟩ := by
  obtain ⟨hpoint, -, inner, hopeners, hentries⟩ := h
  rw [he] at hopeners
  have hinner : inner = [] := List.map_eq_nil_iff.1 hopeners.symm
  rw [hinner] at hentries
  refine finish_of_innermost (hpoint.trans hp) ?_
  rw [hentries]
  rfl

theorem deeper_of_closing {x : Split} {inner : List (Bracket × Nat)} (hx : x.Reaches s)
    (hp : s.point = .statement) (ht : t.closes .brace) (hr : (s.step t).result = .ok r)
    (hentries : s.tracker = .ofEntries (inner ++ [(.brace, line)])) : Deeper line r s := by
  have hm : s.point.move t = .closeBlock := by rw [hp, Point.move_of_closing ht]
  cases hf : s.frames with
  | nil =>
      rw [result_of_closeBlock_of_nil hm hf] at hr
      cases hr
  | cons frame frames =>
      rw [result_of_closeBlock hm hf] at hr
      cases hr
      -- all open brackets are of one kind, so it does not matter which of them is taken off
      have hopeners := hx.openers_eq
      rw [(hx.current_of_statement hp).2, hf] at hopeners
      have hinner : inner.map Prod.fst ++ [.brace] =
          List.replicate frames.length .brace ++ [.brace] := by
        rw [hentries] at hopeners
        rw [← List.replicate_succ', ← List.length_cons (a := frame)]
        simpa [Tracker.ofEntries] using hopeners
      refine ⟨hp, by rw [hf]; rfl, inner, ?_, hentries⟩
      rw [List.append_cancel_right hinner]
      exact openers_pop hopeners

end State

/-! ### The statement in which the bracket stood -/

/-- A program with one of its statements singled out, one with a block. -/
structure TopLevelBlock where
  /-- The statements before it. -/
  before : List Token
  earlier : List Node
  /-- What stands before the block. -/
  head : List Token
  header : Header
  opening : Token
  /-- The statements of the block. -/
  inside : List Token
  body : List Node
  closing : Token
  /-- The statements after it. -/
  after : List Token
  later : List Node
  spells_before : Spells 0 before earlier
  spells_head : SpellsHeader head header
  opening_is : opening.opens .brace
  spells_inside : Spells 1 inside body
  closing_is : closing.closes .brace
  spells_after : Spells 0 after later

namespace TopLevelBlock

/-- The tokens of the statement. -/
def statement (x : TopLevelBlock) : List Token := x.head ++ x.opening :: x.inside ++ [x.closing]

/-- The tokens of the program. -/
def tokens (x : TopLevelBlock) : List Token := x.before ++ x.statement ++ x.after

/-- Whether the place is one in the statement. -/
def Covers (x : TopLevelBlock) (n : Nat) : Prop :=
  x.before.length ≤ n ∧ n < x.before.length + x.statement.length

theorem length_statement (x : TopLevelBlock) :
    x.statement.length = x.head.length + x.inside.length + 2 := by
  simp only [statement, List.length_append, List.length_cons, List.length_nil]
  omega

theorem spells_statement (x : TopLevelBlock) : Spells 0 x.statement [x.header.node x.body] :=
  .of_block x.spells_head x.opening_is (by decide) x.spells_inside x.closing_is

/-- The same statement after more statements. -/
def append (x : TopLevelBlock) {nodes : List Node} (h : Spells 0 ts nodes) : TopLevelBlock :=
  { x with
    before := ts ++ x.before
    earlier := nodes ++ x.earlier
    spells_before := h.append x.spells_before }

theorem tokens_append (x : TopLevelBlock) {nodes : List Node} (h : Spells 0 ts nodes) :
    (x.append h).tokens = ts ++ x.tokens := by
  simp [append, tokens, statement]

theorem Covers.append {x : TopLevelBlock} {n : Nat} (hx : x.Covers n) {nodes : List Node}
    (h : Spells 0 ts nodes) : (x.append h).Covers (ts.length + n) := by
  obtain ⟨hle, hlt⟩ := hx
  constructor
  · rw [TopLevelBlock.append, List.length_append]
    omega
  · show ts.length + n < (ts ++ x.before).length + x.statement.length
    rw [List.length_append]
    omega

end TopLevelBlock

theorem SpellsNames.not_closing {names : List String} (h : SpellsNames ts names) :
    ∀ t ∈ ts, ¬ t.closes .brace := by
  induction h with
  | single hn => simp_all
  | cons hn hc _ ih => simp_all

theorem SpellsSimple.not_closing {node : Node} (h : SpellsSimple ts node) :
    ∀ t ∈ ts, ¬ t.closes .brace := by
  cases h with
  | declaration hk _ hn hs =>
      rw [List.forall_mem_append, List.forall_mem_cons]
      exact ⟨⟨by simp [hk], hn.not_closing⟩, by simp_all⟩
  | handle => simp_all
  | call => simp_all

/-- Every closing bracket that is not an operand belongs to a statement with a block. -/
theorem exists_covers {n : Nat} {nodes : List Node} (h : Spells 0 ts nodes) (hn : ts[n]? = some t)
    (ht : t.closes .brace) : ∃ x : TopLevelBlock, x.tokens = ts ∧ x.Covers n := by
  generalize hd : 0 = d at h
  induction h generalizing n with
  | nil => cases hn
  | @simple d ts us node nodes hs _ ih =>
      subst hd
      rcases Nat.lt_or_ge n ts.length with hlt | hge
      · rw [List.getElem?_append_left hlt] at hn
        exact absurd ht (hs.not_closing t (List.mem_of_getElem? hn))
      · rw [List.getElem?_append_right hge] at hn
        obtain ⟨x, rfl, hx⟩ := ih hn rfl
        have hcovers := hx.append (Spells.of_simple hs)
        rw [Nat.add_sub_cancel' hge] at hcovers
        exact ⟨_, x.tokens_append _, hcovers⟩
  | @block d ts us vs opening closing header body nodes hh ho _ hb hc hrest _ ih =>
      subst hd
      let x : TopLevelBlock :=
        ⟨[], [], ts, header, opening, us, body, closing, vs, nodes, .nil, hh, ho, hb, hc, hrest⟩
      rw [List.append_cons] at hn ⊢
      rcases Nat.lt_or_ge n x.statement.length with hlt | hge
      · exact ⟨x, rfl, Nat.zero_le n, by simpa [x] using hlt⟩
      · replace hn : (x.statement ++ vs)[n]? = some t := hn
        rw [List.getElem?_append_right hge] at hn
        obtain ⟨y, rfl, hy⟩ := ih hn rfl
        have hcovers := hy.append x.spells_statement
        rw [Nat.add_sub_cancel' hge] at hcovers
        exact ⟨_, y.tokens_append _, hcovers⟩

/-! ### Heads of blocks -/

/-- A statement that has been read and a block that is open leave something behind. -/
theorem empty_of_step (h : (s.step t).result = .ok s') (hl : s'.level = []) (hf : s'.frames = []) :
    s.level = [] ∧ s.frames = [] := by
  cases State.takes_of_step h with
  | finish => cases hl
  | openBlock => cases hf
  | closeBlock => cases hl
  | _ => exact ⟨hl, hf⟩

theorem empty_of_reads (h : s.reads ts = .ok s') (hl : s'.level = []) (hf : s'.frames = []) :
    s.level = [] ∧ s.frames = [] := by
  induction ts generalizing s with
  | nil =>
      cases h
      exact ⟨hl, hf⟩
  | cons t ts ih =>
      obtain ⟨r, hr, hs⟩ := State.exists_step_of_reads_cons h
      obtain ⟨hl', hf'⟩ := ih hs
      exact empty_of_step hr hl' hf'

theorem SpellsHeader.not_unclosed {header : Header} (h : SpellsHeader (ts ++ us) header) :
    ¬ Unclosed ts := by
  intro hu
  obtain ⟨s, hs, -, hf⟩ := hu.exists_reads
  have hread : State.start.reads (ts ++ us) =
      .ok ⟨.block header, [], [], .empty, lineAfter 1 (ts ++ us)⟩ := h.reads
  rw [State.reads_append_of_ok hs] at hread
  exact hf (empty_of_reads hread rfl rfl).2

/-! ### The missing bracket -/

section

variable {a b : List Token} {p : Program}

theorem TopLevelBlock.exists_inside {x : TopLevelBlock}
    (htokens : a ++ t :: b = x.statement ++ x.after) (hlt : a.length < x.statement.length)
    (ha : Unclosed a) : ∃ us vs, a = x.head ++ x.opening :: us ∧ x.inside = us ++ vs := by
  have hhead := x.spells_head
  rw [length_statement] at hlt
  rw [statement, List.append_assoc, List.append_assoc, List.cons_append, List.singleton_append]
    at htokens
  rcases List.append_eq_append_iff.1 htokens with ⟨cs, hcs, -⟩ | ⟨cs, rfl, hrest⟩
  · rw [hcs] at hhead
    exact absurd ha hhead.not_unclosed
  cases cs with
  | nil =>
      rw [← List.append_nil x.head] at hhead
      rw [List.append_nil] at ha
      exact absurd ha hhead.not_unclosed
  | cons opening us =>
      obtain ⟨rfl, hinside⟩ := List.cons.inj hrest
      have hlength : us.length ≤ x.inside.length := by
        rw [List.length_append, List.length_cons] at hlt
        omega
      have hprefix : us <+: x.inside :=
        List.prefix_of_prefix_length_le ⟨t :: b, hinside.symm⟩ (List.prefix_append _ _) hlength
      obtain ⟨vs, hvs⟩ := hprefix
      exact ⟨us, vs, rfl, hvs.symm⟩

theorem TopLevelBlock.exists_reads (x : TopLevelBlock) (hinside : x.inside = us ++ vs)
    (hd : Node.listDepth x.body < maxDepth) :
    ∃ s inner, State.start.reads (x.head ++ x.opening :: us) = .ok s ∧
      s.tracker = .ofEntries (inner ++ [(.brace, x.opening.line)]) := by
  -- the statements inside are a program by themselves, and so they are read in the block too
  have hbody := parse_of_spells (x.spells_inside.mono (Nat.zero_le 1))
  rw [hinside] at hbody
  obtain ⟨r, hr, -⟩ := State.exists_reads_of_append (reads_of_parse_eq_ok hbody)
  have hroom : Node.listDepth r.whole < maxDepth := Nat.lt_of_le_of_lt (depth_whole_le hbody hr) hd
  let inBlock : State :=
    ⟨.statement, [], [⟨x.header, []⟩], Tracker.empty.push .brace x.opening.line, x.opening.line⟩
  have hdeeper : State.Deeper x.opening.line .start inBlock := ⟨rfl, rfl, [], rfl, rfl⟩
  obtain ⟨s, hs, -, -, inner, -, hentries⟩ := hdeeper.reads Split.reaches_start hr hroom
  refine ⟨s, inner, ?_, hentries⟩
  have hhead : State.start.reads x.head =
      .ok ⟨.block x.header, [], [], .empty, lineAfter 1 x.head⟩ := x.spells_head.reads
  rw [State.reads_append_of_ok hhead, reads_openBlock _ (Point.move_block x.opening_is) (by decide)]
  exact hs

/-- If the statement is the first of the program, then the tokens without the bracket are read
inside one more block from there on. -/
theorem TopLevelBlock.parse_of_first {x : TopLevelBlock}
    (htokens : a ++ t :: b = x.statement ++ x.after) (hlt : a.length < x.statement.length)
    (h : parse (a ++ t :: b) = .ok p) (ht : t.closes .brace) (ha : Unclosed a)
    (hd : p.blockDepth < maxDepth) :
    parse (a ++ b) = .error ⟨.mismatchedBracket .brace, x.opening.line⟩ := by
  obtain ⟨us, vs, rfl, hinside⟩ := exists_inside htokens hlt ha
  have hbody : Node.listDepth x.body < maxDepth := by
    have hspells := x.spells_statement.append x.spells_after
    rw [← htokens] at hspells
    have hnodes := (spells_of_parse_eq_ok h).unique hspells
    rw [Program.blockDepth, hnodes, List.singleton_append, Node.listDepth_cons,
      Header.blockDepth_node] at hd
    omega
  obtain ⟨s, inner, hs, hentries⟩ := x.exists_reads hinside hbody
  have hread := reads_of_parse_eq_ok h
  rw [State.reads_append_of_ok hs] at hread
  obtain ⟨r, hr, hrest⟩ := State.exists_step_of_reads_cons hread
  obtain ⟨y, -, hy⟩ := exists_split_of_reads hs
  obtain ⟨z, -, hz⟩ := hy.step hr
  have hp : s.point = .statement := ((unclosed_iff hs).1 ha).1
  have hdeeper := State.deeper_of_closing hy hp ht hr hentries
  obtain ⟨s', hs', hend⟩ := hdeeper.reads hz hrest (by
    rw [State.whole, closeAll, Node.listDepth_reverse]
    exact hd)
  rw [parse_of_reads_ok ((State.reads_append_of_ok hs b).trans hs')]
  exact hend.finish_eq rfl rfl

theorem exists_parse_of_append {q : Program} (ha : parse a = .ok p) (h : parse (a ++ b) = .ok q) :
    ∃ r, parse b = .ok r ∧ q.statements = p.statements ++ r.statements := by
  rw [parse_append ha] at h
  cases hb : parse b with
  | error e =>
      rw [hb] at h
      cases h
  | ok r =>
      rw [hb] at h
      cases h
      exact ⟨r, rfl, rfl⟩

theorem Unclosed.of_append (ha : parse a = .ok p) (h : Unclosed (a ++ b)) : Unclosed b := by
  obtain ⟨bracket, line, h⟩ := h
  rw [parse_append ha] at h
  cases hb : parse b with
  | ok r =>
      rw [hb] at h
      cases h
  | error e =>
      rw [hb] at h
      cases h
      exact ⟨bracket, line, hb⟩

/-- If a bracket that closes a block is left out of a program whose blocks nest at most 127 deep,
then one block is open at the end, and the bracket that is blamed is the opening bracket of the
outermost statement around the one that was left out. -/
theorem parse_of_dropped_closing (a b : List Token) (t : Token) (p : Program)
    (h : parse (a ++ t :: b) = .ok p) (ht : t.closes .brace) (ha : Unclosed a)
    (hd : p.blockDepth ≤ 127) :
    (∃ x : TopLevelBlock, x.tokens = a ++ t :: b ∧ x.Covers a.length) ∧
      ∀ x : TopLevelBlock, x.tokens = a ++ t :: b → x.Covers a.length →
        parse (a ++ b) = .error ⟨.mismatchedBracket .brace, x.opening.line⟩ := by
  constructor
  · exact exists_covers (spells_of_parse_eq_ok h) (by simp) ht
  · intro x htokens hx
    obtain ⟨hle, hlt⟩ := hx
    rw [TopLevelBlock.tokens, List.append_assoc] at htokens
    -- the statements before are read as they were
    have hbefore := parse_of_spells x.spells_before
    obtain ⟨c, rfl⟩ : x.before <+: a :=
      List.prefix_of_prefix_length_le ⟨_, htokens⟩ (List.prefix_append _ _) hle
    rw [List.append_assoc] at h htokens ⊢
    obtain ⟨q, hq, hstatements⟩ := exists_parse_of_append hbefore h
    have hdepth : q.blockDepth < maxDepth := by
      rw [Program.blockDepth, hstatements, Node.listDepth_append] at hd
      exact Nat.lt_succ_of_le (Nat.le_trans (Nat.le_max_right _ _) hd)
    rw [List.length_append, Nat.add_lt_add_iff_left] at hlt
    have hfirst := TopLevelBlock.parse_of_first (List.append_cancel_left htokens).symm hlt hq ht
      (ha.of_append hbefore) hdepth
    exact parse_append_of_error hbefore hfirst

/-- A loop with a guard in it, up to the guard's empty block, which begins on line 2. -/
def loopAroundGuard : List Token :=
  [⟨.keyword, "while", 1⟩, ⟨.punctuation, "(", 1⟩, ⟨.identifier, "a", 1⟩, ⟨.punctuation, ")", 1⟩,
    ⟨.punctuation, "\x7b", 1⟩, ⟨.keyword, "if", 2⟩, ⟨.punctuation, "(", 2⟩, ⟨.identifier, "b", 2⟩,
    ⟨.punctuation, ")", 2⟩, ⟨.punctuation, "\x7b", 2⟩]

/-- A declaration, the end of the loop and another declaration. -/
def restOfLoop : List Token :=
  [⟨.keyword, "int", 4⟩, ⟨.identifier, "c", 4⟩, ⟨.punctuation, ";", 4⟩, ⟨.punctuation, "\x7d", 5⟩,
    ⟨.keyword, "int", 6⟩, ⟨.identifier, "d", 6⟩, ⟨.punctuation, ";", 6⟩]

/-- Without the end of the guard the loop is blamed. -/
theorem parse_of_dropped_closing_guard :
    (parse (loopAroundGuard ++ ⟨.punctuation, "\x7d", 3⟩ :: restOfLoop) =
        .ok ⟨[.whileLoop none [.ifThen none [], .declaration "int" ["c"]],
          .declaration "int" ["d"]]⟩ ∧
      Unclosed loopAroundGuard) ∧
    ((∃ x : TopLevelBlock, x.tokens = loopAroundGuard ++ ⟨.punctuation, "\x7d", 3⟩ :: restOfLoop ∧
        x.Covers loopAroundGuard.length) ∧
      ∀ x : TopLevelBlock, x.tokens = loopAroundGuard ++ ⟨.punctuation, "\x7d", 3⟩ :: restOfLoop →
        x.Covers loopAroundGuard.length →
        parse (loopAroundGuard ++ restOfLoop) =
          .error ⟨.mismatchedBracket .brace, x.opening.line⟩) ∧
    parse (loopAroundGuard ++ restOfLoop) = .error ⟨.mismatchedBracket .brace, 1⟩ := by
  have h : parse (loopAroundGuard ++ ⟨.punctuation, "\x7d", 3⟩ :: restOfLoop) =
      .ok ⟨[.whileLoop none [.ifThen none [], .declaration "int" ["c"]],
        .declaration "int" ["d"]]⟩ := by rfl
  have ha : Unclosed loopAroundGuard := ⟨.brace, 2, by rfl⟩
  exact ⟨⟨h, ha⟩, parse_of_dropped_closing _ _ _ _ h rfl ha (by decide), by rfl⟩

end

end StreamScript
