import StreamScript.Proofs.Entries
import StreamScript.Proofs.SpelledReading
import StreamScript.Proofs.Unfinished

/-! # What has been read in a state

A state that is reached from the start tells how the tokens read so far are split: those through
the bracket of the innermost open block, the statements read since on its level, and an
unfinished statement.  `Split.Reaches` is this relation.  One token keeps it
(`Split.Reaches.step`), so it holds of every state that is reached (`exists_split_of_reads`).

In particular the tracker holds the brackets of the open blocks, each with the line of its token,
and above them at most the round bracket of the unfinished statement. -/

namespace StreamScript

open State

/-- The tokens through the bracket of the innermost open block, with the frames and the brackets
of the open blocks, innermost first. -/
inductive Opened : List Token → List Frame → List Token → Prop
  | nil : Opened [] [] []
  | block {ts us vs : List Token} {opening : Token} {header : Header} {nodes : List Node}
      {frames : List Frame} {blocks : List Token} :
      Opened ts frames blocks → Spells frames.length us nodes → SpellsHeader vs header →
      opening.opens .brace → frames.length < maxDepth →
      Opened (ts ++ us ++ vs ++ [opening]) (⟨header, nodes.reverse⟩ :: frames) (opening :: blocks)

namespace Opened

variable {ts : List Token} {frames : List Frame} {blocks : List Token}

theorem length_eq (h : Opened ts frames blocks) : blocks.length = frames.length := by
  induction h with
  | nil => rfl
  | block _ _ _ _ _ ih => simp [ih]

theorem reads (h : Opened ts frames blocks) :
    State.start.reads ts =
      .ok ⟨.statement, [], frames, .ofEntries (braceEntries blocks), lineAfter 1 ts⟩ := by
  induction h with
  | nil => rfl
  | @block ts us vs opening header nodes frames blocks hopened hs hh ho hlt ih =>
      have hlen := hopened.length_eq
      have hdepth : (Tracker.ofEntries (braceEntries blocks)).depth = frames.length := by
        rw [Tracker.depth_ofEntries, length_braceEntries, hlen]
      rw [List.append_assoc, List.append_assoc, reads_append_of_ok ih,
        reads_append_of_ok (hs.reads_of_depth_le (Nat.le_of_eq hdepth) _ _ _),
        reads_append_of_ok hh.reads,
        reads_openBlock [] (Point.move_block ho) (by omega)]
      simp

end Opened

/-- The parts of the tokens that have been read. -/
structure Split where
  /-- The tokens through the bracket of the innermost open block. -/
  outer : List Token
  /-- The statements read since then. -/
  level : List Token
  /-- The unfinished statement. -/
  current : List Token
  /-- The brackets of the open blocks, innermost first. -/
  blocks : List Token
  /-- The round bracket that is open in the unfinished statement. -/
  opening : Option Token

namespace Split

/-- All tokens that have been read. -/
def tokens (x : Split) : List Token := x.outer ++ x.level ++ x.current

/-- The entries of the brackets that are open, innermost first. -/
def entries (x : Split) : List (Bracket × Nat) :=
  (x.opening.map fun t => (Bracket.paren, t.line)).toList ++ braceEntries x.blocks

/-- The parts are what has been read in the state. -/
structure Reaches (x : Split) (s : State) : Prop where
  opened : Opened x.outer s.frames x.blocks
  spells : Spells s.frames.length x.level s.level.reverse
  begun : s.point.Begun x.current x.opening
  tracker : s.tracker = .ofEntries x.entries

variable {x : Split} {s s' : State} {t : Token}

/-- The parts before the first token. -/
def empty : Split := ⟨[], [], [], [], none⟩

theorem reaches_start : empty.Reaches .start := ⟨.nil, .nil, .statement, rfl⟩

theorem Reaches.depth_eq (h : x.Reaches s) (ho : x.opening = none) :
    s.tracker.depth = s.frames.length := by
  rw [h.tracker, Tracker.depth_ofEntries, entries, ho, ← h.opened.length_eq]
  simp

theorem Reaches.current_of_statement (h : x.Reaches s) (hp : s.point = .statement) :
    x.current = [] ∧ x.opening = none := by
  have hb := h.begun
  rw [hp] at hb
  generalize x.current = current, x.opening = opening at hb
  cases hb with
  | statement => exact ⟨rfl, rfl⟩

theorem Reaches.current_eq_nil_iff (h : x.Reaches s) :
    x.current = [] ↔ s.point = .statement := by
  constructor
  · intro hc
    by_cases hp : s.point = .statement
    · exact hp
    · exact absurd hc (h.begun.ne_nil hp)
  · intro hp
    exact (h.current_of_statement hp).1

/-- Between statements the tokens may end if no block is open, and else the innermost block is
blamed. -/
theorem Reaches.finish_eq (h : x.Reaches s) (hp : s.point = .statement) :
    s.finish.result = match x.blocks with
      | [] => .ok ⟨s.level.reverse⟩
      | brace :: _ => .error ⟨.mismatchedBracket .brace, brace.line⟩ := by
  have hi : s.tracker.innermost = (braceEntries x.blocks).head? := by
    rw [h.tracker, Tracker.innermost_ofEntries, entries, (h.current_of_statement hp).2]
    rfl
  cases hb : x.blocks with
  | nil =>
      rw [hb] at hi
      exact finish_of_innermost_none hp hi
  | cons brace blocks =>
      rw [hb] at hi
      exact finish_of_innermost hp hi

theorem Reaches.frames_eq_nil_of_innermost (h : x.Reaches s) (hp : s.point = .statement)
    (hi : s.tracker.innermost = none) : s.frames = [] := by
  rw [h.tracker, Tracker.innermost_ofEntries, entries, (h.current_of_statement hp).2] at hi
  have hblocks : x.blocks = [] := by simpa [braceEntries] using hi
  rw [← List.length_eq_zero_iff, ← h.opened.length_eq, hblocks, List.length_nil]

theorem Reaches.shift {next : Point} (h : x.Reaches s)
    (hb : next.Begun (x.current ++ [t]) x.opening) :
    ∃ y : Split, y.tokens = x.tokens ++ [t] ∧ y.Reaches { s with point := next, line := t.line } := by
  refine ⟨{ x with current := x.current ++ [t] }, ?_, h.opened, h.spells, hb, h.tracker⟩
  simp [tokens]

theorem Reaches.openParen {next : Point} (h : x.Reaches s) (ho : x.opening = none)
    (hb : next.Begun (x.current ++ [t]) (some t)) :
    ∃ y : Split, y.tokens = x.tokens ++ [t] ∧
      y.Reaches ⟨next, s.level, s.frames, s.tracker.push .paren t.line, t.line⟩ := by
  refine ⟨{ x with current := x.current ++ [t], opening := some t }, ?_, h.opened, h.spells,
    hb, ?_⟩
  · simp [tokens]
  · rw [h.tracker, Tracker.push_ofEntries, entries, ho]
    rfl

theorem Reaches.closeParen {next : Point} {o : Token} (h : x.Reaches s) (ho : x.opening = some o)
    (hb : next.Begun (x.current ++ [t]) none) :
    ∃ y : Split, y.tokens = x.tokens ++ [t] ∧
      y.Reaches ⟨next, s.level, s.frames, (s.tracker.pop .paren).2, t.line⟩ := by
  refine ⟨{ x with current := x.current ++ [t], opening := none }, ?_, h.opened, h.spells, hb, ?_⟩
  · simp [tokens]
  · rw [h.tracker, entries, ho]
    simp [entries]

theorem Reaches.finish {node : Node} (h : x.Reaches s) (ho : x.opening = none)
    (hn : SpellsSimple (x.current ++ [t]) node) :
    ∃ y : Split, y.tokens = x.tokens ++ [t] ∧
      y.Reaches ⟨.statement, node :: s.level, s.frames, s.tracker, t.line⟩ := by
  refine ⟨{ x with level := x.level ++ (x.current ++ [t]), current := [] }, ?_, h.opened, ?_,
    ?_, h.tracker⟩
  · simp [tokens]
  · rw [List.reverse_cons]
    exact h.spells.append (.of_simple hn)
  · rw [ho]
    exact .statement

/-- A bracket opens a block after the unfinished statement, which is its header. -/
theorem Reaches.openBlock {header : Header} (h : x.Reaches s) (ho : x.opening = none)
    (hh : SpellsHeader x.current header) (ht : t.opens .brace)
    (hd : s.tracker.depth < maxDepth) :
    Reaches ⟨x.tokens ++ [t], [], [], t :: x.blocks, none⟩
      ⟨.statement, [], ⟨header, s.level⟩ :: s.frames, s.tracker.push .brace t.line, t.line⟩ := by
  rw [h.depth_eq ho] at hd
  refine ⟨?_, .nil, .statement, ?_⟩
  · have := Opened.block h.opened h.spells hh ht hd
    rwa [List.reverse_reverse] at this
  · rw [h.tracker, Tracker.push_ofEntries, entries, ho]
    rfl

/-- A bracket closes the innermost block, and what has been read since its header becomes a
statement of the level around it. -/
theorem Reaches.closeBlock {frame : Frame} {frames : List Frame} (h : x.Reaches s)
    (hf : s.frames = frame :: frames) (hc : x.current = []) (ho : x.opening = none)
    (ht : t.closes .brace) :
    ∃ y : Split, y.tokens = x.tokens ++ [t] ∧
      y.Reaches ⟨.statement, frame.header.node s.level.reverse :: frame.before, frames,
        (s.tracker.pop .brace).2, t.line⟩ := by
  obtain ⟨hopened, hspells, -, htracker⟩ := h
  rw [hf] at hopened hspells
  obtain ⟨outer, level, current, blocks, opening⟩ := x
  cases hopened with
  | @block ts us vs brace header nodes frames blocks hopened hs hh hb hlt =>
      refine ⟨⟨ts, us ++ (vs ++ brace :: level ++ [t]), [], blocks, none⟩, ?_, hopened, ?_,
        .statement, ?_⟩
      · simp only at hc
        simp [tokens, hc]
      · have hstatement := hs.append (Spells.of_block hh hb hlt hspells ht)
        simpa using hstatement
      · simp only at ho
        rw [htracker, entries, ho]
        simp [entries]

theorem Reaches.step (h : x.Reaches s) (hs : (s.step t).result = .ok s') :
    ∃ y : Split, y.tokens = x.tokens ++ [t] ∧ y.Reaches s' := by
  have hx := h.begun.extends t
  cases takes_of_step hs with
  | start hm =>
      rw [hm] at hx
      obtain ⟨ho, hnext⟩ := hx
      rw [← ho] at hnext
      exact h.shift hnext
  | shift hm =>
      rw [hm] at hx
      exact h.shift hx
  | openParen hm =>
      rw [hm] at hx
      obtain ⟨ho, hnext⟩ := hx
      exact h.openParen ho hnext
  | closeParen hm =>
      rw [hm] at hx
      obtain ⟨⟨o, ho⟩, hnext⟩ := hx
      exact h.closeParen ho hnext
  | finish hm =>
      rw [hm] at hx
      obtain ⟨ho, hnode⟩ := hx
      exact h.finish ho hnode
  | openBlock hm hd =>
      rw [hm] at hx
      obtain ⟨ho, hh, ht⟩ := hx
      exact ⟨_, by simp [tokens], h.openBlock ho hh ht hd⟩
  | closeBlock hm hf =>
      rw [hm] at hx
      obtain ⟨hc, ho, ht⟩ := hx
      exact h.closeBlock hf hc ho ht

theorem Reaches.reads {ts : List Token} (h : x.Reaches s) (hs : s.reads ts = .ok s') :
    ∃ y : Split, y.tokens = x.tokens ++ ts ∧ y.Reaches s' := by
  induction ts generalizing x s with
  | nil =>
      cases hs
      exact ⟨x, by simp, h⟩
  | cons t ts ih =>
      obtain ⟨r, hr, hs⟩ := exists_step_of_reads_cons hs
      obtain ⟨y, hy, hyr⟩ := h.step hr
      obtain ⟨z, hz, hzs⟩ := ih hyr hs
      exact ⟨z, by rw [hz, hy, List.append_assoc]; rfl, hzs⟩

end Split

/-- Every state that is reached from the start tells how the tokens are split. -/
theorem exists_split_of_reads {ts : List Token} {s : State} (h : State.start.reads ts = .ok s) :
    ∃ x : Split, x.tokens = ts ∧ x.Reaches s := by
  obtain ⟨x, hx, hs⟩ := Split.reaches_start.reads h
  exact ⟨x, hx, hs⟩

end StreamScript
