import StreamScript.Proofs.Acceptance

/-! # How deep blocks nest

`Node.blockDepth` is how deep the blocks of a statement nest.  While a program is read, the blocks
that are open count too: `State.whole s` are the statements that would have been read if all open
blocks ended in `s`, and the depth of these never goes down (`depth_whole_le_of_reads`).  So no more
blocks are ever open than the program nests in the end (`length_frames_le`, `depth_whole_le`). -/

namespace StreamScript

variable {s s' : State} {t : Token} {ts us : List Token} {level more : List Node}
  {frames : List Frame}

/-! ### Programs -/

mutual

/-- How deep blocks nest in a node. -/
def Node.blockDepth : Node → Nat
  | .forLoop _ _ _ body | .whileLoop _ body | .ifThen _ body => listDepth body + 1
  | .identifier .. | .numberLiteral .. | .declaration .. | .assignment .. => 0
  | .unaryOperation .. | .binaryOperation .. | .handleDeclaration .. | .memberCall .. => 0

/-- How deep blocks nest in a list of statements. -/
def Node.listDepth : List Node → Nat
  | [] => 0
  | node :: rest => max node.blockDepth (listDepth rest)

end

/-- How deep the blocks of a program nest. -/
def Program.blockDepth (p : Program) : Nat := Node.listDepth p.statements

namespace Node

@[simp] theorem listDepth_nil : listDepth [] = 0 := rfl

@[simp] theorem listDepth_cons (node : Node) (rest : List Node) :
    listDepth (node :: rest) = max node.blockDepth (listDepth rest) := rfl

@[simp] theorem listDepth_append (nodes more : List Node) :
    listDepth (nodes ++ more) = max (listDepth nodes) (listDepth more) := by
  induction nodes with
  | nil => simp
  | cons node nodes ih => rw [List.cons_append, listDepth_cons, listDepth_cons, ih, Nat.max_assoc]

@[simp] theorem listDepth_reverse (nodes : List Node) :
    listDepth nodes.reverse = listDepth nodes := by
  induction nodes with
  | nil => rfl
  | cons node nodes ih =>
      rw [List.reverse_cons, listDepth_append, ih, listDepth_cons, listDepth_cons, listDepth_nil,
        Nat.max_zero, Nat.max_comm]

end Node

@[simp] theorem Header.blockDepth_node (header : Header) (body : List Node) :
    (header.node body).blockDepth = Node.listDepth body + 1 := by
  rcases header with ⟨_ | _, condition⟩ | ⟨init, condition, increment⟩ <;> rfl

/-! ### States -/

/-- The outermost level, last first, after an end of all open blocks. -/
def closeAll : List Frame → List Node → List Node
  | [], level => level
  | frame :: frames, level => closeAll frames (frame.header.node level.reverse :: frame.before)

/-- The statements that have been read if all open blocks end here, last first. -/
def State.whole (s : State) : List Node := closeAll s.frames s.level

theorem listDepth_closeAll_mono (h : Node.listDepth level ≤ Node.listDepth more) :
    Node.listDepth (closeAll frames level) ≤ Node.listDepth (closeAll frames more) := by
  induction frames generalizing level more with
  | nil => exact h
  | cons frame frames ih =>
      refine ih ?_
      simp only [Node.listDepth_cons, Header.blockDepth_node, Node.listDepth_reverse]
      omega

theorem length_add_listDepth_le (frames : List Frame) (level : List Node) :
    frames.length + Node.listDepth level ≤ Node.listDepth (closeAll frames level) := by
  induction frames generalizing level with
  | nil => simp [closeAll]
  | cons frame frames ih =>
      have hframes := ih (frame.header.node level.reverse :: frame.before)
      simp only [Node.listDepth_cons, Header.blockDepth_node, Node.listDepth_reverse] at hframes
      rw [closeAll, List.length_cons]
      omega

namespace State

/-- No more blocks are open than nest in what has been read. -/
theorem length_frames_le (s : State) : s.frames.length ≤ Node.listDepth s.whole :=
  Nat.le_trans (Nat.le_add_right _ _) (length_add_listDepth_le s.frames s.level)

theorem depth_whole_le_of_step (h : (s.step t).result = .ok s') :
    Node.listDepth s.whole ≤ Node.listDepth s'.whole := by
  cases takes_of_step h with
  | finish => exact listDepth_closeAll_mono (Nat.le_max_right _ _)
  | openBlock => exact listDepth_closeAll_mono (Nat.le_max_right _ _)
  | closeBlock _ hf =>
      -- the end of the block was counted before
      rw [whole, hf]
      exact Nat.le_refl _
  | _ => exact Nat.le_refl _

theorem depth_whole_le_of_reads (h : s.reads ts = .ok s') :
    Node.listDepth s.whole ≤ Node.listDepth s'.whole := by
  induction ts generalizing s with
  | nil =>
      cases h
      exact Nat.le_refl _
  | cons t ts ih =>
      obtain ⟨r, hr, hs⟩ := exists_step_of_reads_cons h
      exact Nat.le_trans (depth_whole_le_of_step hr) (ih hs)

end State

theorem reads_of_parse_eq_ok {p : Program} (h : parse ts = .ok p) :
    State.start.reads ts =
      .ok ⟨.statement, p.statements.reverse, [], .empty, lineAfter 1 ts⟩ := by
  have hd : Tracker.empty.depth ≤ 0 := Nat.le_refl 0
  have hread := (spells_of_parse_eq_ok h).reads_of_depth_le hd [] [] 1
  rwa [List.append_nil] at hread

/-- What has been read of a program is no deeper than the program. -/
theorem depth_whole_le {p : Program} (h : parse (ts ++ us) = .ok p)
    (hs : State.start.reads ts = .ok s) : Node.listDepth s.whole ≤ p.blockDepth := by
  have hread := reads_of_parse_eq_ok h
  rw [State.reads_append_of_ok hs] at hread
  have hmono := State.depth_whole_le_of_reads hread
  rwa [State.whole, State.whole, closeAll, Node.listDepth_reverse] at hmono

end StreamScript
