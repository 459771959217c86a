import Mathlib.Algebra.BigOperators.Group.Finset.Basic
import Mathlib.Algebra.GroupWithZero.Nat
import StreamScript.Node.Summary

/-! # The statements of a program in order

`Program.preorder` lists all statements of a program, each before those of its body, and
`Node.leadingWord?` is the word with which a statement begins.  The summary counts the same
statements: those at top level and the nested ones are together as many as `Program.preorder` lists
(`length_preorder`), and the counts of the kinds are those of the statements at top level
(`sum_tally`), with the names in increasing order (`pairwise_tally`). -/

namespace StreamScript

mutual

/-- The statements in the body of a node, at every depth, each before those in its own body. -/
def Node.inner : Node → List Node
  | .forLoop _ _ _ body | .whileLoop _ body | .ifThen _ body => listPreorder body
  | .identifier .. | .numberLiteral .. | .declaration .. | .assignment .. => []
  | .unaryOperation .. | .binaryOperation .. | .handleDeclaration .. | .memberCall .. => []

/-- The statements of a list, each followed by those in its body. -/
def Node.listPreorder : List Node → List Node
  | [] => []
  | node :: rest => node :: (node.inner ++ listPreorder rest)

end

/-- All statements of a program, each followed by those in its body. -/
def Program.preorder (p : Program) : List Node := Node.listPreorder p.statements

/-- The word with which a statement begins; the other kinds of node are no statements. -/
def Node.leadingWord? : Node → Option String
  | .declaration typeName _ => some typeName
  | .handleDeclaration handleType _ _ => some handleType
  | .memberCall target _ => some target
  | .ifThen .. => some "if"
  | .whileLoop .. => some "while"
  | .forLoop .. => some "for"
  | .identifier .. | .numberLiteral .. | .assignment .. => none
  | .unaryOperation .. | .binaryOperation .. => none

namespace Node

@[simp] theorem listPreorder_nil : listPreorder [] = [] := rfl

@[simp] theorem listPreorder_cons (node : Node) (rest : List Node) :
    listPreorder (node :: rest) = node :: (node.inner ++ listPreorder rest) := rfl

@[simp] theorem listPreorder_append (nodes more : List Node) :
    listPreorder (nodes ++ more) = listPreorder nodes ++ listPreorder more := by
  induction nodes with
  | nil => rfl
  | cons node nodes ih => simp [ih]

theorem inner_eq (node : Node) : node.inner = listPreorder (node.body?.getD []) := by
  cases node <;> rfl

mutual

theorem length_inner : ∀ node : Node, node.inner.length = node.nested
  | .forLoop _ _ _ body | .whileLoop _ body | .ifThen _ body => length_listPreorder body
  | .identifier .. | .numberLiteral .. | .declaration .. | .assignment .. => rfl
  | .unaryOperation .. | .binaryOperation .. | .handleDeclaration .. | .memberCall .. => rfl

theorem length_listPreorder : ∀ nodes : List Node, (listPreorder nodes).length = nestedList nodes
  | [] => rfl
  | node :: rest => by
    rw [listPreorder_cons, List.length_cons, List.length_append, length_inner node,
      length_listPreorder rest, nestedList]
    omega

end

theorem nestedList_eq (nodes : List Node) :
    nestedList nodes = nodes.length + nodes.foldr (fun node count => node.nested + count) 0 := by
  induction nodes with
  | nil => rfl
  | cons node nodes ih =>
      rw [nestedList, ih, List.length_cons, List.foldr_cons]
      omega

/-! ### The kinds -/

theorem kindName_mem_kindNames (node : Node) : node.kindName ∈ kindNames := by
  cases node <;> exact List.contains_iff_mem.1 rfl

theorem pairwise_kindNames : kindNames.Pairwise (· < ·) := by decide

theorem nodup_kindNames : kindNames.Nodup := by decide

end Node

/-! ### Summaries -/

/-- If the keys are different and every member has one of them, then each member is counted under
exactly one key. -/
theorem sum_countP_eq_length {α : Type} {keys : List String} (key : α → String)
    (hkeys : keys.Nodup) (xs : List α) (h : ∀ x ∈ xs, key x ∈ keys) :
    (keys.map fun name => xs.countP (key · == name)).sum = xs.length := by
  have hcount (name : String) : xs.countP (key · == name) = (xs.map key).count name := by
    rw [List.count, List.countP_map]
    rfl
  have hmem : ∀ name ∈ (↑(xs.map key) : Multiset String), name ∈ keys.toFinset := by
    simpa using h
  have hsum := Multiset.sum_count_eq_card hmem
  simp only [hcount]
  rw [List.sum_toFinset _ hkeys] at hsum
  simpa using hsum

theorem sum_filter_pos (entries : List (String × Nat)) :
    ((entries.filter fun entry => 0 < entry.2).map Prod.snd).sum = (entries.map Prod.snd).sum := by
  induction entries with
  | nil => rfl
  | cons entry entries ih =>
      rw [List.filter_cons, List.map_cons, List.sum_cons, ← ih]
      by_cases hpos : 0 < entry.2
      · simp [hpos]
      · simp [Nat.eq_zero_of_not_pos hpos]

namespace Program

/-- The statements at top level and the nested ones are all statements. -/
theorem length_preorder (p : Program) : p.preorder.length = p.statements.length + p.nested := by
  rw [preorder, Node.length_listPreorder, Node.nestedList_eq, nested]

theorem mem_tally {p : Program} {name : String} {count : Nat} :
    (name, count) ∈ p.tally ↔ 0 < count ∧ p.statements.countP (·.kindName == name) = count := by
  simp only [tally, List.mem_filter, List.mem_map, Prod.mk.injEq, decide_eq_true_eq]
  constructor
  · rintro ⟨⟨_, -, rfl, rfl⟩, hpos⟩
    exact ⟨hpos, rfl⟩
  · rintro ⟨hpos, rfl⟩
    obtain ⟨node, -, hnode⟩ := List.countP_pos_iff.1 hpos
    have hname : name ∈ Node.kindNames := eq_of_beq hnode ▸ node.kindName_mem_kindNames
    exact ⟨⟨name, hname, rfl, rfl⟩, hpos⟩

/-- The counts of the kinds add up to the number of statements at top level. -/
theorem sum_tally (p : Program) : (p.tally.map Prod.snd).sum = p.statements.length := by
  have hall := sum_countP_eq_length Node.kindName Node.nodup_kindNames p.statements
    fun node _ => node.kindName_mem_kindNames
  rw [← hall, tally, sum_filter_pos, List.map_map]
  rfl

theorem pairwise_tally (p : Program) : (p.tally.map Prod.fst).Pairwise (· < ·) := by
  have hsub : (p.tally.map Prod.fst).Sublist Node.kindNames := by
    have hfilter := (List.filter_sublist (p := fun entry => decide (0 < entry.2))
      (l := Node.kindNames.map fun name => (name, p.statements.countP (·.kindName == name)))).map
        Prod.fst
    simpa [tally, Function.comp_def] using hfilter
  exact Node.pairwise_kindNames.sublist hsub

end Program

end StreamScript
