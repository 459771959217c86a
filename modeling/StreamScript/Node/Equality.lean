import StreamScript.Node

/-! # Equality of trees

Two trees are compared node by node.  `Node.same_iff` says that the comparison decides equality,
so that `=` on nodes and programs can be tested. -/

namespace StreamScript

mutual

/-- Compare two nodes. -/
def Node.same : Node → Node → Bool
  | .identifier a, .identifier b => a == b
  | .numberLiteral a, .numberLiteral b => a == b
  | .declaration a as, .declaration b bs => a == b && as == bs
  | .assignment a v, .assignment b w => a == b && v.same w
  | .unaryOperation a v, .unaryOperation b w => a == b && sameSlot v w
  | .binaryOperation a l r, .binaryOperation b l' r' => a == b && l.same l' && r.same r'
  | .forLoop i c n b, .forLoop i' c' n' b' =>
    sameSlot i i' && sameSlot c c' && sameSlot n n' && sameList b b'
  | .whileLoop c b, .whileLoop c' b' => sameSlot c c' && sameList b b'
  | .ifThen c b, .ifThen c' b' => sameSlot c c' && sameList b b'
  | .handleDeclaration a n p, .handleDeclaration b m q => a == b && n == m && p == q
  | .memberCall a m, .memberCall b n => a == b && m == n
  | _, _ => false

/-- Compare two slots. -/
def Node.sameSlot : Option Node → Option Node → Bool
  | none, none => true
  | some a, some b => a.same b
  | _, _ => false

/-- Compare two lists of statements. -/
def Node.sameList : List Node → List Node → Bool
  | [], [] => true
  | a :: as, b :: bs => a.same b && sameList as bs
  | _, _ => false

end

mutual

theorem Node.same_iff : ∀ a b : Node, a.same b = true ↔ a = b
  | .identifier _, b => by cases b <;> simp [Node.same]
  | .numberLiteral _, b => by cases b <;> simp [Node.same]
  | .declaration _ _, b => by cases b <;> simp [Node.same]
  | .assignment _ v, b => by cases b <;> simp [Node.same, Node.same_iff v]
  | .unaryOperation _ v, b => by cases b <;> simp [Node.same, Node.sameSlot_iff v]
  | .binaryOperation _ l r, b => by
    cases b <;> simp [Node.same, Node.same_iff l, Node.same_iff r, and_assoc]
  | .forLoop i c n s, b => by
    cases b <;> simp [Node.same, Node.sameSlot_iff i, Node.sameSlot_iff c, Node.sameSlot_iff n,
      Node.sameList_iff s, and_assoc]
  | .whileLoop c s, b => by cases b <;> simp [Node.same, Node.sameSlot_iff c, Node.sameList_iff s]
  | .ifThen c s, b => by cases b <;> simp [Node.same, Node.sameSlot_iff c, Node.sameList_iff s]
  | .handleDeclaration _ _ _, b => by cases b <;> simp [Node.same, and_assoc]
  | .memberCall _ _, b => by cases b <;> simp [Node.same]

theorem Node.sameSlot_iff : ∀ a b : Option Node, Node.sameSlot a b = true ↔ a = b
  | none, b => by cases b <;> simp [Node.sameSlot]
  | some a, b => by cases b <;> simp [Node.sameSlot, Node.same_iff a]

theorem Node.sameList_iff : ∀ a b : List Node, Node.sameList a b = true ↔ a = b
  | [], b => by cases b <;> simp [Node.sameList]
  | a :: as, b => by cases b <;> simp [Node.sameList, Node.same_iff a, Node.sameList_iff as]

end

instance : DecidableEq Node := fun a b => decidable_of_iff _ (Node.same_iff a b)

instance : DecidableEq Program := fun a b =>
  decidable_of_iff (a.statements = b.statements)
    ⟨fun h => by cases a; cases b; exact congrArg _ h, fun h => h ▸ rfl⟩

end StreamScript
