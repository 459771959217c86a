import StreamScript.Proofs.Lexical
import StreamScript.Proofs.Spelling

/-! # Well-formed programs

The trees that programs in source form can have, `Node.WellFormed`: statements of six kinds, with
names, paths and slots as they can be written and a bound on the nesting of blocks.
`Spells.wellFormed` says that tokens whose texts are of their kinds spell nothing else. -/

namespace StreamScript

/-- `!` upon `!` upon an empty slot, at most `limit` of them. -/
inductive IsExpression : Nat → Option Node → Prop
  | empty {limit : Nat} : IsExpression limit none
  | sign {limit : Nat} {value : Option Node} :
      IsExpression limit value → IsExpression (limit + 1) (some (.unaryOperation "!" value))

/-- The value of a slot as it can be written. -/
def IsSlot (value : Option Node) : Prop := IsExpression maxDepth value

/-- The node is a statement as it can be written, with blocks nested at most `d` deep. -/
inductive Node.WellFormed : Nat → Node → Prop
  | declaration {d : Nat} {typeName : String} {names : List String} :
      typeName ∈ declarationTypes → names ≠ [] → (∀ name ∈ names, IsName name) →
      WellFormed d (.declaration typeName names)
  | handleDeclaration {d : Nat} {handleType name path : String} :
      handleType ∈ handleTypes → IsName name → IsPath path →
      WellFormed d (.handleDeclaration handleType name path)
  | memberCall {d : Nat} {target method : String} :
      IsName target → IsName method → WellFormed d (.memberCall target method)
  | ifThen {d : Nat} {condition : Option Node} {body : List Node} :
      IsSlot condition → (∀ node ∈ body, WellFormed d node) →
      WellFormed (d + 1) (.ifThen condition body)
  | whileLoop {d : Nat} {condition : Option Node} {body : List Node} :
      IsSlot condition → (∀ node ∈ body, WellFormed d node) →
      WellFormed (d + 1) (.whileLoop condition body)
  | forLoop {d : Nat} {init condition increment : Option Node} {body : List Node} :
      IsSlot init → IsSlot condition → IsSlot increment → (∀ node ∈ body, WellFormed d node) →
      WellFormed (d + 1) (.forLoop init condition increment body)

/-- The statements are well formed, with blocks nested at most `maxDepth` deep. -/
def Program.WellFormed (p : Program) : Prop := ∀ node ∈ p.statements, node.WellFormed maxDepth

/-- All slots of the header hold what can be written there. -/
def Header.WellFormed : Header → Prop
  | .guarded _ condition => IsSlot condition
  | .forLoop init condition increment => IsSlot init ∧ IsSlot condition ∧ IsSlot increment

theorem Header.WellFormed.node {header : Header} {body : List Node} {d : Nat}
    (hh : header.WellFormed) (hb : ∀ node ∈ body, node.WellFormed d) :
    (header.node body).WellFormed (d + 1) := by
  rcases header with ⟨_ | _, condition⟩ | ⟨init, condition, increment⟩
  · exact .ifThen hh hb
  · exact .whileLoop hh hb
  · exact .forLoop hh.1 hh.2.1 hh.2.2 hb

/-! ### What is spelt is well formed -/

variable {ts : List Token}

theorem SpellsExpression.isExpression {limit : Nat} {value : Option Node}
    (h : SpellsExpression limit ts value) : IsExpression limit value := by
  induction h with
  | operand _ => exact .empty
  | sign _ _ ih => exact .sign ih

theorem SpellsSlot.isSlot {value : Option Node} (h : SpellsSlot ts value) : IsSlot value :=
  SpellsExpression.isExpression h

theorem SpellsNames.ne_nil {names : List String} (h : SpellsNames ts names) : names ≠ [] := by
  cases h <;> simp

theorem SpellsNames.isName {names : List String} (h : SpellsNames ts names)
    (hl : ∀ t ∈ ts, t.Lexical) : ∀ name ∈ names, IsName name := by
  induction h with
  | single hn =>
      rw [List.forall_mem_singleton] at hl ⊢
      exact hl.isName hn
  | cons hn _ _ ih =>
      rw [List.forall_mem_cons, List.forall_mem_cons] at hl
      obtain ⟨hname, -, hrest⟩ := hl
      exact List.forall_mem_cons.2 ⟨hname.isName hn, ih hrest⟩

theorem SpellsSimple.wellFormed {node : Node} (h : SpellsSimple ts node)
    (hl : ∀ t ∈ ts, t.Lexical) (d : Nat) : node.WellFormed d := by
  cases h with
  | declaration _ htype hnames _ =>
      rw [List.forall_mem_append, List.forall_mem_cons] at hl
      exact .declaration htype hnames.ne_nil (hnames.isName hl.1.2)
  | handle _ htype hname _ hpath _ _ =>
      simp only [List.forall_mem_cons] at hl
      exact .handleDeclaration htype (hl.2.1.isName hname) (hl.2.2.2.1.isPath hpath)
  | call htarget _ hmethod _ _ _ =>
      simp only [List.forall_mem_cons] at hl
      exact .memberCall (hl.1.isName htarget) (hl.2.2.1.isName hmethod)

theorem SpellsHeader.wellFormed {header : Header} (h : SpellsHeader ts header) :
    header.WellFormed := by
  cases h with
  | guarded _ _ hs _ => exact hs.isSlot
  | forLoop _ _ hi _ hc _ hn _ => exact ⟨hi.isSlot, hc.isSlot, hn.isSlot⟩

/-- Inside `d` open blocks what is spelt has blocks nested as deep as the bound still allows. -/
theorem Spells.wellFormed {d : Nat} {nodes : List Node} (h : Spells d ts nodes)
    (hl : ∀ t ∈ ts, t.Lexical) : ∀ node ∈ nodes, node.WellFormed (maxDepth - d) := by
  induction h with
  | nil => exact fun node hnode => absurd hnode List.not_mem_nil
  | simple hs _ ih =>
      rw [List.forall_mem_append] at hl
      exact List.forall_mem_cons.2 ⟨hs.wellFormed hl.1 _, ih hl.2⟩
  | @block d _ _ _ _ _ _ _ _ hh _ hd _ _ _ ihb ih =>
      simp only [List.forall_mem_append, List.forall_mem_cons] at hl
      obtain ⟨⟨-, -, hbody⟩, -, hrest⟩ := hl
      have hdepth : maxDepth - d = maxDepth - (d + 1) + 1 := by omega
      refine List.forall_mem_cons.2 ⟨?_, ih hrest⟩
      rw [hdepth]
      exact hh.wellFormed.node (ihb hbody)

end StreamScript
