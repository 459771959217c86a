import StreamScript.Grammar.Header
import StreamScript.Token
import StreamScript.Vocabulary

/-! # What tokens spell

The grammar of the language, as relations between a list of tokens and what it stands for.  They
say nothing of how a list is read: there are no points, moves or states in them.

* `SpellsExpression limit ts v`: an expression, `!` any number of times up to `limit` and then one
  other token of whatever kind; in a slot, `SpellsSlot ts v`, the limit is `maxDepth`;
* `SpellsNames ts names`: names with commas between them;
* `SpellsSimple ts node`: a statement without a block;
* `SpellsHeader ts header`: what stands before the block of a statement that has one;
* `Spells d ts nodes`: statements that stand inside `d` open blocks, where at most `maxDepth`
  blocks may be open at once.

A program is what tokens spell outside of all blocks, `Spells 0 ts p.statements`.

The nodes are given by their constructors.  That they are those which a reading makes, `negations`
and `Header.node`, is said by `spellsExpression_iff` and `Spells.block`, and an induction over what
is spelt has one case for all blocks (`Spells.rec_block`). -/

namespace StreamScript

/-- The tokens are an expression with at most `limit` signs.  Each sign is a node upon what follows
it, and the operand leaves none. -/
inductive SpellsExpression : Nat → List Token → Option Node → Prop
  | operand {limit : Nat} {t : Token} : ¬ t.is .operator "!" → SpellsExpression limit [t] none
  | sign {limit : Nat} {t : Token} {ts : List Token} {value : Option Node} :
      t.is .operator "!" → SpellsExpression limit ts value →
      SpellsExpression (limit + 1) (t :: ts) (some (.unaryOperation "!" value))

/-- The tokens are an expression that leaves `value` in its slot. -/
def SpellsSlot (ts : List Token) (value : Option Node) : Prop := SpellsExpression maxDepth ts value

/-- The tokens are one or more names, separated by commas. -/
inductive SpellsNames : List Token → List String → Prop
  | single {name : Token} : name.kind = .identifier → SpellsNames [name] [name.text]
  | cons {name comma : Token} {ts : List Token} {names : List String} :
      name.kind = .identifier → comma.is .punctuation "," → SpellsNames ts names →
      SpellsNames (name :: comma :: ts) (name.text :: names)

/-- The tokens are a statement without a block. -/
inductive SpellsSimple : List Token → Node → Prop
  | declaration {type semicolon : Token} {ts : List Token} {names : List String} :
      type.kind = .keyword → type.text ∈ declarationTypes → SpellsNames ts names →
      semicolon.is .punctuation ";" →
      SpellsSimple (type :: ts ++ [semicolon]) (.declaration type.text names)
  | handle {type name opening path closing semicolon : Token} :
      type.kind = .keyword → type.text ∈ handleTypes → name.kind = .identifier →
      opening.opens .paren → path.kind = .literal → closing.closes .paren →
      semicolon.is .punctuation ";" →
      SpellsSimple [type, name, opening, path, closing, semicolon]
        (.handleDeclaration type.text name.text path.text)
  | call {target dot method opening closing semicolon : Token} :
      target.kind = .identifier → dot.is .operator "." → method.kind = .identifier →
      opening.opens .paren → closing.closes .paren →
      semicolon.is .punctuation ";" →
      SpellsSimple [target, dot, method, opening, closing, semicolon]
        (.memberCall target.text method.text)

/-- The tokens are the header of a block. -/
inductive SpellsHeader : List Token → Header → Prop
  | guarded {guard : Guard} {word opening closing : Token} {ts : List Token}
      {condition : Option Node} :
      word.is .keyword guard.word → opening.opens .paren → SpellsSlot ts condition →
      closing.closes .paren →
      SpellsHeader (word :: opening :: ts ++ [closing]) (.guarded guard condition)
  | forLoop {word opening first second closing : Token} {ts us vs : List Token}
      {init condition increment : Option Node} :
      word.is .keyword "for" → opening.opens .paren → SpellsSlot ts init →
      first.is .punctuation ";" → SpellsSlot us condition → second.is .punctuation ";" →
      SpellsSlot vs increment → closing.closes .paren →
      SpellsHeader (word :: opening :: ts ++ first :: us ++ second :: vs ++ [closing])
        (.forLoop init condition increment)

/-- The tokens are statements inside `d` open blocks. -/
inductive Spells : Nat → List Token → List Node → Prop
  | nil {d : Nat} : Spells d [] []
  | simple {d : Nat} {ts us : List Token} {node : Node} {nodes : List Node} :
      SpellsSimple ts node → Spells d us nodes → Spells d (ts ++ us) (node :: nodes)
  | ifThen {d : Nat} {ts us vs : List Token} {opening closing : Token} {condition : Option Node}
      {body nodes : List Node} :
      SpellsHeader ts (.guarded .ifThen condition) → opening.opens .brace → d < maxDepth →
      Spells (d + 1) us body → closing.closes .brace → Spells d vs nodes →
      Spells d (ts ++ opening :: us ++ closing :: vs) (.ifThen condition body :: nodes)
  | whileLoop {d : Nat} {ts us vs : List Token} {opening closing : Token}
      {condition : Option Node} {body nodes : List Node} :
      SpellsHeader ts (.guarded .whileLoop condition) → opening.opens .brace → d < maxDepth →
      Spells (d + 1) us body → closing.closes .brace → Spells d vs nodes →
      Spells d (ts ++ opening :: us ++ closing :: vs) (.whileLoop condition body :: nodes)
  | forLoop {d : Nat} {ts us vs : List Token} {opening closing : Token}
      {init condition increment : Option Node} {body nodes : List Node} :
      SpellsHeader ts (.forLoop init condition increment) → opening.opens .brace → d < maxDepth →
      Spells (d + 1) us body → closing.closes .brace → Spells d vs nodes →
      Spells d (ts ++ opening :: us ++ closing :: vs)
        (.forLoop init condition increment body :: nodes)

/-! ### The nodes of a reading -/

theorem spellsExpression_iff {limit : Nat} {ts : List Token} {value : Option Node} :
    SpellsExpression limit ts value ↔
      ∃ signs operand, ts = signs ++ [operand] ∧ signs.length ≤ limit ∧
        (∀ t ∈ signs, t.is .operator "!") ∧ ¬ operand.is .operator "!" ∧
        value = negations signs.length := by
  constructor
  · intro h
    induction h with
    | @operand limit t ht => exact ⟨[], t, rfl, Nat.zero_le limit, nofun, ht, rfl⟩
    | @sign limit t ts value ht _ ih =>
        obtain ⟨signs, operand, rfl, hle, hs, ho, rfl⟩ := ih
        exact ⟨t :: signs, operand, rfl, Nat.succ_le_succ hle, List.forall_mem_cons.2 ⟨ht, hs⟩, ho,
          rfl⟩
  · rintro ⟨signs, operand, rfl, hle, hs, ho, rfl⟩
    induction signs generalizing limit with
    | nil => exact .operand ho
    | cons t signs ih =>
        obtain ⟨ht, hs⟩ := List.forall_mem_cons.1 hs
        cases limit with
        | zero => exact absurd hle (Nat.not_succ_le_zero _)
        | succ limit => exact .sign ht (ih (Nat.le_of_succ_le_succ hle) hs)

namespace Spells

/-- A header and its block spell the node that is made of both. -/
theorem block {d : Nat} {ts us vs : List Token} {opening closing : Token} {header : Header}
    {body nodes : List Node} (hh : SpellsHeader ts header) (ho : opening.opens .brace)
    (hd : d < maxDepth) (hb : Spells (d + 1) us body) (hc : closing.closes .brace)
    (h : Spells d vs nodes) :
    Spells d (ts ++ opening :: us ++ closing :: vs) (header.node body :: nodes) := by
  rcases header with ⟨_ | _, condition⟩ | ⟨init, condition, increment⟩
  · exact .ifThen hh ho hd hb hc h
  · exact .whileLoop hh ho hd hb hc h
  · exact .forLoop hh ho hd hb hc h

/-- Induction with one case for the blocks of all headers. -/
@[elab_as_elim, induction_eliminator]
theorem rec_block
    {motive : (d : Nat) → (ts : List Token) → (nodes : List Node) → Spells d ts nodes → Prop}
    (nil : ∀ {d : Nat}, motive d [] [] .nil)
    (simple : ∀ {d : Nat} {ts us : List Token} {node : Node} {nodes : List Node}
      (hs : SpellsSimple ts node) (h : Spells d us nodes),
      motive d us nodes h → motive d (ts ++ us) (node :: nodes) (.simple hs h))
    (block : ∀ {d : Nat} {ts us vs : List Token} {opening closing : Token} {header : Header}
      {body nodes : List Node} (hh : SpellsHeader ts header) (ho : opening.opens .brace)
      (hd : d < maxDepth) (hb : Spells (d + 1) us body) (hc : closing.closes .brace)
      (h : Spells d vs nodes), motive (d + 1) us body hb → motive d vs nodes h →
      motive d (ts ++ opening :: us ++ closing :: vs) (header.node body :: nodes)
        (.block hh ho hd hb hc h))
    {d : Nat} {ts : List Token} {nodes : List Node} (h : Spells d ts nodes) :
    motive d ts nodes h := by
  induction h with
  | nil => exact nil
  | simple hs h ih => exact simple hs h ih
  | ifThen hh ho hd hb hc h ihb ih => exact block hh ho hd hb hc h ihb ih
  | whileLoop hh ho hd hb hc h ihb ih => exact block hh ho hd hb hc h ihb ih
  | forLoop hh ho hd hb hc h ihb ih => exact block hh ho hd hb hc h ihb ih

@[elab_as_elim, cases_eliminator]
theorem cases_block
    {motive : (d : Nat) → (ts : List Token) → (nodes : List Node) → Spells d ts nodes → Prop}
    (nil : ∀ {d : Nat}, motive d [] [] .nil)
    (simple : ∀ {d : Nat} {ts us : List Token} {node : Node} {nodes : List Node}
      (hs : SpellsSimple ts node) (h : Spells d us nodes),
      motive d (ts ++ us) (node :: nodes) (.simple hs h))
    (block : ∀ {d : Nat} {ts us vs : List Token} {opening closing : Token} {header : Header}
      {body nodes : List Node} (hh : SpellsHeader ts header) (ho : opening.opens .brace)
      (hd : d < maxDepth) (hb : Spells (d + 1) us body) (hc : closing.closes .brace)
      (h : Spells d vs nodes),
      motive d (ts ++ opening :: us ++ closing :: vs) (header.node body :: nodes)
        (.block hh ho hd hb hc h))
    {d : Nat} {ts : List Token} {nodes : List Node} (h : Spells d ts nodes) :
    motive d ts nodes h :=
  rec_block nil (fun hs h _ => simple hs h) (fun hh ho hd hb hc h _ _ => block hh ho hd hb hc h) h

end Spells

theorem SpellsHeader.ne_nil {ts : List Token} {header : Header} (h : SpellsHeader ts header) :
    ts ≠ [] := by
  cases h <;> simp

/-! ### Putting together -/

theorem SpellsNames.snoc {ts : List Token} {names : List String} {comma name : Token}
    (h : SpellsNames ts names) (hc : comma.is .punctuation ",") (hn : name.kind = .identifier) :
    SpellsNames (ts ++ [comma, name]) (names ++ [name.text]) := by
  induction h with
  | single hm => exact .cons hm hc (.single hn)
  | cons hm hd _ ih => exact .cons hm hd ih

namespace Spells

variable {d : Nat} {ts us : List Token} {nodes more : List Node}

theorem append (h : Spells d ts nodes) (h' : Spells d us more) :
    Spells d (ts ++ us) (nodes ++ more) := by
  induction h with
  | nil => exact h'
  | simple hs _ ih =>
      rw [List.append_assoc]
      exact .simple hs (ih h')
  | block hh ho hd hb hc _ _ ih =>
      rw [List.append_assoc, List.cons_append]
      exact .block hh ho hd hb hc (ih h')

theorem of_simple {node : Node} (h : SpellsSimple ts node) : Spells d ts [node] := by
  have := Spells.simple (d := d) h .nil
  rwa [List.append_nil] at this

theorem of_block {opening closing : Token} {header : Header} {body : List Node}
    (hh : SpellsHeader ts header) (ho : opening.opens .brace) (hd : d < maxDepth)
    (hb : Spells (d + 1) us body) (hc : closing.closes .brace) :
    Spells d (ts ++ opening :: us ++ [closing]) [header.node body] :=
  .block hh ho hd hb hc .nil

/-- What is spelt inside some blocks is also spelt inside fewer. -/
theorem mono {e : Nat} (h : Spells d ts nodes) (he : e ≤ d) : Spells e ts nodes := by
  induction h generalizing e with
  | nil => exact .nil
  | simple hs _ ih => exact .simple hs (ih he)
  | block hh ho hd _ hc _ ihb ih =>
      exact .block hh ho (by omega) (ihb (by omega)) hc (ih he)

end Spells

/-! ### What is spelt fixes the number of tokens -/

theorem Header.node_injective {header header' : Header} {body body' : List Node}
    (h : header.node body = header'.node body') : header = header' ∧ body = body' := by
  rcases header with ⟨_ | _, c⟩ | ⟨i, c, n⟩ <;> rcases header' with ⟨_ | _, c'⟩ | ⟨i', c', n'⟩ <;>
    simp_all [Header.node]

theorem SpellsExpression.length_eq {limit limit' : Nat} {ts us : List Token} {value : Option Node}
    (h : SpellsExpression limit ts value) (h' : SpellsExpression limit' us value) :
    ts.length = us.length := by
  induction h generalizing limit' us with
  | operand _ =>
      cases h' with
      | operand _ => rfl
  | sign _ _ ih =>
      cases h' with
      | sign _ h' => rw [List.length_cons, List.length_cons, ih h']

theorem SpellsSlot.length_eq {ts us : List Token} {value : Option Node} (h : SpellsSlot ts value)
    (h' : SpellsSlot us value) : ts.length = us.length :=
  SpellsExpression.length_eq h h'

theorem SpellsNames.length_eq {ts us : List Token} {names : List String}
    (h : SpellsNames ts names) (h' : SpellsNames us names) : ts.length = us.length := by
  have key : ∀ {vs : List Token} {ns : List String}, SpellsNames vs ns →
      vs.length + 1 = 2 * ns.length := by
    intro vs ns hv
    induction hv with
    | single _ => rfl
    | cons _ _ _ ih => simp only [List.length_cons]; omega
  have h1 := key h
  have h2 := key h'
  omega

theorem SpellsSimple.length_eq {ts us : List Token} {node : Node} (h : SpellsSimple ts node)
    (h' : SpellsSimple us node) : ts.length = us.length := by
  generalize hm : node = other at h'
  cases h with
  | declaration _ _ hn _ =>
      cases h' with
      | declaration _ _ hn' _ =>
          obtain ⟨-, rfl⟩ := Node.declaration.inj hm
          simp [hn.length_eq hn']
      | _ => cases hm
  | handle =>
      cases h' with
      | handle => rfl
      | _ => cases hm
  | call =>
      cases h' with
      | call => rfl
      | _ => cases hm

theorem SpellsHeader.length_eq {ts us : List Token} {header : Header} (h : SpellsHeader ts header)
    (h' : SpellsHeader us header) : ts.length = us.length := by
  cases h with
  | guarded _ _ hs _ =>
      cases h' with
      | guarded _ _ hs' _ => simp [hs.length_eq hs']
  | forLoop _ _ hi _ hc _ hn _ =>
      cases h' with
      | forLoop _ _ hi' _ hc' _ hn' _ =>
          simp [hi.length_eq hi', hc.length_eq hc', hn.length_eq hn']

theorem SpellsSimple.node_ne {ts : List Token} {header : Header} {body : List Node} :
    ¬ SpellsSimple ts (header.node body) := by
  intro h
  generalize hn : header.node body = node at h
  rcases header with ⟨_ | _, c⟩ | ⟨i, c, n⟩ <;> cases h <;> simp [Header.node] at hn

theorem Spells.length_eq {d e : Nat} {ts us : List Token} {nodes : List Node}
    (h : Spells d ts nodes) (h' : Spells e us nodes) : ts.length = us.length := by
  induction h generalizing e us with
  | nil => cases h' with
    | nil => rfl
  | simple hs _ ih =>
      cases h' with
      | simple hs' hr' => simp [hs.length_eq hs', ih hr']
      | block => exact absurd hs SpellsSimple.node_ne
  | @block d ts us vs opening closing header body nodes hh _ _ _ _ _ ihb ih =>
      generalize hn : header.node body :: nodes = all at h'
      cases h' with
      | nil => cases hn
      | simple hs' _ =>
          cases hn
          exact absurd hs' SpellsSimple.node_ne
      | block hh' _ _ hb' _ hr' =>
          obtain ⟨hhead, rfl⟩ := List.cons.inj hn
          obtain ⟨rfl, rfl⟩ := Header.node_injective hhead
          simp [hh.length_eq hh', ihb hb', ih hr']

end StreamScript
