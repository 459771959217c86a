import StreamScript.Proofs.Reading

/-! # Recursive descent

The grammar read by recursive descent, without any bound on the nesting.  `Descent.statement`,
`Descent.block` and `Descent.body` call each other, `Descent.expression` calls itself once for each
sign `!`, and a reader that fails gives the first error.  Along the way it is noted which tokens
lead deeper: each opening bracket of a block with the number of blocks that are then open, and each
sign with its number in the expression.

Every reader says how long the rest is that it leaves.  The recursions end because of it. -/

namespace StreamScript

/-- A token that leads deeper: the opening bracket of a block, `level` blocks being open with it,
or the sign `!` with number `level` in its expression. -/
structure Nesting where
  level : Nat
  token : Token
deriving DecidableEq, Repr

/-- What is found at the start of the tokens: the tokens on the way that lead deeper, and a value
with the tokens after it, or an error. -/
structure Found (ts : List Token) (α : Type) where
  nestings : List Nesting
  result : Except ParseError (α × {rest : List Token // rest.length ≤ ts.length})

namespace Found

variable {ts us : List Token} {α β : Type}

/-- A value that takes no token. -/
def pure (a : α) (ts : List Token) : Found ts α := ⟨[], .ok (a, ⟨ts, Nat.le_refl _⟩)⟩

def fail (e : ParseError) : Found ts α := ⟨[], .error e⟩

/-- The same at the start of more tokens. -/
def within (h : us.length ≤ ts.length) (x : Found us α) : Found ts α :=
  ⟨x.nestings, x.result.map fun (a, rest) => (a, ⟨rest.1, Nat.le_trans rest.2 h⟩)⟩

/-- Go on with the tokens that are left. -/
def bind (x : Found ts α)
    (f : α → (rest : List Token) → rest.length ≤ ts.length → Found rest β) : Found ts β :=
  match x.result with
  | .error e => ⟨x.nestings, .error e⟩
  | .ok (a, ⟨rest, h⟩) =>
    let y := (f a rest h).within h
    ⟨x.nestings ++ y.nestings, y.result⟩

def map (f : α → β) (x : Found ts α) : Found ts β := x.bind fun a rest _ => .pure (f a) rest

/-- Note a token that leads deeper. -/
def deeper (n : Nesting) (x : Found ts α) : Found ts α := { x with nestings := n :: x.nestings }

end Found

namespace Descent

/-- A reader of tokens; the number is the line to blame where the tokens end. -/
def Reader (α : Type) : Type := Nat → (ts : List Token) → Found ts α

instance : Monad Reader where
  pure a := fun _ ts => .pure a ts
  bind f g := fun last ts => (f last ts).bind fun a rest _ => g a last rest

/-- Take the next token, if it passes the test, and go on after it. -/
def taking {α : Type} (test : Token → Bool) (e : Expectation) (last : Nat) : (ts : List Token) →
    (Token → (rest : List Token) → rest.length < ts.length → Found rest α) → Found ts α
  | [], _ => .fail ⟨.expectedToken e.text none, last⟩
  | t :: ts, f =>
    if test t then (f t ts (Nat.lt_succ_self _)).within (Nat.le_succ _)
    else .fail ⟨.expectedToken e.text (some t.text), t.line⟩

/-- A single token that passes the test. -/
def one (test : Token → Bool) (e : Expectation) : Reader Token :=
  fun last ts => taking test e last ts fun t rest _ => .pure t rest

def mark (text : String) (e : Expectation) : Reader Token := one (·.is .punctuation text) e

def opening (bracket : Bracket) (e : Expectation) : Reader Token := one (·.opens bracket) e

def closing (bracket : Bracket) (e : Expectation) : Reader Token := one (·.closes bracket) e

def ofKind (kind : TokenKind) (e : Expectation) : Reader Token := one (·.kind = kind) e

/-- `Names ::= name ',' Names | name ';'`. -/
def names (last : Nat) (ts : List Token) : Found ts (List String) :=
  taking (·.kind = .identifier) .declarationName last ts fun name rest _ =>
    taking (fun t => t.is .punctuation "," || t.is .punctuation ";") .declarationEnd last rest
      fun t rest _ =>
        if t.is .punctuation "," then (names last rest).map (name.text :: ·)
        else .pure [name.text] rest
termination_by ts.length

/-- `Expression ::= '!' Expression | token`, after `count` signs. -/
def expression (count last : Nat) (ts : List Token) : Found ts (Option Node) :=
  taking (fun _ => true) .expression last ts fun t rest _ =>
    if t.is .operator "!" then
      .deeper ⟨count + 1, t⟩
        ((expression (count + 1) last rest).map fun e => some (.unaryOperation "!" e))
    else .pure none rest
termination_by ts.length

/-- What follows the word of a handle declaration. -/
def handle (handleType : String) : Reader Node := do
  let name ← ofKind .identifier .handleName
  let _ ← opening .paren .handleOpening
  let path ← ofKind .literal .handlePath
  let _ ← closing .paren .handleClosing
  let _ ← mark ";" .handleEnd
  return .handleDeclaration handleType name.text path.text

/-- What follows the target of a call. -/
def call (target : String) : Reader Node := do
  let _ ← one (·.is .operator ".") .callDot
  let method ← ofKind .identifier .callMethod
  let _ ← opening .paren .callOpening
  let _ ← closing .paren .callClosing
  let _ ← mark ";" .callEnd
  return .memberCall target method.text

/-- What follows the word of a guard, up to its block: the condition. -/
def guarded (guard : Guard) : Reader (Option Node) := do
  let _ ← opening .paren (.guardOpening guard)
  let condition ← expression 0
  let _ ← closing .paren (.guardClosing guard)
  return condition

/-- What follows the word `for`, up to the block: the three parts. -/
def forLoop : Reader (Option Node × Option Node × Option Node) := do
  let _ ← opening .paren .forOpening
  let init ← expression 0
  let _ ← mark ";" .forInitEnd
  let condition ← expression 0
  let _ ← mark ";" .forConditionEnd
  let increment ← expression 0
  let _ ← closing .paren .forClosing
  return (init, condition, increment)

mutual

/-- What follows the first token `t` of a statement inside `d` blocks. -/
def statement (last d : Nat) (t : Token) (ts : List Token) : Found ts Node :=
  if t.kind = .identifier then call t.text last ts
  else if t.kind = .keyword ∧ t.text ∈ declarationTypes then
    (names last ts).map (.declaration t.text)
  else if t.kind = .keyword ∧ t.text ∈ handleTypes then handle t.text last ts
  else if t.is .keyword "if" then
    (guarded .ifThen last ts).bind fun condition rest _ =>
      (block last d (.guardBlock .ifThen) rest).map (.ifThen condition)
  else if t.is .keyword "while" then
    (guarded .whileLoop last ts).bind fun condition rest _ =>
      (block last d (.guardBlock .whileLoop) rest).map (.whileLoop condition)
  else if t.is .keyword "for" then
    (forLoop last ts).bind fun (init, condition, increment) rest _ =>
      (block last d .forBlock rest).map (.forLoop init condition increment)
  else .fail ⟨.unexpectedToken t.text, t.line⟩
termination_by 2 * ts.length + 1

/-- A block inside `d` others. -/
def block (last d : Nat) (e : Expectation) (ts : List Token) : Found ts (List Node) :=
  taking (·.opens .brace) e last ts fun opening rest _ =>
    .deeper ⟨d + 1, opening⟩ (body last (d + 1) opening rest)
termination_by 2 * ts.length

/-- The statements of the block with the given opening bracket, which is the innermost of `d`. -/
def body (last d : Nat) (opening : Token) : (ts : List Token) → Found ts (List Node)
  | [] => .fail ⟨.mismatchedBracket .brace, opening.line⟩
  | t :: ts =>
    .within (Nat.le_succ _) <|
      if t.closes .brace then .pure [] ts
      else (statement last d t ts).bind fun node rest _ =>
        (body last d opening rest).map (node :: ·)
termination_by ts => 2 * ts.length + 1

end

/-- The statements outside of all blocks, up to the end of the tokens. -/
def statements (last : Nat) : (ts : List Token) → Found ts (List Node)
  | [] => .pure [] []
  | t :: ts =>
    .within (Nat.le_succ _) <|
      (statement last 0 t ts).bind fun node rest _ => (statements last rest).map (node :: ·)
termination_by ts => ts.length

/-- All of the tokens; where they end, the line of the last one is to blame. -/
def program (ts : List Token) : Found ts Program := (statements (lineAfter 1 ts) ts).map .mk

/-- The program that the tokens spell, or the first error. -/
def parse (ts : List Token) : Except ParseError Program := (program ts).result.map Prod.fst

/-- The tokens that lead deeper, in order, up to the first error. -/
def nestings (ts : List Token) : List Nesting := (program ts).nestings

end Descent

end StreamScript
