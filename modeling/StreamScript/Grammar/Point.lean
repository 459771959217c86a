import StreamScript.Grammar.Expectation
import StreamScript.Token
import StreamScript.Vocabulary

/-! # Points of a program

Reading a program token by token, one is always at a *point*: between two statements, or at a
certain place inside one.  A point holds what has been read of the statement so far.  It says
which tokens may come next, and what each of them does there: `Point.move`.

The forms of statement are

* `int a, b;` and `string a, b;`,
* `ifstream name("path");`, also with `ofstream` and `fstream`,
* `target.method();`,
* `if (e) { … }` and `while (e) { … }`,
* `for (e; e; e) { … }`,

where `e` is any number of signs `!` up to `maxDepth`, and then exactly one other token of
whatever kind. -/

namespace StreamScript

/-- A place in a program, with what has been read of the statement there. -/
inductive Point where
  /-- Between statements. -/
  | statement
  /-- Before a name in a declaration; the names before it are given last first. -/
  | declarationName (typeName : String) (names : List String)
  /-- After a name in a declaration; the names are given last first. -/
  | declarationNext (typeName : String) (names : List String)
  | handleName (handleType : String)
  | handleOpening (handleType name : String)
  | handlePath (handleType name : String)
  | handleClosing (handleType name path : String)
  | handleEnd (handleType name path : String)
  | callDot (target : String)
  | callMethod (target : String)
  | callOpening (target method : String)
  | callClosing (target method : String)
  | callEnd (target method : String)
  | guardOpening (guard : Guard)
  | forOpening
  /-- Inside an expression, after `count` signs `!`. -/
  | expression (slot : HeaderSlot) (count : Nat)
  /-- After the expression of a slot. -/
  | expressionEnd (slot : HeaderSlot) (value : Option Node)
  /-- Between a header and its block. -/
  | block (header : Header)
deriving DecidableEq, Repr

/-- What a token does at a point. -/
inductive Move where
  /-- It begins a statement. -/
  | start (next : Point)
  /-- It goes on with the statement. -/
  | shift (next : Point)
  /-- It opens a round bracket and goes on. -/
  | openParen (next : Point)
  /-- It closes a round bracket and goes on. -/
  | closeParen (next : Point)
  /-- It ends the statement. -/
  | finish (node : Node)
  /-- It opens the block of a header. -/
  | openBlock (header : Header)
  /-- It closes the innermost block, if one is open. -/
  | closeBlock
  /-- It should begin a statement, and none begins so. -/
  | noStatement
  /-- It is not what the point expects. -/
  | refuse
  /-- It is a sign `!` beyond the last that is allowed. -/
  | overlong
deriving DecidableEq, Repr

namespace Point

/-- What the point expects, as an error would put it. -/
def expectation : Point → Expectation
  | statement => .statement
  | declarationName .. => .declarationName
  | declarationNext .. => .declarationEnd
  | handleName .. => .handleName
  | handleOpening .. => .handleOpening
  | handlePath .. => .handlePath
  | handleClosing .. => .handleClosing
  | handleEnd .. => .handleEnd
  | callDot .. => .callDot
  | callMethod .. => .callMethod
  | callOpening .. => .callOpening
  | callClosing .. => .callClosing
  | callEnd .. => .callEnd
  | guardOpening guard => .guardOpening guard
  | forOpening => .forOpening
  | expression .. => .expression
  | expressionEnd (.guarded guard) _ => .guardClosing guard
  | expressionEnd .init _ => .forInitEnd
  | expressionEnd (.condition _) _ => .forConditionEnd
  | expressionEnd (.increment _ _) _ => .forClosing
  | block (.guarded guard _) => .guardBlock guard
  | block (.forLoop ..) => .forBlock

/-- What a token does between statements. -/
def begin (t : Token) : Move :=
  match t.kind with
  | .identifier => .start (.callDot t.text)
  | .keyword =>
    if t.text ∈ declarationTypes then .start (.declarationName t.text [])
    else if t.text ∈ handleTypes then .start (.handleName t.text)
    else if t.text = "if" then .start (.guardOpening .ifThen)
    else if t.text = "while" then .start (.guardOpening .whileLoop)
    else if t.text = "for" then .start .forOpening
    else .noStatement
  | .punctuation => if t.text = Bracket.brace.closing then .closeBlock else .noStatement
  | _ => .noStatement

/-- Go on with `m` if the token is a punctuation mark with this text. -/
def onMark (t : Token) (mark : String) (m : Move) : Move :=
  if t.is .punctuation mark then m else .refuse

/-- Go on to `next` if the token is of this kind. -/
def onKind (t : Token) (kind : TokenKind) (next : Point) : Move :=
  if t.kind = kind then .shift next else .refuse

/-- Go on to `next` if the token opens a round bracket. -/
def onOpening (t : Token) (next : Point) : Move :=
  if t.opens .paren then .openParen next else .refuse

/-- Go on to `next` if the token closes one. -/
def onClosing (t : Token) (next : Point) : Move :=
  if t.closes .paren then .closeParen next else .refuse

/-- What a token does at a point. -/
def move (p : Point) (t : Token) : Move :=
  match p with
  | statement => begin t
  | declarationName ty names => onKind t .identifier (declarationNext ty (t.text :: names))
  | declarationNext ty names =>
    if t.is .punctuation "," then .shift (declarationName ty names)
    else onMark t ";" (.finish (.declaration ty names.reverse))
  | handleName ty => onKind t .identifier (handleOpening ty t.text)
  | handleOpening ty name => onOpening t (handlePath ty name)
  | handlePath ty name => onKind t .literal (handleClosing ty name t.text)
  | handleClosing ty name path => onClosing t (handleEnd ty name path)
  | handleEnd ty name path => onMark t ";" (.finish (.handleDeclaration ty name path))
  | callDot target => if t.is .operator "." then .shift (callMethod target) else .refuse
  | callMethod target => onKind t .identifier (callOpening target t.text)
  | callOpening target method => onOpening t (callClosing target method)
  | callClosing target method => onClosing t (callEnd target method)
  | callEnd target method => onMark t ";" (.finish (.memberCall target method))
  | guardOpening guard => onOpening t (expression (.guarded guard) 0)
  | forOpening => onOpening t (expression .init 0)
  | expression slot count =>
    if t.is .operator "!" then
      if count = maxDepth then .overlong else .shift (expression slot (count + 1))
    else .shift (expressionEnd slot (negations count))
  | expressionEnd (.guarded guard) e => onClosing t (block (.guarded guard e))
  | expressionEnd .init e => onMark t ";" (.shift (expression (.condition e) 0))
  | expressionEnd (.condition i) e => onMark t ";" (.shift (expression (.increment i e) 0))
  | expressionEnd (.increment i c) e => onClosing t (block (.forLoop i c e))
  | block header => if t.opens .brace then .openBlock header else .refuse

end Point

end StreamScript
