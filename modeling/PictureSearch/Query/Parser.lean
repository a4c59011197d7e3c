import PictureSearch.Query.Lexer
import PictureSearch.Query.Tree

/-!
# The parser

The parser takes one lexeme after the other.  Groups that are open form a stack of frames, the
innermost first; a comparison that is half written is pending.  A negation without parentheses is
a frame of its own, closed by the next clause that is finished.

`parse` reads a whole text; an empty or blank text is the root group without clauses.
-/

namespace PictureSearch.Query

/-- The most groups that may be open at once: each parenthesis or combinator with its parenthesis
counts one, and so does a negation without parentheses until its operand ends. -/
def maxDepth : Nat := 128

/-! ## States -/

/-- An open group. -/
structure Frame where
  opening : Opening
  children : List Node
  offset : Nat
  /-- Not so for a negation that takes the next clause alone, and for a combinator whose
  parenthesis has not been met yet. -/
  parenthesized : Bool
  deriving DecidableEq, Repr

/-- A token that may stand on either side of a comparison. -/
inductive Operand
  /-- A bare word may be an attribute or a value. -/
  | word (text : String)
  | literal (value : Literal)
  deriving DecidableEq, Repr

def Operand.toLiteral : Operand → Literal
  | .word text => .text text
  | .literal value => value

/-- What has been met of a comparison. -/
inductive Pending
  | nothing
  | leading (operand : Operand) (offset : Nat)
  | operator (attr : String) (operator : Operator)
  | has (value : Literal)
  deriving DecidableEq, Repr

structure Parser where
  /-- The clauses finished at the top level, in order. -/
  root : List Node
  /-- The open groups, innermost first. -/
  stack : List Frame
  pending : Pending
  /-- The last lexeme was a combinator: a parenthesis belongs to it. -/
  awaitingParen : Bool
  deriving DecidableEq, Repr

/-! ## Finished parts -/

/-- The relation that an operator asks for when the value is no pattern. -/
def Operator.toOp : Operator → Op
  | .eq => .eq
  | .neq => .neq
  | .gt => .gt
  | .lt => .lt
  | .gte => .gte
  | .lte => .lte
  | .has => .has

/-- A word with a per cent sign is no attribute. -/
def checkAttribute (attr : String) (offset : Nat) : Except SyntaxError Unit :=
  if attr.toList.contains '%' then .error ⟨.wildcardInAttribute, offset⟩ else .ok ()

/-- The comparison of an attribute with the value at `offset`. -/
def comparison (attr : String) (operator : Operator) (value : Literal) (offset : Nat) :
    Except SyntaxError Compare :=
  if value.isWildcard then
    if operator = .neq then .error ⟨.wildcardWithNeq, offset⟩ else .ok ⟨attr, .like, value⟩
  else .ok ⟨attr, operator.toOp, value⟩

/-- The node of a frame that is closed by its parenthesis. -/
def Frame.toNode (f : Frame) : Except SyntaxError Node :=
  match f.opening, f.children with
  | .bare, [child] => .ok child
  | .bare, children => .ok (.group .and children)
  | .and, children => .ok (.group .and children)
  | .or, children => .ok (.group .or children)
  | .not, [child] => .ok (.group .not [child])
  | .not, [] => .error ⟨.negationWithoutOperand, f.offset⟩
  | .not, _ => .error ⟨.negationOfSeveral, f.offset⟩

/-! ## Algorithm -/

namespace Parser

def initial : Parser := ⟨[], [], .nothing, false⟩

/-- Fails when a comparison is half written. -/
def ensureIdle (p : Parser) (offset : Nat) : Except SyntaxError Unit :=
  match p.pending with
  | .nothing => .ok ()
  | .leading _ _ => .error ⟨.missingOperator, offset⟩
  | .operator _ operator => .error ⟨.missingValue operator, offset⟩
  | .has _ => .error ⟨.missingAttribute, offset⟩

/-- Adds a finished clause to the innermost group.  Negations without parentheses end with it. -/
def pushOnto (root : List Node) : List Frame → Node → List Node × List Frame
  | [], node => (root ++ [node], [])
  | f :: rest, node =>
    if f.opening = .not ∧ f.parenthesized = false then pushOnto root rest (.group .not [node])
    else (root, { f with children := f.children ++ [node] } :: rest)

def push (p : Parser) (node : Node) : Parser :=
  let (root, stack) := pushOnto p.root p.stack node
  { p with root, stack }

/-- Opens a group. -/
def openGroup (p : Parser) (opening : Opening) (offset : Nat) (parenthesized : Bool) :
    Except SyntaxError Parser :=
  if maxDepth ≤ p.stack.length then .error ⟨.tooDeep, offset⟩
  else .ok { p with stack := ⟨opening, [], offset, parenthesized⟩ :: p.stack }

/-- A word, a number or a quoted text. -/
def operand (p : Parser) (operand : Operand) (offset : Nat) : Except SyntaxError Parser :=
  match p.pending with
  | .nothing => .ok { p with pending := .leading operand offset }
  | .leading _ _ => .error ⟨.missingOperator, offset⟩
  | .operator attr operator => do
    let c ← comparison attr operator operand.toLiteral offset
    return { p with pending := .nothing }.push (.compare c)
  | .has value =>
    match operand with
    | .literal _ => .error ⟨.attributeWantedAfterHas, offset⟩
    | .word attr => do
      checkAttribute attr offset
      return { p with pending := .nothing }.push (.compare ⟨attr, .has, value⟩)

/-- A comparison operator. -/
def operator (p : Parser) (operator : Operator) (offset : Nat) : Except SyntaxError Parser :=
  match p.pending with
  | .leading (.word attr) first => do
    checkAttribute attr first
    return { p with pending := .operator attr operator }
  | .leading (.literal _) first => .error ⟨.attributeWantedBefore operator, first⟩
  | _ => .error ⟨.strayOperator operator, offset⟩

/-- The sign of membership. -/
def membership (p : Parser) (offset : Nat) : Except SyntaxError Parser :=
  match p.pending with
  | .leading operand first =>
    if operand.toLiteral.isWildcard then .error ⟨.wildcardWithHas, first⟩
    else .ok { p with pending := .has operand.toLiteral }
  | _ => .error ⟨.strayOperator .has, offset⟩

/-- A combinator: its parenthesis may follow. -/
def combinator (p : Parser) (opening : Opening) (offset : Nat) : Except SyntaxError Parser := do
  p.ensureIdle offset
  let p ← p.openGroup opening offset false
  return { p with awaitingParen := true }

/-- A closing parenthesis. -/
def close (p : Parser) (offset : Nat) : Except SyntaxError Parser := do
  p.ensureIdle offset
  match p.stack with
  | [] => .error ⟨.unmatchedParen, offset⟩
  | f :: rest =>
    if f.parenthesized then
      let node ← f.toNode
      return { p with stack := rest }.push node
    else .error ⟨.negationWithoutOperand, f.offset⟩

/-- Takes a token that is no parenthesis of a combinator. -/
def take (p : Parser) (lexeme : Lexeme) : Except SyntaxError Parser :=
  match lexeme.token with
  | .word text => p.operand (.word text) lexeme.offset
  | .integer value => p.operand (.literal (.integer value)) lexeme.offset
  | .quoted text => p.operand (.literal (.text text)) lexeme.offset
  | .op .has => p.membership lexeme.offset
  | .op operator => p.operator operator lexeme.offset
  | .leftParen => do
    p.ensureIdle lexeme.offset
    p.openGroup .bare lexeme.offset true
  | .rightParen => p.close lexeme.offset
  | .and => p.combinator .and lexeme.offset
  | .or => p.combinator .or lexeme.offset
  | .not => p.combinator .not lexeme.offset

/-- Takes the next lexeme.  Behind a combinator a parenthesis belongs to it, and only a negation
may do without. -/
def feed (p : Parser) (lexeme : Lexeme) : Except SyntaxError Parser :=
  if p.awaitingParen then
    let p := { p with awaitingParen := false }
    match p.stack with
    | [] => p.take lexeme
    | f :: rest =>
      if lexeme.token = .leftParen then
        .ok { p with stack := { f with parenthesized := true } :: rest }
      else if f.opening = .not then p.take lexeme
      else .error ⟨.parenWanted f.opening, lexeme.offset⟩
  else p.take lexeme

/-- The root group, when the text ends at byte `stop`. -/
def finish (p : Parser) (stop : Nat) : Except SyntaxError Group := do
  p.ensureIdle stop
  match p.stack with
  | [] => return ⟨.and, p.root⟩
  | f :: _ =>
    if f.parenthesized then .error ⟨.unclosedParen, f.offset⟩
    else if f.opening = .not then .error ⟨.negationWithoutOperand, f.offset⟩
    else .error ⟨.parenWanted f.opening, f.offset⟩

end Parser

/-- The root group of a scan whose text ends at byte `stop`: what the parser finds wrong in the
lexemes comes before the error that stopped the scan. -/
def Scan.parse (s : Scan) (stop : Nat) : Except SyntaxError Group := do
  let p ← s.lexemes.foldlM Parser.feed .initial
  match s.stop with
  | some e => .error e
  | none => p.finish stop

/-- Reads a query. -/
def parse (text : String) : Except SyntaxError Group := (scan text).parse text.utf8ByteSize

end PictureSearch.Query
