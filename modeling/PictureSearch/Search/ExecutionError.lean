import PictureSearch.Catalog.Attribute
import PictureSearch.Query.SyntaxError
import PictureSearch.Query.Tree

/-!
# Execution errors

Why a well-formed query cannot run, and which operands an attribute allows.
-/

namespace PictureSearch

open Query

/-- What a comparison wants or meets in place of it. -/
inductive OperandKind
  | membershipTest
  | scalarComparison
  | stringPattern
  | integer
  | string
  deriving DecidableEq, Repr

def OperandKind.text : OperandKind → String
  | .membershipTest => "a membership test"
  | .scalarComparison => "a scalar comparison"
  | .stringPattern => "string pattern"
  | .integer => "integer"
  | .string => "string"

/-- The kind of operand that a literal is. -/
@[simp] def OperandKind.ofLiteral : Literal → OperandKind
  | .integer _ => .integer
  | .text _ => .string

/-- The type of a literal as messages name it. -/
def Query.Literal.typeName (l : Literal) : String := (OperandKind.ofLiteral l).text

inductive ExecutionError
  | unknownAttribute (name : String)
  | typeMismatch (attr : Attribute) (expected found : OperandKind)
  | unsupportedOperator (attr : Attribute) (op : Op) (kind : AttributeKind)
  | invalidPattern (pattern : String)
  deriving DecidableEq, Repr

namespace ExecutionError

/-- What is said of a pattern that is refused for its size. -/
def patternTooLarge : String := "Compiled regex exceeds size limit of 10485760 bytes."

def message : ExecutionError → String
  | .unknownAttribute name => "unknown attribute '" ++ name ++ "'"
  | .typeMismatch attr expected found =>
    "attribute '" ++ attr.text ++ "' expects " ++ expected.text ++ ", found " ++ found.text
  | .unsupportedOperator attr op kind =>
    "operator '" ++ op.display ++ "' is not supported on " ++ kind.name ++ " attribute '" ++
      attr.text ++ "'"
  | .invalidPattern pattern => "invalid pattern '" ++ pattern ++ "': " ++ patternTooLarge

end ExecutionError

/-- Why the text of a query gives no result. -/
inductive QueryError
  | parsing (e : SyntaxError)
  | execution (e : ExecutionError)
  deriving DecidableEq, Repr

def QueryError.display : QueryError → String
  | .parsing e => "syntax error: " ++ e.display
  | .execution e => "cannot execute query: " ++ e.message

/-- Whether an attribute may stand in a comparison with an operator and a value: several values
only in a membership test, one value in no such test, and numbers only beside numbers. -/
def checkOperands (attr : Attribute) (op : Op) (value : Literal) : Except ExecutionError Unit :=
  match attr.kind, op with
  | .set, .has => .ok ()
  | .set, _ => .error (.typeMismatch attr .membershipTest .scalarComparison)
  | kind, .has => .error (.unsupportedOperator attr .has kind)
  | .integer, .like => .error (.typeMismatch attr .integer .stringPattern)
  | .integer, _ =>
    match value.integer? with
    | some _ => .ok ()
    | none => .error (.typeMismatch attr .integer (.ofLiteral value))
  | .text, _ => .ok ()

end PictureSearch
