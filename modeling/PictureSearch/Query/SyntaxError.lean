import PictureSearch.Query.Token
import PictureSearch.Text.Quoted

/-!
# Syntax errors

Why a text is no query, and the byte where that was noticed.
-/

namespace PictureSearch.Query

namespace SyntaxError

inductive Cause
  | unexpectedCharacter (c : Char)
  | quoteInWord
  | quoteInInteger
  | letterInInteger
  | wildcardInInteger
  | integerOutOfRange
  | unclosedQuote
  | missingOperator
  | missingValue (operator : Operator)
  | missingAttribute
  | attributeWantedAfterHas
  | attributeWantedBefore (operator : Operator)
  | strayOperator (operator : Operator)
  | wildcardInAttribute
  | wildcardWithHas
  | wildcardWithNeq
  | parenWanted (after : Opening)
  | unmatchedParen
  | unclosedParen
  | negationWithoutOperand
  | negationOfSeveral
  | tooDeep
  deriving DecidableEq, Repr

def Cause.message : Cause → String
  | .unexpectedCharacter c => "unexpected character " ++ Text.quotedChar c
  | .quoteInWord => "unexpected quote inside bare word"
  | .quoteInInteger => "unexpected quote inside integer literal"
  | .letterInInteger => "attempted to add alpha char to int"
  | .wildcardInInteger => "invalid '%' in integer literal"
  | .integerOutOfRange => "integer literal out of range"
  | .unclosedQuote => "missing closing quote"
  | .missingOperator => "missing operator"
  | .missingValue op => "missing value after '" ++ op.symbol ++ "'"
  | .missingAttribute => "missing attribute after '@'"
  | .attributeWantedAfterHas => "expected attribute name after '@'"
  | .attributeWantedBefore op => "expected attribute name before '" ++ op.symbol ++ "'"
  | .strayOperator op => "stray '" ++ op.symbol ++ "'"
  | .wildcardInAttribute => "invalid '%' in attribute name"
  | .wildcardWithHas => "wildcard values cannot be used with '@'"
  | .wildcardWithNeq => "wildcard values cannot be used with '!='"
  | .parenWanted opening => "expected '(' after '" ++ opening.symbol ++ "'"
  | .unmatchedParen => "unmatched ')'"
  | .unclosedParen => "unclosed '('"
  | .negationWithoutOperand => "'!' requires an operand"
  | .negationOfSeveral => "'!' requires exactly one operand"
  | .tooDeep => "query nested too deeply"

end SyntaxError

/-- A cause and the byte offset where it was noticed. -/
structure SyntaxError where
  cause : SyntaxError.Cause
  position : Nat
  deriving DecidableEq, Repr

namespace SyntaxError

def message (e : SyntaxError) : String := e.cause.message

/-- The message with its position. -/
def display (e : SyntaxError) : String :=
  e.message ++ " (at byte " ++ toString e.position ++ ")"

end SyntaxError

end PictureSearch.Query
