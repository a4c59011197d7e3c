/-!
# Tokens of the query language

What the text of a query is cut into.  A lexeme is a token with the byte offset of its first
character; offsets and positions count bytes of UTF-8 throughout.
-/

namespace PictureSearch.Query

/-- The operators as they are written. -/
inductive Operator
  | eq | neq | gt | lt | gte | lte | has
  deriving DecidableEq, Repr

def Operator.symbol : Operator → String
  | .eq => "="
  | .neq => "!="
  | .gt => ">"
  | .lt => "<"
  | .gte => ">="
  | .lte => "<="
  | .has => "@"

/-- What opens a group: a lone parenthesis or one of the combinators. -/
inductive Opening
  | bare | and | or | not
  deriving DecidableEq, Repr

def Opening.symbol : Opening → String
  | .bare => "("
  | .and => "&"
  | .or => "|"
  | .not => "!"

inductive Token
  | word (text : String)
  | integer (value : Int64)
  | quoted (text : String)
  | op (operator : Operator)
  | leftParen
  | rightParen
  | and
  | or
  | not
  deriving DecidableEq, Repr

structure Lexeme where
  token : Token
  offset : Nat
  deriving DecidableEq, Repr

end PictureSearch.Query
