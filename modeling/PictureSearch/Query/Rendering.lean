import PictureSearch.Query.Lexer
import PictureSearch.Query.Tree

/-!
# Writing trees as queries

Every group is written with its combinator and with parentheses around each comparison in it; the
root of a query is written as its clauses side by side.
-/

namespace PictureSearch.Query

/-- Text that the lexer reads back as one bare word. -/
def isBareWord (s : String) : Bool :=
  match s.toList with
  | [] => false
  | c :: cs => isWordStart c && cs.all isWordChar

/-- A literal as it is written: bare if it is a word, else in the quotes that it does not hold.
Text read from a query never holds both. -/
def Literal.render : Literal → String
  | .integer n => toString n.toInt
  | .text s =>
    if isBareWord s then s
    else if s.toList.contains '"' then "'" ++ s ++ "'"
    else "\"" ++ s ++ "\""

def Compare.render (c : Compare) : String :=
  match c.op with
  | .has => c.value.render ++ "@" ++ c.attr
  | op => c.attr ++ op.symbol ++ c.value.render

mutual

def Node.render : Node → String
  | .compare c => c.render
  | .group kind children => kind.symbol ++ "(" ++ Node.renderInside children ++ ")"

/-- The children of a group, one behind the other. -/
def Node.renderInside : List Node → String
  | [] => ""
  | .compare c :: rest => "(" ++ c.render ++ ")" ++ Node.renderInside rest
  | .group kind children :: rest =>
    Node.render (.group kind children) ++ Node.renderInside rest

end

namespace Group

/-- The group with its combinator. -/
def render (g : Group) : String := g.toNode.render

/-- The clauses of the group side by side, as the text of a whole query. -/
def renderRoot (g : Group) : String := " ".intercalate (g.children.map Node.render)

end Group

end PictureSearch.Query
