import PictureSearch.Catalog.Attribute
import PictureSearch.Catalog.Record
import PictureSearch.Query.Tree
import PictureSearch.Text.Quoted

/-!
# Predicates

What a query asks of a picture, with names resolved and values of the right type.
-/

namespace PictureSearch

open Query

/-- The right-hand side of a comparison. -/
inductive Value
  | integer (n : Int64)
  | text (s : String)
  deriving DecidableEq, Repr

def Value.display : Value → String
  | .integer n => toString n.toInt
  | .text s => Text.quoted s

/-- A test of one picture. -/
inductive Test
  /-- The picture lies in a library that the viewer may see. -/
  | visible (viewer : ViewerId)
  | compare (attr : Attribute) (op : Op) (value : Value)
  | like (attr : Attribute) (pattern : String)
  | contains (attr : Attribute) (value : String)
  deriving DecidableEq, Repr

def Test.display : Test → String
  | .visible viewer => "visible_to(" ++ viewer.display ++ ")"
  | .compare attr op value => attr.text ++ " " ++ op.symbol ++ " " ++ value.display
  | .like attr pattern => attr.text ++ " like " ++ Text.quoted pattern
  | .contains attr value => Text.quoted value ++ " in " ++ attr.text

inductive Predicate
  | all
  | test (t : Test)
  | and (parts : List Predicate)
  | or (parts : List Predicate)
  | not (inner : Predicate)
  deriving Repr, Inhabited

namespace Predicate

mutual

def display : Predicate → String
  | .all => "true"
  | .test t => t.display
  | .and parts => "(" ++ displayAll " and " parts ++ ")"
  | .or parts => "(" ++ displayAll " or " parts ++ ")"
  | .not inner => "not " ++ inner.display

/-- The parts with a separator between them. -/
def displayAll (separator : String) : List Predicate → String
  | [] => ""
  | [p] => p.display
  | p :: rest => p.display ++ separator ++ displayAll separator rest

end

end Predicate

end PictureSearch
