/-!
# Query trees

A comparison relates an attribute to a literal; groups combine comparisons.  The root of a parsed
query is always an And group of its top-level clauses in the order they were written, but any
group can be built by hand.
-/

namespace PictureSearch.Query

/-! ## Literals and comparisons -/

/-- The value of a comparison.  Its first character decides its kind: a digit starts an integer;
a letter, an underscore, a per cent sign and a quote start text. -/
inductive Literal
  | integer (value : Int64)
  | text (value : String)
  deriving DecidableEq, Repr

namespace Literal

/-- Whether a text starts or ends with a per cent sign. -/
def isWildcardText (s : String) : Bool :=
  s.toList.head? == some '%' || s.toList.getLast? == some '%'

/-- Text that starts or ends with a per cent sign is a pattern. -/
def isWildcard : Literal → Bool
  | .integer _ => false
  | .text s => isWildcardText s

def text? : Literal → Option String
  | .integer _ => none
  | .text s => some s

@[simp] def integer? : Literal → Option Int64
  | .integer n => some n
  | .text _ => none

end Literal

/-- The relation a comparison asks for. -/
inductive Op
  | eq | neq | gt | lt | gte | lte
  /-- Matching a pattern; asked for by a per cent sign at either end of the text. -/
  | like
  /-- Membership. -/
  | has
  deriving DecidableEq, Repr

namespace Op

/-- The operator as it is written in a query. -/
def symbol : Op → String
  | .eq => "="
  | .neq => "!="
  | .gt => ">"
  | .lt => "<"
  | .gte => ">="
  | .lte => "<="
  | .like => "="
  | .has => "@"

/-- The operator as messages show it. -/
def display : Op → String
  | .like => "like"
  | op => op.symbol

end Op

structure Compare where
  attr : String
  op : Op
  value : Literal
  deriving DecidableEq, Repr

/-! ## Groups -/

inductive GroupKind
  | and | or
  /-- Holds one child, except in groups built by hand. -/
  | not
  deriving DecidableEq, Repr

def GroupKind.symbol : GroupKind → String
  | .and => "&"
  | .or => "|"
  | .not => "!"

inductive Node
  | compare (c : Compare)
  | group (kind : GroupKind) (children : List Node)
  deriving Repr

structure Group where
  kind : GroupKind
  children : List Node
  deriving Repr

namespace Group

def ofNode (n : Node) : Group := ⟨.and, [n]⟩

def toNode (g : Group) : Node := .group g.kind g.children

def isEmpty (g : Group) : Bool := g.children.isEmpty

end Group

/-! ## Equality -/

mutual

def Node.decEq : (a b : Node) → Decidable (a = b)
  | .compare c, .compare d =>
    if h : c = d then .isTrue (h ▸ rfl) else .isFalse fun e => h (Node.compare.inj e)
  | .group k xs, .group l ys =>
    if h : k = l then
      match Node.decEqList xs ys with
      | .isTrue e => .isTrue (h ▸ e ▸ rfl)
      | .isFalse n => .isFalse fun e => n (Node.group.inj e).2
    else .isFalse fun e => h (Node.group.inj e).1
  | .compare _, .group _ _ => .isFalse nofun
  | .group _ _, .compare _ => .isFalse nofun

def Node.decEqList : (xs ys : List Node) → Decidable (xs = ys)
  | [], [] => .isTrue rfl
  | x :: xs, y :: ys =>
    match Node.decEq x y, Node.decEqList xs ys with
    | .isTrue e, .isTrue f => .isTrue (e ▸ f ▸ rfl)
    | .isFalse n, _ => .isFalse fun e => n (List.cons.inj e).1
    | _, .isFalse n => .isFalse fun e => n (List.cons.inj e).2
  | [], _ :: _ => .isFalse nofun
  | _ :: _, [] => .isFalse nofun

end

instance : DecidableEq Node := Node.decEq

deriving instance DecidableEq for Group

end PictureSearch.Query
