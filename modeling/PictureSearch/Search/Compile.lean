import PictureSearch.Query.Parser
import PictureSearch.Query.Rendering
import PictureSearch.Search.ExecutionError
import PictureSearch.Search.Pattern
import PictureSearch.Search.Predicate

/-!
# Compiling queries

A tree becomes a predicate: names are looked up among the attributes that the catalog exposes,
operands are checked and values get their types.  Of several faults the leftmost is reported.
-/

namespace PictureSearch

open Query

/-- The exposed attribute of a name. -/
def resolve (exposed : List Attribute) (name : String) : Except ExecutionError Attribute :=
  match Attribute.ofText? name with
  | some attr => if attr ∈ exposed then .ok attr else .error (.unknownAttribute name)
  | none => .error (.unknownAttribute name)

/-- The text of a literal; a number gives its digits. -/
def Query.Literal.operandText : Literal → String
  | .text s => s
  | .integer n => toString n.toInt

/-- The test of a comparison whose operands have been checked. -/
def compileTest (attr : Attribute) (op : Op) (value : Literal) : Except ExecutionError Test :=
  match op with
  | .has => .ok (.contains attr value.operandText)
  | .like =>
    if Pattern.isTooLarge value.operandText then .error (.invalidPattern value.operandText)
    else .ok (.like attr value.operandText)
  | op =>
    match attr.kind, value.integer? with
    | .integer, some n => .ok (.compare attr op (.integer n))
    | _, _ => .ok (.compare attr op (.text value.operandText))

def compileCompare (exposed : List Attribute) (c : Compare) : Except ExecutionError Predicate := do
  let attr ← resolve exposed c.attr
  checkOperands attr c.op c.value
  let test ← compileTest attr c.op c.value
  return .test test

/-- A conjunction; without parts it holds of everything. -/
def Predicate.conjunction : List Predicate → Predicate
  | [] => .all
  | parts => .and parts

/-- The predicate of a group.  A Not group built by hand with other than one child denies the
conjunction of its children. -/
def Predicate.ofGroup : GroupKind → List Predicate → Predicate
  | .and, parts => .conjunction parts
  | .or, parts => .or parts
  | .not, [part] => .not part
  | .not, parts => .not (.conjunction parts)

mutual

def compileNode (exposed : List Attribute) : Node → Except ExecutionError Predicate
  | .compare c => compileCompare exposed c
  | .group kind children => (compileNodes exposed children).map (Predicate.ofGroup kind)

/-- The predicates of nodes, from left to right. -/
def compileNodes (exposed : List Attribute) : List Node → Except ExecutionError (List Predicate)
  | [] => .ok []
  | n :: rest =>
    match compileNode exposed n with
    | .error e => .error e
    | .ok p => (compileNodes exposed rest).map (p :: ·)

end

/-- The predicate of a root group, confined to what a viewer may see. -/
def compile (exposed : List Attribute) (root : Group) (viewer : ViewerId) :
    Except ExecutionError Predicate :=
  (compileNode exposed root.toNode).map fun p => .and [.test (.visible viewer), p]

/-- The predicate of the text of a query. -/
def compileText (exposed : List Attribute) (text : String) (viewer : ViewerId) :
    Except QueryError Predicate :=
  match Query.parse text with
  | .error e => .error (.parsing e)
  | .ok root => (compile exposed root viewer).mapError .execution

end PictureSearch
