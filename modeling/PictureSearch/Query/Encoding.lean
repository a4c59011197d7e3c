import PictureSearch.Json.Spelling
import PictureSearch.Query.Tree

/-!
# Trees as JSON
-/

namespace PictureSearch.Query

def Literal.toJson : Literal → Json
  | .integer n => .ofMembers [("Integer", .ofInt n.toInt)]
  | .text s => .ofMembers [("String", .ofText s)]

def Op.name : Op → String
  | .eq => "Eq"
  | .neq => "Neq"
  | .gt => "Gt"
  | .lt => "Lt"
  | .gte => "Gte"
  | .lte => "Lte"
  | .like => "Like"
  | .has => "Has"

def GroupKind.name : GroupKind → String
  | .and => "And"
  | .or => "Or"
  | .not => "Not"

def Compare.toJson (c : Compare) : Json :=
  .ofMembers [("attribute", .ofText c.attr), ("op", .ofText c.op.name), ("value", c.value.toJson)]

mutual

def Node.toJson : Node → Json
  | .compare c => .ofMembers [("Compare", c.toJson)]
  | .group kind children =>
    .ofMembers [("Group", .ofMembers
      [("kind", .ofText kind.name), ("children", .array (Node.toJsons children))])]

def Node.toJsons : List Node → List Json
  | [] => []
  | n :: rest => n.toJson :: Node.toJsons rest

end

def Group.toJson (g : Group) : Json :=
  .ofMembers [("kind", .ofText g.kind.name), ("children", .array (Node.toJsons g.children))]

end PictureSearch.Query
