import AppDriver.Facts.Document
import AppDriver.StandIn.Recipe
import AppDriver.StandIn.Registry

/-!
Stand-ins, recipes and degradations as document trees.
-/

namespace AppDriver

namespace StandInRef

def toTree (r : StandInRef) : Tree := .natural r.index

def decode : Decoder StandInRef := fun t => (Tree.asNatural 32 t).map (⟨·⟩)

end StandInRef

namespace Origin

def toTree : Origin → Tree
  | .identifier id => .record [("kind", .text "identifier"), ("id", .natural id)]
  | .unresolved id =>
    .record [("kind", .text "unresolved"), ("id", Tree.ofOption Tree.natural id)]
  | .ambient => .record [("kind", .text "ambient")]
  | .component kind => .record [("kind", .text "component"), ("component", kind.toTree)]
  | .derived parent accessor =>
    .record [("kind", .text "derived"), ("parent", parent.toTree), ("accessor", .text accessor)]
  | .value => .record [("kind", .text "value")]

/-- The origin with a given tag. -/
def ofTagged (tag : String) (fs : Fields) : Option Origin :=
  match tag with
  | "identifier" => do
    let fs ← Fields.of? ["id"] false (.record fs)
    return .identifier (← fs.required "id" Tree.asId)
  | "unresolved" => do
    let fs ← Fields.of? ["id"] false (.record fs)
    return .unresolved (← fs.optional "id" Tree.asId)
  | "ambient" => some .ambient
  | "component" => do
    let fs ← Fields.of? ["component"] false (.record fs)
    return .component (← fs.required "component" ComponentKind.decode)
  | "derived" => do
    let fs ← Fields.of? ["parent", "accessor"] false (.record fs)
    let parent ← fs.required "parent" StandInRef.decode
    let accessor ← fs.required "accessor" Tree.asText
    return .derived parent accessor
  | "value" => some .value
  | _ => none

def decode : Decoder Origin := fun t =>
  (t.tagged? "kind").bind fun (tag, fs) => ofTagged tag fs

end Origin

namespace Construction

def refs (rs : List StandInRef) : Tree := .list (rs.map StandInRef.toTree)

def toTree : Construction → Tree
  | .constructor args => .record [("kind", .text "constructor"), ("args", refs args)]
  | .staticFactory owner method args =>
    .record [("kind", .text "static_factory"), ("owner", owner.toTree), ("method", .text method),
      ("args", refs args)]
  | .staticField owner field =>
    .record [("kind", .text "static_field"), ("owner", owner.toTree), ("field", .text field)]
  | .accessor receiver method =>
    .record [("kind", .text "accessor"), ("receiver", receiver.toTree), ("method", .text method)]
  | .array element length =>
    .record [("kind", .text "array"), ("element", element.toTree), ("length", .natural length)]
  | .defaultValue => .record [("kind", .text "default_value")]
  | .degenerate => .record [("kind", .text "degenerate")]

/-- The construction with a given tag. -/
def ofTagged (tag : String) (fs : Fields) : Option Construction :=
  match tag with
  | "constructor" => do
    let fs ← Fields.of? ["args"] false (.record fs)
    return .constructor (← fs.required "args" (Tree.asList StandInRef.decode))
  | "static_factory" => do
    let fs ← Fields.of? ["owner", "method", "args"] false (.record fs)
    let owner ← fs.required "owner" TypeName.decode
    let method ← fs.required "method" Tree.asText
    let args ← fs.required "args" (Tree.asList StandInRef.decode)
    return .staticFactory owner method args
  | "static_field" => do
    let fs ← Fields.of? ["owner", "field"] false (.record fs)
    let owner ← fs.required "owner" TypeName.decode
    let field ← fs.required "field" Tree.asText
    return .staticField owner field
  | "accessor" => do
    let fs ← Fields.of? ["receiver", "method"] false (.record fs)
    let receiver ← fs.required "receiver" StandInRef.decode
    let method ← fs.required "method" Tree.asText
    return .accessor receiver method
  | "array" => do
    let fs ← Fields.of? ["element", "length"] false (.record fs)
    let element ← fs.required "element" TypeName.decode
    let length ← fs.required "length" Tree.asIndex
    return .array element length
  | "default_value" => some .defaultValue
  | "degenerate" => some .degenerate
  | _ => none

def decode : Decoder Construction := fun t =>
  (t.tagged? "kind").bind fun (tag, fs) => ofTagged tag fs

end Construction

namespace StandIn

def toTree (s : StandIn) : Tree :=
  .record [("id", s.id.toTree), ("type_name", s.typeName.toTree), ("origin", s.origin.toTree),
    ("construction", s.construction.toTree), ("label", .text s.label)]

def decode : Decoder StandIn := fun t => do
  let fs ← Fields.of? ["id", "type_name", "origin", "construction", "label"] false t
  let id ← fs.required "id" StandInRef.decode
  let typeName ← fs.required "type_name" TypeName.decode
  let origin ← fs.required "origin" Origin.decode
  let construction ← fs.required "construction" Construction.decode
  let label ← fs.required "label" Tree.asText
  return { id, typeName, origin, construction, label }

end StandIn

def Degradation.toTree (d : Degradation) : Tree :=
  .record [("stand_in", d.standIn.toTree), ("subject", .text d.subject),
    ("reason", .text d.reason.name)]

end AppDriver
