import AppDriver.Document.Decode
import AppDriver.Facts

/-!
Facts as document trees. Writing leaves out what is absent where the reader supplies it; reading a
written document gives the facts back.
-/

namespace AppDriver

/-- Identifiers have 32 bits. -/
def Tree.asId : Decoder ResourceId := Tree.asNatural 32

/-- Indices and lengths have 64 bits. -/
def Tree.asIndex : Decoder Nat := Tree.asNatural 64

namespace TypeName

def toTree (t : TypeName) : Tree := .text t.text

/-- A type name inside a document is taken as it stands. -/
def decode : Decoder TypeName := fun t => (Tree.asText t).map (⟨·⟩)

end TypeName

namespace Signature

def toTree (m : Signature) : Tree :=
  .record ([("name", .text m.name), ("params", .list (m.params.map TypeName.toTree))] ++
    Tree.optionalField "returns" TypeName.toTree m.returns)

def decode : Decoder Signature := fun t => do
  let fs ← Fields.of? ["name", "params", "returns"] false t
  let name ← fs.required "name" Tree.asText
  let params ← fs.withDefault "params" (Tree.asList TypeName.decode) []
  let returns ← fs.optional "returns" TypeName.decode
  return { name, params, returns }

end Signature

namespace AccessorStep

def toTree (s : AccessorStep) : Tree :=
  .record [("method", .text s.method), ("returns", s.returns.toTree)]

def decode : Decoder AccessorStep := fun t => do
  let fs ← Fields.of? ["method", "returns"] false t
  let method ← fs.required "method" Tree.asText
  let returns ← fs.required "returns" TypeName.decode
  return { method, returns }

end AccessorStep

namespace ArgumentSource

def toTree : ArgumentSource → Tree
  | .identifier id => .record [("kind", .text "identifier"), ("id", .natural id)]
  | .accessor id chain =>
    .record [("kind", .text "accessor"), ("id", .natural id),
      ("chain", .list (chain.map AccessorStep.toTree))]
  | .component name => .record [("kind", .text "component"), ("class", name.toTree)]

/-- The source with a given tag. -/
def ofTagged (tag : String) (fs : Fields) : Option ArgumentSource :=
  match tag with
  | "identifier" => do
    let fs ← Fields.of? ["id"] false (.record fs)
    return .identifier (← fs.required "id" Tree.asId)
  | "accessor" => do
    let fs ← Fields.of? ["id", "chain"] false (.record fs)
    let id ← fs.required "id" Tree.asId
    let chain ← fs.required "chain" (Tree.asList AccessorStep.decode)
    return .accessor id chain
  | "component" => do
    let fs ← Fields.of? ["class"] false (.record fs)
    return .component (← fs.required "class" TypeName.decode)
  | _ => none

def decode : Decoder ArgumentSource := fun t =>
  (t.tagged? "kind").bind fun (tag, fs) => ofTagged tag fs

end ArgumentSource

namespace ParamBinding

def toTree (b : ParamBinding) : Tree :=
  .record (Tree.optionalField "method" Tree.text b.method ++
    [("index", .natural b.index), ("source", b.source.toTree)])

def decode : Decoder ParamBinding := fun t => do
  let fs ← Fields.of? ["method", "index", "source"] false t
  let method ← fs.optional "method" Tree.asText
  let index ← fs.required "index" Tree.asIndex
  let source ← fs.required "source" ArgumentSource.decode
  return { method, index, source }

end ParamBinding

namespace ListenerImpl

def toTree (l : ListenerImpl) : Tree :=
  .record [("interface", l.interface.toTree), ("methods", .list (l.methods.map Signature.toTree)),
    ("registered_on", .list (l.registeredOn.map Tree.natural)),
    ("bindings", .list (l.bindings.map ParamBinding.toTree))]

def decode : Decoder ListenerImpl := fun t => do
  let fs ← Fields.of? ["interface", "methods", "registered_on", "bindings"] false t
  let interface ← fs.required "interface" TypeName.decode
  let methods ← fs.withDefault "methods" (Tree.asList Signature.decode) []
  let registeredOn ← fs.withDefault "registered_on" (Tree.asList Tree.asId) []
  let bindings ← fs.withDefault "bindings" (Tree.asList ParamBinding.decode) []
  return { interface, methods, registeredOn, bindings }

end ListenerImpl

namespace ComponentKind

def toTree (k : ComponentKind) : Tree := .text k.name

def decode : Decoder ComponentKind := Tree.asNamed ofName?

end ComponentKind

namespace Component

def toTree (c : Component) : Tree :=
  .record ([("name", c.name.toTree), ("kind", c.kind.toTree)] ++
    Tree.optionalField "superclass" TypeName.toTree c.superclass ++
    [("constructor_params", .list (c.constructorParams.map TypeName.toTree)),
     ("lifecycle", .list (c.lifecycle.map Signature.toTree)),
     ("listeners", .list (c.listeners.map ListenerImpl.toTree)),
     ("handlers", .texts c.handlers),
     ("methods", .list (c.methods.map Signature.toTree)),
     ("bindings", .list (c.bindings.map ParamBinding.toTree))])

def decode : Decoder Component := fun t => do
  let fs ← Fields.of? ["name", "kind", "superclass", "constructor_params", "lifecycle",
    "listeners", "handlers", "methods", "bindings"] false t
  let name ← fs.required "name" TypeName.decode
  let kind ← fs.required "kind" ComponentKind.decode
  let superclass ← fs.optional "superclass" TypeName.decode
  let constructorParams ←
    fs.withDefault "constructor_params" (Tree.asList TypeName.decode) []
  let lifecycle ← fs.withDefault "lifecycle" (Tree.asList Signature.decode) []
  let listeners ← fs.withDefault "listeners" (Tree.asList ListenerImpl.decode) []
  let handlers ← fs.withDefault "handlers" (Tree.asList Tree.asText) []
  let methods ← fs.withDefault "methods" (Tree.asList Signature.decode) []
  let bindings ← fs.withDefault "bindings" (Tree.asList ParamBinding.decode) []
  return { name, kind, superclass, constructorParams, lifecycle, listeners, handlers, methods,
           bindings }

end Component

namespace IdentifierBinding

def toTree (b : IdentifierBinding) : Tree :=
  .record ([("id", .natural b.id), ("declared_type", b.declaredType.toTree)] ++
    Tree.optionalField "name" Tree.text b.name ++ Tree.optionalField "scope" Tree.text b.scope)

def decode : Decoder IdentifierBinding := fun t => do
  let fs ← Fields.of? ["id", "declared_type", "name", "scope"] false t
  let id ← fs.required "id" Tree.asId
  let declaredType ← fs.required "declared_type" TypeName.decode
  let name ← fs.optional "name" Tree.asText
  let scope ← fs.optional "scope" Tree.asText
  return { id, declaredType, name, scope }

end IdentifierBinding

namespace HandlerBinding

def toTree (b : HandlerBinding) : Tree :=
  .record (Tree.optionalField "component" TypeName.toTree b.component ++
    [("method", .text b.method), ("identifier", .natural b.identifier)])

def decode : Decoder HandlerBinding := fun t => do
  let fs ← Fields.of? ["component", "method", "identifier"] false t
  let component ← fs.optional "component" TypeName.decode
  let method ← fs.required "method" Tree.asText
  let identifier ← fs.required "identifier" Tree.asId
  return { component, method, identifier }

end HandlerBinding

namespace Facts

def toTree (d : Facts) : Tree :=
  .record ([("version", .natural d.version)] ++ Tree.optionalField "app" Tree.text d.app ++
    [("components", .list (d.components.map Component.toTree)),
     ("identifiers", .list (d.identifiers.map IdentifierBinding.toTree)),
     ("handlers", .list (d.handlers.map HandlerBinding.toTree))] ++
    if d.services.isEmpty then [] else [("services", .texts d.services)])

def decode : Decoder Facts := fun t => do
  let fs ← Fields.of? ["version", "app", "components", "identifiers", "handlers", "services"]
    true t
  let version ← fs.required "version" (Tree.asNatural 32)
  let app ← fs.optional "app" Tree.asText
  let components ← fs.withDefault "components" (Tree.asList Component.decode) []
  let identifiers ← fs.withDefault "identifiers" (Tree.asList IdentifierBinding.decode) []
  let handlers ← fs.withDefault "handlers" (Tree.asList HandlerBinding.decode) []
  let services ← fs.withDefault "services" (Tree.asList Tree.asText) []
  return { version, app, components, identifiers, handlers, services }

/-- The accepted facts in a document that has been read, if it could be read. -/
def ofTree? (t : Option Tree) : Except FactsError Facts :=
  match t.bind decode with
  | none => .error .syntactic
  | some d =>
    match d.fault? with
    | some e => .error e
    | none => .ok d

end Facts
end AppDriver
