import AppDriver.Config.Harness
import AppDriver.Lifecycle.Document

/-!
Configurations as document trees. A section that a document overrides takes the values of the
standard preset for the fields that it leaves out.
-/

namespace AppDriver

/-- The value with this name, among values with names. -/
def named (name : α → String) (values : List α) (s : String) : Option α :=
  values.find? fun v => name v == s

def InstanceOrder.name : InstanceOrder → String
  | .declared => "declared"
  | .kindRank => "kind_rank"

def InstanceOrder.decode : Decoder InstanceOrder :=
  Tree.asNamed (named InstanceOrder.name [.declared, .kindRank])

def CallbackPlacement.name : CallbackPlacement → String
  | .afterEachStep => "after_each_step"
  | .beforeTeardown => "before_teardown"

def CallbackPlacement.decode : Decoder CallbackPlacement :=
  Tree.asNamed (named CallbackPlacement.name [.afterEachStep, .beforeTeardown])

def HandlerPolicy.name : HandlerPolicy → String
  | .declared => "declared"
  | .byName => "by_name"

def HandlerPolicy.decode : Decoder HandlerPolicy :=
  Tree.asNamed (named HandlerPolicy.name [.declared, .byName])

namespace OrderingSection

def toTree (s : OrderingSection) : Tree :=
  .record [("instance_order", .text s.instanceOrder.name),
    ("callback_placement", .text s.callbackPlacement.name)]

def decode : Decoder OrderingSection := fun t => do
  let standard := ofPreset .standard
  let fs ← Fields.of? ["instance_order", "callback_placement"] true t
  let instanceOrder ←
    fs.withDefault "instance_order" InstanceOrder.decode standard.instanceOrder
  let callbackPlacement ←
    fs.withDefault "callback_placement" CallbackPlacement.decode standard.callbackPlacement
  return { instanceOrder, callbackPlacement }

end OrderingSection

namespace InterleavingSection

def toTree (s : InterleavingSection) : Tree :=
  .record [("unordered_passes", .natural s.unorderedPasses),
    ("include_active_lifecycle", .flag s.includeActiveLifecycle)]

def decode : Decoder InterleavingSection := fun t => do
  let standard := ofPreset .standard
  let fs ← Fields.of? ["unordered_passes", "include_active_lifecycle"] true t
  let unorderedPasses ← fs.withDefault "unordered_passes" Tree.asIndex standard.unorderedPasses
  let includeActiveLifecycle ←
    fs.withDefault "include_active_lifecycle" Tree.asFlag standard.includeActiveLifecycle
  return { unorderedPasses, includeActiveLifecycle }

end InterleavingSection

namespace HandlerSection

def toTree (s : HandlerSection) : Tree :=
  .record [("policy", .text s.policy.name),
    ("expand_listener_catalog", .flag s.expandListenerCatalog)]

def decode : Decoder HandlerSection := fun t => do
  let standard := ofPreset .standard
  let fs ← Fields.of? ["policy", "expand_listener_catalog"] true t
  let policy ← fs.withDefault "policy" HandlerPolicy.decode standard.policy
  let expandListenerCatalog ←
    fs.withDefault "expand_listener_catalog" Tree.asFlag standard.expandListenerCatalog
  return { policy, expandListenerCatalog }

end HandlerSection

namespace FabricationSection

def toTree (s : FabricationSection) : Tree :=
  .record [("array_length", .natural s.arrayLength),
    ("max_argument_fanout", .natural s.maxArgumentFanout),
    ("services", .record (s.services.map fun e => (e.1, .text e.2)))]

/-- A table in ascending order of its keys; of entries with one key the last counts. -/
def serviceTable (entries : List (String × String)) : List (String × String) :=
  entries.foldl (fun table e => insertEntry e.1 e.2 table) []

def decode : Decoder FabricationSection := fun t => do
  let standard := ofPreset .standard
  let fs ← Fields.of? ["array_length", "max_argument_fanout", "services"] true t
  let arrayLength ← fs.withDefault "array_length" Tree.asIndex standard.arrayLength
  let maxArgumentFanout ←
    fs.withDefault "max_argument_fanout" Tree.asIndex standard.maxArgumentFanout
  let services ← fs.withDefault "services" (Tree.asTable Tree.asText) standard.services
  return { arrayLength, maxArgumentFanout, services := serviceTable services }

end FabricationSection

namespace EmitSection

def toTree (s : EmitSection) : Tree :=
  .record [("harness_class", .text s.harnessClass), ("stubs_class", .text s.stubsClass),
    ("entry_method", .text s.entryMethod)]

def decode : Decoder EmitSection := fun t => do
  let fs ← Fields.of? ["harness_class", "stubs_class", "entry_method"] true t
  let harnessClass ← fs.withDefault "harness_class" Tree.asText standard.harnessClass
  let stubsClass ← fs.withDefault "stubs_class" Tree.asText standard.stubsClass
  let entryMethod ← fs.withDefault "entry_method" Tree.asText standard.entryMethod
  return { harnessClass, stubsClass, entryMethod }

end EmitSection

namespace LifecycleSection

def toTree (s : LifecycleSection) : Tree :=
  .record [("protocols", .list (s.protocols.map ProtocolDefinition.toTree))]

def decode : Decoder LifecycleSection := fun t => do
  let fs ← Fields.of? ["protocols"] true t
  let protocols ← fs.withDefault "protocols" (Tree.asList ProtocolDefinition.decode) []
  return { protocols }

end LifecycleSection

namespace HarnessConfig

/-- The overriding sections. -/
def overridesTree (c : HarnessConfig) : Tree :=
  .record (Tree.optionalField "ordering" OrderingSection.toTree c.ordering ++
    Tree.optionalField "interleaving" InterleavingSection.toTree c.interleaving ++
    Tree.optionalField "handlers" HandlerSection.toTree c.handlers ++
    Tree.optionalField "fabrication" FabricationSection.toTree c.fabrication ++
    Tree.optionalField "emit" EmitSection.toTree c.emit ++
    Tree.optionalField "lifecycle" LifecycleSection.toTree c.lifecycle)

/-- A configuration as a document of version 1. -/
def toTree (c : HarnessConfig) : Tree :=
  .record [("version", .natural 1), ("preset", .text c.preset.name),
    ("overrides", c.overridesTree)]

/-- The configuration of a preset with the sections of a document. -/
def decodeOverrides (preset : Preset) : Decoder HarnessConfig := fun t => do
  let fs ← Fields.of? ["ordering", "interleaving", "handlers", "fabrication", "emit", "lifecycle"]
    true t
  let ordering ← fs.optional "ordering" OrderingSection.decode
  let interleaving ← fs.optional "interleaving" InterleavingSection.decode
  let handlers ← fs.optional "handlers" HandlerSection.decode
  let fabrication ← fs.optional "fabrication" FabricationSection.decode
  let emit ← fs.optional "emit" EmitSection.decode
  let lifecycle ← fs.optional "lifecycle" LifecycleSection.decode
  return { preset, ordering, interleaving, handlers, fabrication, emit, lifecycle }

end HarnessConfig

/-- A configuration document: its version, the name of its preset, and the overriding sections, put
on the standard preset. -/
structure ConfigDocument where
  version : Option Nat
  preset : String
  overrides : HarnessConfig
deriving DecidableEq, Repr

namespace ConfigDocument

def decode : Decoder ConfigDocument := fun t => do
  let fs ← Fields.of? ["version", "preset", "overrides"] true t
  let version ← fs.optional "version" (Tree.asNatural 32)
  let preset ← fs.withDefault "preset" Tree.asText Preset.standard.name
  let overrides ← fs.optional "overrides" (HarnessConfig.decodeOverrides .standard)
  return { version, preset, overrides := overrides.getD {} }

/-- The configuration that a document stands for. -/
def config (d : ConfigDocument) : Except ConfigError HarnessConfig :=
  match d.version with
  | none => .error .missingVersion
  | some 1 =>
    match Preset.parse? d.preset with
    | none => .error (.unknownPreset d.preset)
    | some preset => .ok { d.overrides with preset }
  | some n => .error (.unsupportedVersion n)

end ConfigDocument

/-- The checked configuration in a document that has been read, if it could be read. -/
def ValidConfig.ofTree? (t : Option Tree) : Except ConfigError ValidConfig :=
  match t.bind ConfigDocument.decode with
  | none => .error .syntactic
  | some d =>
    match d.config with
    | .error e => .error e
    | .ok c => c.build

end AppDriver
