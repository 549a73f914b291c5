import AppDriver.Config.Preset
import AppDriver.Lifecycle.Definition
import AppDriver.StandIn.Recipe

/-!
The sections of a configuration. Each section has the values of every preset and the conditions
under which its values are accepted.
-/

namespace AppDriver

/-- The order in which components are driven: as declared, or by the rank of their kind. -/
inductive InstanceOrder where
  | declared | kindRank
deriving DecidableEq, Repr

/-- Where a component's callbacks run: after every step of creation and activity, or once before the
teardown. -/
inductive CallbackPlacement where
  | afterEachStep | beforeTeardown
deriving DecidableEq, Repr

/-- Which components an unscoped handler binding reaches: those that list the handler, or those that
declare any method of its name. -/
inductive HandlerPolicy where
  | declared | byName
deriving DecidableEq, Repr

/-- Why a configuration is rejected. -/
inductive ConfigError where
  | unreadable
  | syntactic
  | missingVersion
  | unsupportedVersion (found : Nat)
  | unknownPreset (name : String)
  | passesOutOfRange (value : Nat)
  | arrayLengthOutOfRange (value : Nat)
  | fanoutOutOfRange (value : Nat)
  | incompleteService (name : String)
  | invalidClass (field value : String)
  | invalidMethod (value : String)
  | equalClasses
  | protocol (error : ProtocolError)
  | repeatedProtocol (kind : ComponentKind)
deriving DecidableEq, Repr

/-! The greatest values that the sections accept; the least is 1. -/

def Limit.passes : Nat := 16
def Limit.arrayLength : Nat := 64
def Limit.fanout : Nat := 32

namespace ConfigError

def rangeMessage (field : String) (value max : Nat) (hint : String) : String :=
  "Invalid range for field '" ++ field ++ "': " ++ toString value ++ " not in 1..=" ++
    toString max ++ ". " ++ hint

/-- The text of a rejection, absent where it only repeats what a reader of the text reports. -/
def message : ConfigError → Option String
  | .unreadable | .syntactic => none
  | .missingVersion =>
    some ("Missing 'version' field in configuration file. " ++
      "Add 'version: 1' to the top of your YAML file.")
  | .unsupportedVersion n =>
    some ("Unsupported configuration version " ++ toString n ++ ". Supported versions: 1")
  | .unknownPreset s => some (Preset.unknownMessage s)
  | .passesOutOfRange n =>
    some (rangeMessage "unordered_passes" n Limit.passes
      "At least one unordered pass is required to expose every callback")
  | .arrayLengthOutOfRange n =>
    some (rangeMessage "array_length" n Limit.arrayLength
      "Arrays need at least one element so element reads are reachable")
  | .fanoutOutOfRange n =>
    some (rangeMessage "max_argument_fanout" n Limit.fanout
      "Each parameter needs at least one argument")
  | .incompleteService name =>
    some ("Validation error: service mapping '" ++ name ++ "' needs a non-empty name and type")
  | .invalidClass field value =>
    some ("Validation error: " ++ field ++ " '" ++ value ++
      "' is not a qualified Java class name")
  | .invalidMethod value =>
    some ("Validation error: entry_method '" ++ value ++ "' is not a Java identifier")
  | .equalClasses => some "Validation error: harness_class and stubs_class must differ"
  | .protocol e => some ("Validation error: " ++ e.message.getD "")
  | .repeatedProtocol k =>
    some ("Validation error: more than one custom lifecycle protocol for " ++ k.name)

end ConfigError

/-- The order of components and of their callbacks. -/
structure OrderingSection where
  instanceOrder : InstanceOrder
  callbackPlacement : CallbackPlacement
deriving DecidableEq, Repr

def OrderingSection.ofPreset : Preset → OrderingSection
  | .minimal => ⟨.kindRank, .beforeTeardown⟩
  | .balanced | .exhaustive => ⟨.kindRank, .afterEachStep⟩

/-- The unordered section: how often it is repeated, and whether active lifecycle methods are
entered again in it. -/
structure InterleavingSection where
  unorderedPasses : Nat
  includeActiveLifecycle : Bool
deriving DecidableEq, Repr

namespace InterleavingSection

def ofPreset : Preset → InterleavingSection
  | .minimal | .balanced => ⟨1, false⟩
  | .exhaustive => ⟨2, true⟩

def fault? (s : InterleavingSection) : Option ConfigError :=
  if s.unorderedPasses = 0 ∨ Limit.passes < s.unorderedPasses then
    some (.passesOutOfRange s.unorderedPasses)
  else none

end InterleavingSection

/-- The discovery of handlers and listener methods. -/
structure HandlerSection where
  policy : HandlerPolicy
  expandListenerCatalog : Bool
deriving DecidableEq, Repr

def HandlerSection.ofPreset : Preset → HandlerSection
  | .minimal => ⟨.declared, true⟩
  | .balanced | .exhaustive => ⟨.byName, true⟩

/-- The fabrication of stand-ins and arguments. The services are extra `getSystemService` names with
their types, in ascending order of their names. -/
structure FabricationSection where
  arrayLength : Nat
  maxArgumentFanout : Nat
  services : List (String × String) := []
deriving DecidableEq, Repr

/-- Puts an entry into a table in ascending order of its keys, in place of the one of its key. -/
def insertEntry (k : String) (v : α) : List (String × α) → List (String × α)
  | [] => [(k, v)]
  | (k', v') :: table =>
    if k = k' then (k, v) :: table
    else if k < k' then (k, v) :: (k', v') :: table
    else (k', v') :: insertEntry k v table

namespace FabricationSection

def ofPreset : Preset → FabricationSection
  | .minimal => ⟨1, 1, []⟩
  | .balanced => ⟨1, 4, []⟩
  | .exhaustive => ⟨1, 16, []⟩

/-- Adds a service, in place of the one of its name if there is one. -/
def withService (s : FabricationSection) (name type : String) : FabricationSection :=
  { s with services := insertEntry name type s.services }

def fault? (s : FabricationSection) : Option ConfigError :=
  if s.arrayLength = 0 ∨ Limit.arrayLength < s.arrayLength then
    some (.arrayLengthOutOfRange s.arrayLength)
  else if s.maxArgumentFanout = 0 ∨ Limit.fanout < s.maxArgumentFanout then
    some (.fanoutOutOfRange s.maxArgumentFanout)
  else (s.services.find? fun e => e.1.isEmpty || e.2.isEmpty).map fun e =>
    .incompleteService e.1

end FabricationSection

/-- Whether a character can start an identifier. -/
def isIdentifierStart (c : Char) : Bool := c.isAlpha || c == '_' || c == '$'

/-- Whether a text is an identifier: ASCII letters, digits, `_` and `$`, not starting with a digit. -/
def isIdentifier : List Char → Bool
  | [] => false
  | c :: cs => isIdentifierStart c && cs.all fun c => isIdentifierStart c || c.isDigit

/-- The segments of a text between the occurrences of a separator, at least one. -/
def segments (sep : Char) : List Char → List (List Char)
  | [] => [[]]
  | c :: cs =>
    if c = sep then [] :: segments sep cs
    else match segments sep cs with
      | [] => [[c]]
      | s :: ss => (c :: s) :: ss

/-- Whether a text is a class name: identifiers joined by dots. -/
def isClassName (s : String) : Bool := (segments '.' s.toList).all isIdentifier

/-- The names of the generated classes and of the entry method. -/
structure EmitSection where
  harnessClass : String
  stubsClass : String
  entryMethod : String
deriving DecidableEq, Repr

namespace EmitSection

def standard : EmitSection :=
  ⟨"generatedHarness.GeneratedAndroidHarness", "stubs.GeneratedAndroidStubs", "androidMain"⟩

def ofPreset (_ : Preset) : EmitSection := standard

def fault? (s : EmitSection) : Option ConfigError :=
  if !isClassName s.harnessClass then some (.invalidClass "harness_class" s.harnessClass)
  else if !isClassName s.stubsClass then some (.invalidClass "stubs_class" s.stubsClass)
  else if !isIdentifier s.entryMethod.toList then some (.invalidMethod s.entryMethod)
  else if s.harnessClass = s.stubsClass then some .equalClasses
  else none

end EmitSection

/-- Custom lifecycle protocols, which replace the built-in ones of their kinds. -/
structure LifecycleSection where
  protocols : List ProtocolDefinition := []
deriving DecidableEq, Repr

end AppDriver
