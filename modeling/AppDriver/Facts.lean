import AppDriver.Resources

/-!
The facts document: all that is declared of one app, and the conditions under which it is accepted.
Conflicting identifier types are tolerated, as the first declaration counts.
-/

namespace AppDriver

/-- A facts document. -/
structure Facts where
  version : Nat := 1
  app : Option String := none
  components : List Component := []
  identifiers : List IdentifierBinding := []
  handlers : List HandlerBinding := []
  services : List String := []
deriving DecidableEq, Repr

/-- Why a facts document is rejected. Only the first cause in document order is reported. -/
inductive FactsError where
  | syntactic
  | unreadable
  | unsupportedVersion (found : Nat)
  | duplicateComponent (name : TypeName)
  | emptyComponentName
  | emptyMethodName (component : TypeName)
  | emptyHandlerName (component : TypeName)
  | emptyServiceName
  | emptyBindingMethod (identifier : ResourceId)
deriving DecidableEq, Repr

/-- The text of a rejection, absent where it only repeats what a reader of the text reports. -/
def FactsError.message : FactsError → Option String
  | .syntactic | .unreadable => none
  | .unsupportedVersion n =>
    some ("Unsupported facts version " ++ toString n ++ ". Supported versions: 1")
  | .duplicateComponent name => some ("Duplicate component declaration '" ++ name.text ++ "'")
  | .emptyComponentName => some "Validation error: component with empty name"
  | .emptyMethodName c =>
    some ("Validation error: component '" ++ c.text ++ "' declares a method with an empty name")
  | .emptyHandlerName c =>
    some ("Validation error: component '" ++ c.text ++ "' declares an empty handler name")
  | .emptyServiceName => some "Validation error: empty system service name"
  | .emptyBindingMethod id =>
    some ("Validation error: handler binding for identifier " ++ toString id ++
      " has an empty method name")

namespace Component

/-- All methods a component mentions: lifecycle overrides, public methods and listener methods. -/
def mentionedMethods (c : Component) : List Signature :=
  c.lifecycle ++ c.methods ++ c.listeners.flatMap (·.methods)

/-- What is wrong with the names inside a component. -/
def nameFault? (c : Component) : Option FactsError :=
  if c.mentionedMethods.any (·.name.isEmpty) then some (.emptyMethodName c.name)
  else if c.handlers.any (·.isEmpty) then some (.emptyHandlerName c.name)
  else none

end Component

/-- The first fault among components that follow classes named `seen`. -/
def componentsFault? (seen : List TypeName) : List Component → Option FactsError
  | [] => none
  | c :: components =>
    if c.name.text.isEmpty then some .emptyComponentName
    else if seen.contains c.name then some (.duplicateComponent c.name)
    else c.nameFault?.or (componentsFault? (c.name :: seen) components)

namespace Facts

/-- The first fault of a document: its version, then its components in order, then its services,
then its handler bindings. -/
def fault? (d : Facts) : Option FactsError :=
  if d.version ≠ 1 then some (.unsupportedVersion d.version)
  else (componentsFault? [] d.components).or <|
    if d.services.any (·.isEmpty) then some .emptyServiceName
    else (d.handlers.find? (·.method.isEmpty)).map fun b => .emptyBindingMethod b.identifier

/-- Accepts a document without faults. -/
def validate (d : Facts) : Except FactsError Unit :=
  match d.fault? with
  | some e => .error e
  | none => .ok ()

theorem validate_ok_iff (d : Facts) : d.validate = .ok () ↔ d.fault? = none := by
  rw [validate]
  cases d.fault? <;> simp

end Facts
end AppDriver
