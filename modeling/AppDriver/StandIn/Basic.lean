import AppDriver.Component

/-!
Stand-ins: the objects that the driver hands to app code where the framework would have handed real
ones. A stand-in is identified by its place in the arena; two references denote the same object
exactly if they are equal.
-/

namespace AppDriver

/-- A reference to a stand-in: its place in the arena. -/
structure StandInRef where
  index : Nat
deriving DecidableEq, Repr

def StandInRef.display (r : StandInRef) : String := "si#" ++ toString r.index

/-- Why a stand-in exists: it is bound to a declared identifier, answers the lookup of an undeclared
identifier or of none, is the shared object of its type, is the driver's instance of a component, is
what a getter of another stand-in returns, or is a plain value. -/
inductive Origin where
  | identifier (id : ResourceId)
  | unresolved (id : Option ResourceId)
  | ambient
  | component (kind : ComponentKind)
  | derived (parent : StandInRef) (accessor : String)
  | value
deriving DecidableEq, Repr

/-- How a stand-in is built. A degenerate one is an abstract object of its type without behaviour,
written as a typed null. -/
inductive Construction where
  | constructor (args : List StandInRef)
  | staticFactory (owner : TypeName) (method : String) (args : List StandInRef)
  | staticField (owner : TypeName) (field : String)
  | accessor (receiver : StandInRef) (method : String)
  | array (element : TypeName) (length : Nat)
  | defaultValue
  | degenerate
deriving DecidableEq, Repr

/-- The stand-ins a construction reads. -/
def Construction.dependencies : Construction → List StandInRef
  | .constructor args => args
  | .staticFactory _ _ args => args
  | .accessor receiver _ => [receiver]
  | _ => []

/-- A fabricated object. Its type can be more specific than the one asked for; its label is unique
and names it in generated sources. -/
structure StandIn where
  id : StandInRef
  typeName : TypeName
  origin : Origin
  construction : Construction
  label : String
deriving DecidableEq, Repr

namespace StandIn

def isDegenerate (s : StandIn) : Bool := s.construction == .degenerate

/-- The identifier to which the stand-in is bound. -/
def identifier? (s : StandIn) : Option ResourceId :=
  match s.origin with
  | .identifier id => some id
  | _ => none

def isComponent (s : StandIn) : Bool :=
  match s.origin with
  | .component _ => true
  | _ => false

def display (s : StandIn) : String := s.label ++ ":" ++ s.typeName.text

end StandIn

/-- Why a stand-in is degenerate: its type has no recipe or one that cannot be followed without the
real framework, its fabrication needs itself, its identifier is not declared, or its service is
unknown. -/
inductive DegradationReason where
  | noRecipe | unfabricable | cycle | missingIdentifier | unknownService
deriving DecidableEq, Repr

namespace DegradationReason

def name : DegradationReason → String
  | .noRecipe => "no_recipe"
  | .unfabricable => "unfabricable"
  | .cycle => "cycle"
  | .missingIdentifier => "missing_identifier"
  | .unknownService => "unknown_service"

def description : DegradationReason → String
  | .noRecipe => "no recipe"
  | .unfabricable => "unfabricable"
  | .cycle => "construction cycle"
  | .missingIdentifier => "missing identifier"
  | .unknownService => "unknown system service"

end DegradationReason

/-- The record that a stand-in had to be degenerate. -/
structure Degradation where
  standIn : StandInRef
  subject : String
  reason : DegradationReason
deriving DecidableEq, Repr

def Degradation.display (d : Degradation) : String :=
  d.subject ++ " degraded (" ++ d.reason.description ++ ")"

end AppDriver
