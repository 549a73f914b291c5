import AppDriver.Lifecycle.Protocol
import AppDriver.Sorting
import AppDriver.StandIn.Registry

/-!
The driver procedure: all stand-ins in the order of their allocation, then the calls in sections. An
ordered section holds the calls on one component and runs once, in order; the unordered section
holds every callback again and runs in any order, several times over.
-/

namespace AppDriver

/-- A handle of a call step: its position among all steps. -/
structure StepId where
  index : Nat
deriving DecidableEq, Repr

def StepId.display (i : StepId) : String := "step#" ++ toString i.index

/-- Why a call is in the driver: it is a lifecycle override, a method of a listener interface, or an
externally declared handler; the last two with the identifier whose view they are declared on. -/
inductive CallOrigin where
  | lifecycle (phase : Phase)
  | listener (interface : TypeName) (identifier : Option ResourceId)
  | handler (identifier : Option ResourceId)
deriving DecidableEq, Repr

namespace CallOrigin

def isLifecycle : CallOrigin → Bool
  | .lifecycle _ => true
  | _ => false

def isHandler : CallOrigin → Bool
  | .handler _ => true
  | _ => false

end CallOrigin

/-- An argument: the declared type of the parameter and the stand-in that is passed. -/
structure ArgBinding where
  param : TypeName
  value : StandInRef
deriving DecidableEq, Repr

/-- A call of a method on the instance of a component class. -/
structure CallStep where
  id : StepId
  component : TypeName
  receiver : StandInRef
  method : Signature
  args : List ArgBinding
  origin : CallOrigin
deriving DecidableEq, Repr

def CallStep.display (c : CallStep) : String := c.component.simpleName ++ "." ++ c.method.display

/-- How the steps of a section run: once in order, or in any order as often as there are passes. -/
inductive SectionKind where
  | ordered
  | unordered (passes : Nat)
deriving DecidableEq, Repr

structure Section where
  label : String
  kind : SectionKind
  steps : List CallStep
deriving DecidableEq, Repr

namespace Section

def isUnordered (s : Section) : Bool :=
  match s.kind with
  | .ordered => false
  | .unordered _ => true

/-- How often the steps of the section are run. -/
def passes (s : Section) : Nat :=
  match s.kind with
  | .ordered => 1
  | .unordered n => n

end Section

inductive Severity where
  | info | warning
deriving DecidableEq, Repr

def Severity.name : Severity → String
  | .info => "info"
  | .warning => "warning"

/-- What synthesis reports. None of it is fatal. -/
inductive Finding where
  | redeclaredIdentifier (conflict : IdentifierConflict)
  | duplicateComponent (name : TypeName)
  | unreachedHandler (binding : HandlerBinding)
  | unknownListener (component interface : TypeName)
  | unmatchedOverride (component : TypeName) (method : Signature) (kind : ComponentKind)
  | componentIdentifier (id : ResourceId) (method : Signature) (type : TypeName)
  | cappedParameter (index : Nat) (method : Signature) (count fanout : Nat)
  | cappedTuples (method : Signature) (fanout : Nat)
  | degraded (degradation : Degradation)
deriving DecidableEq, Repr

namespace Finding

def severity : Finding → Severity
  | .redeclaredIdentifier _ | .duplicateComponent _ | .unreachedHandler _ | .unknownListener _ _
  | .componentIdentifier _ _ _ => .warning
  | .unmatchedOverride _ _ _ | .cappedParameter _ _ _ _ | .cappedTuples _ _ | .degraded _ => .info

def message : Finding → String
  | .redeclaredIdentifier c =>
    "identifier " ++ toString c.id ++ " redeclared as " ++ c.ignored.text ++ " (kept " ++
      c.kept.text ++ ")"
  | .duplicateComponent name => "duplicate declaration of " ++ name.text ++ " ignored"
  | .unreachedHandler b =>
    "handler '" ++ b.method ++ "' declared on identifier " ++ toString b.identifier ++
      " matches no component"
  | .unknownListener c i =>
    c.text ++ " implements " ++ i.text ++ " but no methods are known for it"
  | .unmatchedOverride c m k =>
    c.simpleName ++ "." ++ m.display ++ " is not a " ++ k.name ++
      " lifecycle method; driven as active"
  | .componentIdentifier id m t =>
    "identifier " ++ toString id ++ " registered for " ++ m.display ++ " denotes component " ++
      t.text ++ "; bound by type"
  | .cappedParameter i m count fanout =>
    "parameter " ++ toString i ++ " of " ++ m.display ++ " fans out to " ++ toString count ++
      " components, capped at " ++ toString fanout
  | .cappedTuples m fanout =>
    "argument tuples for " ++ m.display ++ " capped at " ++ toString fanout
  | .degraded d => d.display

def display (f : Finding) : String := f.severity.name ++ ": " ++ f.message

end Finding

/-- A synthesized driver. -/
structure Procedure where
  name : String
  sections : List Section
  findings : List Finding
  registry : Registry
deriving DecidableEq, Repr

/-- A callee: a component class and one of its methods. -/
abbrev Target := TypeName × Signature

namespace Target

/-- Whether two callees are the same: the same class and the same override. -/
def same (a b : Target) : Bool := a.1 == b.1 && a.2.same b.2

/-- The order of callees. -/
def precedes (a b : Target) : Bool :=
  if a.1.text = b.1.text then
    if a.2.name = b.2.name then
      !(b.2.params.map (·.text)).lex (a.2.params.map (·.text)) fun s t => decide (s < t)
    else decide (a.2.name < b.2.name)
  else decide (a.1.text < b.1.text)

def display (t : Target) : String := t.1.text ++ " " ++ t.2.display

/-- The list without callees that are the same as an earlier one. -/
def distinct : List Target → List Target
  | [] => []
  | t :: ts => t :: (distinct ts).filter fun u => !t.same u

end Target

namespace Procedure

/-- All stand-ins; each comes after those it is built from. -/
def allocations (p : Procedure) : List StandIn := p.registry.standIns

def degradations (p : Procedure) : List Degradation := p.registry.degradations

/-- Every step once, in the order of the sections. -/
def steps (p : Procedure) : List CallStep := p.sections.flatMap (·.steps)

def orderedSteps (p : Procedure) : List CallStep :=
  (p.sections.filter (!·.isUnordered)).flatMap (·.steps)

def unorderedSteps (p : Procedure) : List CallStep :=
  (p.sections.filter (·.isUnordered)).flatMap (·.steps)

/-- The distinct callees in order. -/
def callTargets (p : Procedure) : List Target :=
  sorted Target.precedes (Target.distinct (p.steps.map fun s => (s.component, s.method)))

/-- The steps that call a method of this name on a component. -/
def callsTo (p : Procedure) (component : TypeName) (method : String) : List CallStep :=
  p.steps.filter fun s => s.component == component && s.method.name == method

/-- The position of a step among all steps. -/
def position? (p : Procedure) (id : StepId) : Option Nat := p.steps.findIdx? (·.id == id)

/-- The position among the ordered steps of the first call of a method of this name. -/
def firstOrderedPosition? (p : Procedure) (component : TypeName) (method : String) :
    Option Nat :=
  p.orderedSteps.findIdx? fun s => s.component == component && s.method.name == method

end Procedure
end AppDriver
