import AppDriver.Lifecycle.Validity
import AppDriver.Text.Blank

/-!
Written definitions of custom protocols, in which chains name steps instead of giving their indices,
and the protocols they define.
-/

namespace AppDriver

/-- A step as it is written. -/
structure StepDefinition where
  method : String
  params : List String := []
  phase : Phase
deriving DecidableEq, Repr

/-- A protocol as it is written. -/
structure ProtocolDefinition where
  kind : String
  steps : List StepDefinition
  chains : List (List String) := []
deriving DecidableEq, Repr

/-- Why a written protocol is rejected. -/
inductive ProtocolError where
  | syntactic
  | unknownKind (name : String)
  | emptyMethod (kind : ComponentKind)
  | faulty (fault : ProtocolFault)
deriving DecidableEq, Repr

/-- The text of a rejection, absent where it only repeats what a reader of the text reports. -/
def ProtocolError.message : ProtocolError → Option String
  | .syntactic => none
  | .unknownKind s => some ("Validation error: " ++ ComponentKind.unknownMessage s)
  | .emptyMethod k =>
    some ("Validation error: " ++ k.name ++ " protocol has a step with an empty method name")
  | .faulty f => some ("Semantic error: " ++ f.message)

/-- The step a definition stands for, unless its name is blank. -/
def StepDefinition.step? (d : StepDefinition) : Option LifecycleStep :=
  let name := trimBlanks d.method
  if name.isEmpty then none
  else some ⟨{ name, params := d.params.map TypeName.ofText }, d.phase⟩

namespace Protocol

/-- Adds the chains of a definition in order. -/
def addChains (p : Protocol) : List (List String) → Except ProtocolFault Protocol
  | [] => .ok p
  | names :: chains =>
    match p.chain names with
    | .error e => .error e
    | .ok p => p.addChains chains

/-- The protocol that a definition stands for, if it is valid. -/
def ofDefinition (d : ProtocolDefinition) : Except ProtocolError Protocol :=
  match ComponentKind.parse? d.kind with
  | none => .error (.unknownKind d.kind)
  | some kind =>
    match d.steps.mapM StepDefinition.step? with
    | none => .error (.emptyMethod kind)
    | some steps =>
      match addChains { kind, steps } d.chains with
      | .error e => .error (.faulty e)
      | .ok p =>
        match p.fault? with
        | some e => .error (.faulty e)
        | none => .ok p

/-- The chain of two names that writes an edge, if both its steps exist. -/
def edgeNames? (p : Protocol) (edge : Nat × Nat) : Option (List String) :=
  match p.steps[edge.1]?, p.steps[edge.2]? with
  | some s, some t => some [s.method.name, t.method.name]
  | _, _ => none

/-- The definition that writes a protocol, if all its edges join existing steps. -/
def definition? (p : Protocol) : Option ProtocolDefinition :=
  (p.edges.mapM p.edgeNames?).map fun chains =>
    { kind := p.kind.name
      steps := p.steps.map fun s => ⟨s.method.name, s.method.params.map (·.text), s.phase⟩
      chains }

end Protocol
end AppDriver
