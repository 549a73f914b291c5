import AppDriver.Facts.Document
import AppDriver.Lifecycle.Definition

/-!
Lifecycle protocols as document trees: in the written form, in which chains name steps, and as they
stand, with edges between indices.
-/

namespace AppDriver

namespace Phase

def toTree (p : Phase) : Tree := .text p.name

def decode : Decoder Phase := Tree.asNamed ofName?

end Phase

namespace StepDefinition

def toTree (d : StepDefinition) : Tree :=
  .record [("method", .text d.method), ("params", .texts d.params), ("phase", d.phase.toTree)]

def decode : Decoder StepDefinition := fun t => do
  let fs ← Fields.of? ["method", "params", "phase"] true t
  let method ← fs.required "method" Tree.asText
  let params ← fs.withDefault "params" (Tree.asList Tree.asText) []
  let phase ← fs.required "phase" Phase.decode
  return { method, params, phase }

end StepDefinition

namespace ProtocolDefinition

def toTree (d : ProtocolDefinition) : Tree :=
  .record [("kind", .text d.kind), ("steps", .list (d.steps.map StepDefinition.toTree)),
    ("chains", .list (d.chains.map Tree.texts))]

def decode : Decoder ProtocolDefinition := fun t => do
  let fs ← Fields.of? ["kind", "steps", "chains"] true t
  let kind ← fs.required "kind" Tree.asText
  let steps ← fs.required "steps" (Tree.asList StepDefinition.decode)
  let chains ← fs.withDefault "chains" (Tree.asList (Tree.asList Tree.asText)) []
  return { kind, steps, chains }

end ProtocolDefinition

namespace LifecycleStep

def toTree (s : LifecycleStep) : Tree :=
  .record [("method", s.method.toTree), ("phase", s.phase.toTree)]

def decode : Decoder LifecycleStep := fun t => do
  let fs ← Fields.of? ["method", "phase"] false t
  let method ← fs.required "method" Signature.decode
  let phase ← fs.required "phase" Phase.decode
  return { method, phase }

end LifecycleStep

namespace Protocol

def edgeTree (e : Nat × Nat) : Tree := .list [.natural e.1, .natural e.2]

/-- An edge is a list of two indices. -/
def decodeEdge : Decoder (Nat × Nat) := fun t =>
  match Tree.asList Tree.asIndex t with
  | some [a, b] => some (a, b)
  | _ => none

def toTree (p : Protocol) : Tree :=
  .record [("kind", p.kind.toTree), ("steps", .list (p.steps.map LifecycleStep.toTree)),
    ("edges", .list (p.edges.map edgeTree))]

def decode : Decoder Protocol := fun t => do
  let fs ← Fields.of? ["kind", "steps", "edges"] false t
  let kind ← fs.required "kind" ComponentKind.decode
  let steps ← fs.required "steps" (Tree.asList LifecycleStep.decode)
  let edges ← fs.required "edges" (Tree.asList decodeEdge)
  return { kind, steps, edges }

/-- The protocol that a written definition stands for, if the definition could be read. -/
def ofTree? (t : Option Tree) : Except ProtocolError Protocol :=
  match t.bind ProtocolDefinition.decode with
  | none => .error .syntactic
  | some d => ofDefinition d

end Protocol
end AppDriver
