import AppDriver.Lifecycle.Order

/-!
The conditions on a protocol: named and distinct steps, edges between existing steps that never
lead back to an earlier phase, and no cycle.
-/

namespace AppDriver.Protocol

/-- The first fault among steps, given those before them. -/
def stepsFault? (p : Protocol) (earlier : List LifecycleStep) :
    List LifecycleStep → Option ProtocolFault
  | [] => none
  | s :: steps =>
    if s.method.name.isEmpty then some (.emptyName p.kind earlier.length)
    else if earlier.any (·.method.same s.method) then some (.duplicateStep p.kind s.method)
    else p.stepsFault? (earlier ++ [s]) steps

/-- What is wrong with an edge. -/
def edgeFault? (p : Protocol) (edge : Nat × Nat) : Option ProtocolFault :=
  match p.steps[edge.1]?, p.steps[edge.2]? with
  | some s, some t =>
    if t.phase.rank < s.phase.rank then some (.backwardEdge p.kind s t) else none
  | _, _ => some (.missingStep p.kind edge.1 edge.2)

/-- The first fault of a protocol: its steps in order, then its edges in order, then a cycle. -/
def fault? (p : Protocol) : Option ProtocolFault :=
  (p.stepsFault? [] p.steps).or <| (p.edges.findSome? p.edgeFault?).or <|
    if p.isCyclic then some (.cyclic p.kind) else none

/-- Accepts a protocol without faults. -/
def validate (p : Protocol) : Except ProtocolFault Unit :=
  match p.fault? with
  | some e => .error e
  | none => .ok ()

end AppDriver.Protocol
