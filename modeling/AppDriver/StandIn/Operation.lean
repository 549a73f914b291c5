import AppDriver.StandIn.Registry

/-!
The operations on a registry as data, so that a run is a list of them, and the registries that runs
reach. An operation that names a stand-in which does not exist is refused and changes nothing.
-/

namespace AppDriver.Registry

/-- An operation that may add to a registry. -/
inductive Operation where
  | declare (binding : IdentifierBinding)
  | resolve (id : ResourceId) (type : TypeName)
  | resolveDeclared (id : ResourceId) (fallback : TypeName)
  | unresolved (type : TypeName)
  | ambient (type : TypeName)
  | systemService (name : String)
  | value (type : TypeName)
  | argumentFor (type : TypeName)
  | registerComponent (component : Component)
  | registerComponents (components : List Component)
  | derived (parent : StandInRef) (step : AccessorStep)
  | deriveChain (start : StandInRef) (chain : List AccessorStep)
deriving DecidableEq, Repr

/-- What an operation answers. -/
inductive Answer where
  | agrees (yes : Bool)
  | standIn (ref : StandInRef)
  | standIns (refs : List StandInRef)
deriving DecidableEq, Repr

namespace Operation

/-- Whether the stand-ins that an operation reads exist. An empty chain reads none. -/
def isAdmissible (r : Registry) : Operation → Bool
  | .derived parent _ => r.contains parent
  | .deriveChain start chain => chain.isEmpty || r.contains start
  | _ => true

/-- The answer of an operation and the registry that it leaves. -/
def run (r : Registry) : Operation → Answer × Registry
  | .declare b => let out := r.declare b; (.agrees out.1, out.2)
  | .resolve id t => let out := r.resolve id t; (.standIn out.1, out.2)
  | .resolveDeclared id t => let out := r.resolveDeclared id t; (.standIn out.1, out.2)
  | .unresolved t => let out := r.unresolved t; (.standIn out.1, out.2)
  | .ambient t => let out := r.ambient t; (.standIn out.1, out.2)
  | .systemService name => let out := r.systemService name; (.standIn out.1, out.2)
  | .value t => let out := r.value t; (.standIn out.1, out.2)
  | .argumentFor t => let out := r.argumentFor t; (.standIn out.1, out.2)
  | .registerComponent c => let out := r.registerComponent c; (.standIn out.1, out.2)
  | .registerComponents cs => let out := r.registerComponents cs; (.standIns out.1, out.2)
  | .derived parent step => let out := r.derived parent step; (.standIn out.1, out.2)
  | .deriveChain start chain => let out := r.deriveChain start chain; (.standIn out.1, out.2)

/-- Runs an operation if the stand-ins that it reads exist. -/
def run? (op : Operation) (r : Registry) : Option (Answer × Registry) :=
  if op.isAdmissible r then some (op.run r) else none

end Operation

/-- The registries that admissible operations make of a new one. -/
inductive Reachable : Registry → Prop where
  | new (catalog : FrameworkCatalog) (arrayLength : Nat) :
    Reachable ((new catalog).withArrayLength arrayLength)
  | step {r : Registry} (op : Operation) : Reachable r → op.isAdmissible r = true →
    Reachable (op.run r).2

end AppDriver.Registry
