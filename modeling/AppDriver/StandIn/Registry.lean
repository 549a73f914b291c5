import AppDriver.StandIn.Fabrication
import AppDriver.Sorting

/-!
The registry of stand-ins: the workshop together with the store. It answers every lookup that app
code can make, and answers the same lookup with the same stand-in.
-/

namespace AppDriver

/-- A workshop and what it has made so far. -/
structure Registry where
  workshop : Workshop := {}
  store : Store := {}
deriving DecidableEq, Repr

namespace Registry

/-- A registry in which nothing is made yet. -/
def new (catalog : FrameworkCatalog) : Registry := { workshop := { catalog } }

/-- Arrays are made with at least one element. -/
def withArrayLength (r : Registry) (n : Nat) : Registry :=
  { r with workshop := { r.workshop with arrayLength := max n 1 } }

def catalog (r : Registry) : FrameworkCatalog := r.workshop.catalog
def standIns (r : Registry) : List StandIn := r.store.arena
def degradations (r : Registry) : List Degradation := r.store.degradations
def size (r : Registry) : Nat := r.store.arena.length
def get? (r : Registry) (x : StandInRef) : Option StandIn := r.store.get? x

/-- Whether a reference denotes a stand-in of the registry. -/
def contains (r : Registry) (x : StandInRef) : Bool := decide (x.index < r.store.arena.length)

/-- The label of a stand-in, empty for a reference to none. -/
def label (r : Registry) (x : StandInRef) : String := r.store.label x

/-- The answer of a step on the store. -/
def withStore (r : Registry) (out : α × Store) : α × Registry := (out.1, { r with store := out.2 })

/-! Identifiers. -/

/-- Records a declared identifier and says whether its type agrees with its first declaration,
which is the one that counts. -/
def declare (r : Registry) (b : IdentifierBinding) : Bool × Registry :=
  match r.store.declared.lookup b.id with
  | some d => (d.declaredType == b.declaredType, r)
  | none =>
    (true, { r with store :=
      { r.store with declared := (b.id, ⟨b.declaredType, b.name⟩) :: r.store.declared } })

/-- A new registry with a table of declared identifiers. -/
def withBindings (catalog : FrameworkCatalog) (bindings : List IdentifierBinding) : Registry :=
  bindings.foldl (fun r b => (r.declare b).2) (new catalog)

def declaredType? (r : Registry) (id : ResourceId) : Option TypeName :=
  (r.store.declared.lookup id).map (·.declaredType)

/-- The declared identifiers in ascending order. -/
def declaredIdentifiers (r : Registry) : List ResourceId :=
  sorted (fun a b => decide (a ≤ b)) (r.store.declared.map (·.1))

/-- The stand-in of an identifier if it has been resolved. -/
def findViewById? (r : Registry) (id : ResourceId) : Option StandInRef :=
  r.store.byIdentifier.lookup id

/-- The resolved identifiers in ascending order with their stand-ins. -/
def identifiers (r : Registry) : List (ResourceId × StandInRef) :=
  sorted (fun a b => decide (a.1 ≤ b.1)) r.store.byIdentifier

/-- Makes `x` the stand-in of an identifier. -/
def bindIdentifier (r : Registry) (id : ResourceId) (x : StandInRef) : Registry :=
  { r with store := { r.store with byIdentifier := (id, x) :: r.store.byIdentifier } }

/-- The stand-in of an identifier, made with this type at its first use. An identifier declared with
a component class denotes the component's instance. -/
def resolve (r : Registry) (id : ResourceId) (t : TypeName) : StandInRef × Registry :=
  match r.findViewById? id with
  | some x => (x, r)
  | none =>
    match r.store.component? t with
    | some x => (x, r.bindIdentifier id x)
    | none =>
      let hint := ((r.store.declared.lookup id).bind (·.name)).getD ("view" ++ toString id)
      let made := r.withStore (r.workshop.fabricate [] {} t (.identifier id) hint r.store)
      (made.1, made.2.bindIdentifier id made.1)

/-- The stand-in of an identifier, made with its declared type at its first use. An undeclared
identifier has a degenerate one of the fallback type. -/
def resolveDeclared (r : Registry) (id : ResourceId) (fallback : TypeName) :
    StandInRef × Registry :=
  match r.findViewById? id with
  | some x => (x, r)
  | none =>
    match r.declaredType? id with
    | some t => r.resolve id t
    | none =>
      let made := r.withStore (r.store.pushDegenerate fallback (.unresolved (some id))
        ("missing" ++ toString id) ("R.id " ++ toString id) .missingIdentifier)
      (made.1, made.2.bindIdentifier id made.1)

/-- The answer to a lookup of no known identifier. -/
def unresolved (r : Registry) (t : TypeName) : StandInRef × Registry :=
  match r.store.unresolved.lookup t with
  | some x => (x, r)
  | none =>
    let made := r.store.push t (.unresolved none) .degenerate ("unresolved" ++ t.simpleName)
    r.withStore (made.1, { made.2 with unresolved := (t, made.1) :: made.2.unresolved })

/-! Types. -/

/-- The shared object of a type; of a component class, its instance. -/
def ambient (r : Registry) (t : TypeName) : StandInRef × Registry :=
  r.withStore (r.workshop.ambient [] {} t r.store)

/-- The shared object of a type if it has been made. -/
def lookupAmbient? (r : Registry) (t : TypeName) : Option StandInRef := r.store.ambients.lookup t

/-- The plain value of a type. -/
def value (r : Registry) (t : TypeName) : StandInRef × Registry :=
  r.withStore (r.store.value r.workshop.arrayLength t)

/-- The stand-in for a parameter of which only the type is known. -/
def argumentFor (r : Registry) (t : TypeName) : StandInRef × Registry :=
  if t.isPlainValue then r.value t else r.ambient t

/-- The system service of a name: the shared object of its type, or a degenerate object if the name
is unknown. -/
def systemService (r : Registry) (name : String) : StandInRef × Registry :=
  match r.store.services.lookup name with
  | some x => (x, r)
  | none =>
    let made := match r.catalog.serviceType? name with
      | some t => r.ambient t
      | none => r.withStore (r.store.pushDegenerate TypeName.object .ambient ("service_" ++ name)
          ("service '" ++ name ++ "'") .unknownService)
    made.2.withStore
      (made.1, { made.2.store with services := (name, made.1) :: made.2.store.services })

/-! Components and what their getters return. -/

/-- The instance of a component class, registered at its first use. -/
def registerComponent (r : Registry) (c : Component) : StandInRef × Registry :=
  r.withStore (r.workshop.register [] c r.store)

/-- Registers components in order. A constructor parameter that names a class of the list takes the
instance of that class even where it is declared later. -/
def registerComponents (r : Registry) (cs : List Component) : List StandInRef × Registry :=
  r.withStore (threadMap (r.workshop.register cs) cs r.store)

def component? (r : Registry) (name : TypeName) : Option StandInRef := r.store.component? name

/-- The registered components in the order of their registration. -/
def components (r : Registry) : List (Component × StandInRef) := r.store.components

/-- The component instances that can be passed where `t` is expected. -/
def assignableTo (r : Registry) (t : TypeName) : List StandInRef :=
  (r.store.components.filter (·.1.isAssignableTo t)).map (·.2)

/-- The part of a getter's name that goes into the label of what it returns. -/
def getterSubject (method : String) : String :=
  match method.toList with
  | 'g' :: 'e' :: 't' :: cs => String.ofList cs
  | _ => method

/-- What a getter of a stand-in returns: always the same. -/
def derived (r : Registry) (parent : StandInRef) (step : AccessorStep) : StandInRef × Registry :=
  match r.store.derived.lookup (parent, step.method) with
  | some x => (x, r)
  | none =>
    let made := r.store.push step.returns (.derived parent step.method)
      (.accessor parent step.method) (r.label parent ++ capitalized (getterSubject step.method))
    r.withStore
      (made.1, { made.2 with derived := ((parent, step.method), made.1) :: made.2.derived })

/-- The end of a chain of getters. -/
def deriveChain (r : Registry) (start : StandInRef) : List AccessorStep → StandInRef × Registry
  | [] => (start, r)
  | step :: chain =>
    let next := r.derived start step
    next.2.deriveChain next.1 chain

end Registry
end AppDriver
