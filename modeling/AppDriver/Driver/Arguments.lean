import AppDriver.Driver.Discovery

/-!
The arguments of a call. A parameter takes its value from a declared binding, else, if it is the view
parameter, from the view identifier, else from its type. A parameter with several values multiplies
the call; the product, in lexicographic order, is cut off at a limit.
-/

namespace AppDriver

/-- What synthesis has made so far: the registry, the findings and the number of steps. -/
structure Progress where
  registry : Registry
  findings : List Finding := []
  steps : Nat := 0
deriving DecidableEq, Repr

namespace Progress

def report (s : Progress) (f : Finding) : Progress := { s with findings := s.findings ++ [f] }

def reportAll (s : Progress) (fs : List Finding) : Progress :=
  { s with findings := s.findings ++ fs }

/-- The answer of a step on the registry. -/
def withRegistry (s : Progress) (out : α × Registry) : α × Progress :=
  (out.1, { s with registry := out.2 })

end Progress

/-- The stand-in that a declared source denotes for a parameter of type `param`. -/
def ArgumentSource.bound (source : ArgumentSource) (param : TypeName) (r : Registry) :
    StandInRef × Registry :=
  match source with
  | .identifier id => r.resolveDeclared id param
  | .accessor id chain =>
    let view := r.resolveDeclared id TypeName.view
    view.2.deriveChain view.1 chain
  | .component name =>
    match r.component? name with
    | some x => (x, r)
    | none => r.ambient name

namespace CallbackTarget

/-- The index of the view parameter: the first of a view type, else the first that is neither a
value nor an array. A target without a view has none. -/
def viewSlot (t : CallbackTarget) : Option Nat :=
  match t.view with
  | none => none
  | some _ =>
    (t.method.params.findIdx? FrameworkCatalog.isViewType).or
      (t.method.params.findIdx? (!·.isPlainValue))

/-- The declared binding of a parameter. -/
def bindingAt? (t : CallbackTarget) (index : Nat) : Option ParamBinding :=
  t.bindings.find? fun b => b.index == index && b.appliesTo t.method

/-- The view identifier of a parameter. -/
def viewAt? (t : CallbackTarget) (index : Nat) : Option ResourceId :=
  if t.viewSlot = some index then t.view else none

/-- The values of a parameter as far as its type decides them: a plain value, every component that
can be passed, up to the limit, or else the shared object of the type. -/
def candidatesByType (t : CallbackTarget) (fanout index : Nat) (param : TypeName)
    (s : Progress) : List StandInRef × Progress :=
  if param.isPlainValue then
    let out := s.withRegistry (s.registry.value param)
    ([out.1], out.2)
  else
    let components := s.registry.assignableTo param
    if components.isEmpty then
      let out := s.withRegistry (s.registry.ambient param)
      ([out.1], out.2)
    else if fanout < components.length then
      (components.take fanout,
        s.report (.cappedParameter index t.method components.length fanout))
    else (components, s)

/-- The values of a parameter. A view identifier that denotes a component is passed over with a
finding. -/
def candidates (t : CallbackTarget) (fanout : Nat) (slot : TypeName × Nat) (s : Progress) :
    List StandInRef × Progress :=
  let (param, index) := slot
  match t.bindingAt? index with
  | some b =>
    let out := s.withRegistry (b.source.bound param s.registry)
    ([out.1], out.2)
  | none =>
    match t.viewAt? index with
    | none => t.candidatesByType fanout index param s
    | some id =>
      let view := s.withRegistry (s.registry.resolveDeclared id param)
      match (view.2.registry.get? view.1).filter (·.isComponent) with
      | none => ([view.1], view.2)
      | some c =>
        t.candidatesByType fanout index param
          (view.2.report (.componentIdentifier id t.method c.typeName))

/-- Every tuple extended by every value of one more parameter. -/
def extend (tuples : List (List ArgBinding)) (param : TypeName) (values : List StandInRef) :
    List (List ArgBinding) :=
  tuples.flatMap fun tuple => values.map fun value => tuple ++ [⟨param, value⟩]

/-- The first `fanout` tuples over the given values, and whether there are more. -/
def product (fanout : Nat) :
    List (TypeName × List StandInRef) → List (List ArgBinding) × Bool → List (List ArgBinding) × Bool
  | [], tuples => tuples
  | (param, values) :: slots, (tuples, cut) =>
    let all := extend tuples param values
    product fanout slots (all.take fanout, cut || decide (fanout < all.length))

/-- The argument tuples of a target: one at least, and `fanout` at most. -/
def tuples (t : CallbackTarget) (fanout : Nat) (s : Progress) :
    List (List ArgBinding) × Progress :=
  let fanout := max fanout 1
  let values := threadMap (t.candidates fanout) t.method.params.zipIdx s
  let out := product fanout (t.method.params.zip values.1) ([[]], false)
  (out.1, if out.2 then values.2.report (.cappedTuples t.method fanout) else values.2)

end CallbackTarget
end AppDriver
