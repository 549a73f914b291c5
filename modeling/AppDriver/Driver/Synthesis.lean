import AppDriver.Config.Harness
import AppDriver.Driver.Arguments
import AppDriver.Facts
import AppDriver.Lifecycle.Placement
import AppDriver.StandIn.Android

/-!
Synthesis of the driver procedure. All components are allocated, then every declared view; each
component gets an ordered section in which its callbacks are interleaved with its lifecycle, and all
callbacks are repeated in an unordered section. Synthesis never fails: what cannot be made or
matched is reported.
-/

namespace AppDriver

/-- A synthesizer: a checked configuration and the listener interfaces that are known. -/
structure Synthesizer where
  config : ValidConfig := {}
  listeners : ListenerCatalog := .android
deriving DecidableEq, Repr

/-- Drops components named like an earlier one and reports them. -/
def acceptComponents (seen : List TypeName) : List Component → List Component × List Finding
  | [] => ([], [])
  | c :: cs =>
    if seen.contains c.name then
      let rest := acceptComponents seen cs
      (rest.1, .duplicateComponent c.name :: rest.2)
    else
      let rest := acceptComponents (c.name :: seen) cs
      (c :: rest.1, rest.2)

/-- Components in the order in which they are driven. -/
def driveOrder (order : InstanceOrder) (cs : List Component) : List Component :=
  match order with
  | .declared => cs
  | .kindRank => sorted (fun a b => decide (a.kind.rank ≤ b.kind.rank)) cs

namespace Component

/-- A placed override as a target. -/
def lifecycleTarget (c : Component) (p : PlacedOverride) : CallbackTarget :=
  { method := p.method, origin := .lifecycle p.phase, view := none
    bindings := c.bindings.filter (·.appliesTo p.method) }

/-- The targets of a component in the order of its section. Callbacks run after every step of
creation and activity if there is one and the placement asks for it, else once before the
teardown. -/
def schedule (c : Component) (placement : CallbackPlacement) (placed : List PlacedOverride)
    (callbacks : List CallbackTarget) : List CallbackTarget :=
  let once :=
    (placed.takeWhile (·.phase != .teardown)).map c.lifecycleTarget ++ callbacks ++
      (placed.dropWhile (·.phase != .teardown)).map c.lifecycleTarget
  match placement with
  | .beforeTeardown => once
  | .afterEachStep =>
    if placed.any (·.phase != .teardown) then
      placed.flatMap fun p =>
        c.lifecycleTarget p :: if p.phase = .teardown then [] else callbacks
    else once

end Component

/-- What the unordered section repeats of one component. -/
structure Reentry where
  component : Component
  receiver : StandInRef
  targets : List CallbackTarget
deriving DecidableEq, Repr

namespace Synthesizer

/-- The Android catalog with the configured services. -/
def catalog (y : Synthesizer) : FrameworkCatalog :=
  y.config.fabrication.services.foldl (fun c e => c.withService e.1 (TypeName.ofText e.2))
    .android

/-- A new registry with a table of declared identifiers. -/
def registryFor (y : Synthesizer) (identifiers : List IdentifierBinding) : Registry :=
  (Registry.withBindings y.catalog identifiers).withArrayLength y.config.fabrication.arrayLength

/-- The calls of a target, one for each tuple of arguments. -/
def calls (y : Synthesizer) (c : Component) (receiver : StandInRef) (t : CallbackTarget)
    (s : Progress) : List CallStep × Progress :=
  let tuples := t.tuples y.config.fabrication.maxArgumentFanout s
  let steps := (tuples.1.zipIdx s.steps).map fun (args, i) =>
    { id := ⟨i⟩, component := c.name, receiver, method := t.method, args, origin := t.origin }
  (steps, { tuples.2 with steps := s.steps + tuples.1.length })

/-- The overrides of a component along its protocol. -/
def placed (y : Synthesizer) (c : Component) : List PlacedOverride :=
  (y.config.protocols.get c.kind).place c.lifecycle

/-- The callback targets of a component. -/
def callbacks (y : Synthesizer) (handlers : List HandlerBinding) (c : Component) :
    List CallbackTarget :=
  c.callbackTargets y.config.handlers y.listeners handlers

/-- The overrides of a component that its protocol does not know. -/
def unmatched (y : Synthesizer) (c : Component) : List Finding :=
  ((y.placed c).filter (·.unmatched)).map fun p => .unmatchedOverride c.name p.method c.kind

/-- The ordered section of a component, labelled like its instance. -/
def orderedSection (y : Synthesizer) (handlers : List HandlerBinding)
    (driven : Component × StandInRef) (s : Progress) : Section × Progress :=
  let (c, receiver) := driven
  let callbacks := y.callbacks handlers c
  let s := s.reportAll (c.unknownListeners y.config.handlers y.listeners ++ y.unmatched c)
  let schedule := c.schedule y.config.ordering.callbackPlacement (y.placed c) callbacks
  let steps := threadFlatMap (y.calls c receiver) schedule s
  (⟨steps.2.registry.label receiver, .ordered, steps.1⟩, steps.2)

/-- What the unordered section repeats of a component: its callbacks, and its active lifecycle
methods if the configuration says so. -/
def reentry (y : Synthesizer) (handlers : List HandlerBinding)
    (driven : Component × StandInRef) : Reentry :=
  let (c, receiver) := driven
  let active := ((y.placed c).filter (·.phase == .active)).map c.lifecycleTarget
  { component := c, receiver
    targets := y.callbacks handlers c ++
      if y.config.interleaving.includeActiveLifecycle then active else [] }

/-- The unordered section, absent if there is nothing to repeat. -/
def unorderedSection (y : Synthesizer) (handlers : List HandlerBinding)
    (instances : List (Component × StandInRef)) (s : Progress) : Option Section × Progress :=
  let steps := threadFlatMap
    (fun e => threadFlatMap (y.calls e.component e.receiver) e.targets)
    (instances.map (y.reentry handlers)) s
  (if steps.1.isEmpty then none
   else some ⟨"callbacks", .unordered y.config.interleaving.unorderedPasses, steps.1⟩, steps.2)

/-- The handler bindings that reach no component. -/
def unreachedHandlers (y : Synthesizer) (handlers : List HandlerBinding) (cs : List Component) :
    List Finding :=
  (handlers.filter fun b => !cs.any fun c => b.reaches c y.config.handlers.policy).map
    .unreachedHandler

/-- Makes the stand-in of every declared identifier, and the answer to unknown ones. -/
def allocateViews (r : Registry) : Registry :=
  let views := threadMap (fun id r => r.resolveDeclared id TypeName.view) r.declaredIdentifiers r
  (views.2.unresolved TypeName.view).2

/-- The procedure for components and handlers over a registry that has answered some lookups
already, with findings made before. -/
def procedure (y : Synthesizer) (components : List Component) (handlers : List HandlerBinding)
    (registry : Registry) (findings : List Finding) : Procedure :=
  let accepted := acceptComponents [] components
  let ordered := driveOrder y.config.ordering.instanceOrder accepted.1
  let receivers := registry.registerComponents ordered
  let instances := ordered.zip receivers.1
  let start : Progress :=
    { registry := allocateViews receivers.2
      findings := findings ++ accepted.2 ++ y.unreachedHandlers handlers ordered }
  let sections := threadMap (y.orderedSection handlers) instances start
  let unordered := y.unorderedSection handlers instances sections.2
  { name := y.config.emit.entryMethod
    sections := sections.1 ++ unordered.1.toList
    findings := unordered.2.findings ++ unordered.2.registry.degradations.map .degraded
    registry := unordered.2.registry }

/-- The procedure for components and handlers over a given registry. -/
def synthesize (y : Synthesizer) (components : List Component) (handlers : List HandlerBinding)
    (registry : Registry) : Procedure :=
  y.procedure components handlers registry []

/-- The procedure for a facts document. The system services that the app looks up are allocated
first. -/
def synthesizeFacts (y : Synthesizer) (d : Facts) : Procedure :=
  let services := threadMap (fun name r => r.systemService name) d.services
    (y.registryFor d.identifiers)
  y.procedure d.components d.handlers services.2
    ((identifierConflicts d.identifiers).map .redeclaredIdentifier)

end Synthesizer
end AppDriver
