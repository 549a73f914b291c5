import AppDriver.Config.Section
import AppDriver.Lifecycle.ProtocolSet

/-!
Configurations: a preset and sections that override its values, and the checked form in which every
section has its value in effect.
-/

namespace AppDriver

/-- A configuration as it is put together. -/
structure HarnessConfig where
  preset : Preset := .standard
  ordering : Option OrderingSection := none
  interleaving : Option InterleavingSection := none
  handlers : Option HandlerSection := none
  fabrication : Option FabricationSection := none
  emit : Option EmitSection := none
  lifecycle : Option LifecycleSection := none
deriving DecidableEq, Repr

/-- A checked configuration with every section in effect and the configuration it comes from. -/
structure ValidConfig where
  source : HarnessConfig := {}
  ordering : OrderingSection := .ofPreset .standard
  interleaving : InterleavingSection := .ofPreset .standard
  handlers : HandlerSection := .ofPreset .standard
  fabrication : FabricationSection := .ofPreset .standard
  emit : EmitSection := .ofPreset .standard
  protocols : ProtocolSet := {}
deriving DecidableEq, Repr

/-- A change to one value of a configuration. The section that holds it starts from the preset's
values unless it is overridden already. -/
inductive Setter where
  | instanceOrder (v : InstanceOrder)
  | callbackPlacement (v : CallbackPlacement)
  | unorderedPasses (v : Nat)
  | includeActiveLifecycle (v : Bool)
  | policy (v : HandlerPolicy)
  | expandListenerCatalog (v : Bool)
  | arrayLength (v : Nat)
  | maxArgumentFanout (v : Nat)
  | service (name type : String)
  | harnessClass (v : String)
  | stubsClass (v : String)
  | entryMethod (v : String)
  | protocol (v : ProtocolDefinition)
deriving DecidableEq, Repr

namespace HarnessConfig

def orderingInEffect (c : HarnessConfig) : OrderingSection :=
  c.ordering.getD (.ofPreset c.preset)

def interleavingInEffect (c : HarnessConfig) : InterleavingSection :=
  c.interleaving.getD (.ofPreset c.preset)

def handlersInEffect (c : HarnessConfig) : HandlerSection := c.handlers.getD (.ofPreset c.preset)

def fabricationInEffect (c : HarnessConfig) : FabricationSection :=
  c.fabrication.getD (.ofPreset c.preset)

def emitInEffect (c : HarnessConfig) : EmitSection := c.emit.getD (.ofPreset c.preset)

def lifecycleInEffect (c : HarnessConfig) : LifecycleSection := c.lifecycle.getD {}

/-- Applies a change. -/
def set (c : HarnessConfig) : Setter → HarnessConfig
  | .instanceOrder v => { c with ordering := some { c.orderingInEffect with instanceOrder := v } }
  | .callbackPlacement v =>
    { c with ordering := some { c.orderingInEffect with callbackPlacement := v } }
  | .unorderedPasses v =>
    { c with interleaving := some { c.interleavingInEffect with unorderedPasses := v } }
  | .includeActiveLifecycle v =>
    { c with interleaving := some { c.interleavingInEffect with includeActiveLifecycle := v } }
  | .policy v => { c with handlers := some { c.handlersInEffect with policy := v } }
  | .expandListenerCatalog v =>
    { c with handlers := some { c.handlersInEffect with expandListenerCatalog := v } }
  | .arrayLength v =>
    { c with fabrication := some { c.fabricationInEffect with arrayLength := v } }
  | .maxArgumentFanout v =>
    { c with fabrication := some { c.fabricationInEffect with maxArgumentFanout := v } }
  | .service name type =>
    { c with fabrication := some (c.fabricationInEffect.withService name type) }
  | .harnessClass v => { c with emit := some { c.emitInEffect with harnessClass := v } }
  | .stubsClass v => { c with emit := some { c.emitInEffect with stubsClass := v } }
  | .entryMethod v => { c with emit := some { c.emitInEffect with entryMethod := v } }
  | .protocol v => { c with lifecycle := some ⟨c.lifecycleInEffect.protocols ++ [v]⟩ }

/-- The protocols that written definitions put in effect, one at most for each kind; `seen` are the
kinds that have one already. -/
def addProtocols (set : ProtocolSet) (seen : List ComponentKind) :
    List ProtocolDefinition → Except ConfigError ProtocolSet
  | [] => .ok set
  | d :: ds =>
    match Protocol.ofDefinition d with
    | .error e => .error (.protocol e)
    | .ok p =>
      if seen.contains p.kind then .error (.repeatedProtocol p.kind)
      else addProtocols (set.insert p) (p.kind :: seen) ds

/-- The first fault of the sections in effect. -/
def fault? (c : HarnessConfig) : Option ConfigError :=
  c.interleavingInEffect.fault?.or <| c.fabricationInEffect.fault?.or c.emitInEffect.fault?

/-- Checks a configuration: its sections first, then its protocols. -/
def build (c : HarnessConfig) : Except ConfigError ValidConfig :=
  match c.fault? with
  | some e => .error e
  | none =>
    match addProtocols {} [] c.lifecycleInEffect.protocols with
    | .error e => .error e
    | .ok protocols => .ok
      { source := c
        ordering := c.orderingInEffect
        interleaving := c.interleavingInEffect
        handlers := c.handlersInEffect
        fabrication := c.fabricationInEffect
        emit := c.emitInEffect
        protocols }

end HarnessConfig

namespace ValidConfig

def orderWord : InstanceOrder → String
  | .declared => "Declared"
  | .kindRank => "KindRank"

def placementWord : CallbackPlacement → String
  | .afterEachStep => "AfterEachStep"
  | .beforeTeardown => "BeforeTeardown"

def policyWord : HandlerPolicy → String
  | .declared => "Declared"
  | .byName => "ByName"

/-- A summary of the values in effect in one line. -/
def describe (c : ValidConfig) : String :=
  c.source.preset.name ++ " (order=" ++ orderWord c.ordering.instanceOrder ++
    ", callbacks=" ++ placementWord c.ordering.callbackPlacement ++
    ", passes=" ++ toString c.interleaving.unorderedPasses ++
    ", handlers=" ++ policyWord c.handlers.policy ++
    ", fanout=" ++ toString c.fabrication.maxArgumentFanout ++ ")"

end ValidConfig
end AppDriver
