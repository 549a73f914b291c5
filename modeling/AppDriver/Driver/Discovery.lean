import AppDriver.Config.Section
import AppDriver.Driver.Procedure
import AppDriver.Listener

/-!
Callback targets of a component: the methods of the listener interfaces it declares, and the methods
that handler declarations name. Lifecycle overrides are placed by the protocol instead.
-/

namespace AppDriver

/-- A method to drive: the view identifier is passed to its view parameter, and the bindings are the
declared sources of its arguments. -/
structure CallbackTarget where
  method : Signature
  origin : CallOrigin
  view : Option ResourceId
  bindings : List ParamBinding
deriving DecidableEq, Repr

/-- Whether two targets expose the same method for the same view. -/
def CallbackTarget.sameExposure (a b : CallbackTarget) : Bool :=
  a.method.same b.method && a.view == b.view

/-- Whether a handler binding reaches a component. -/
def HandlerBinding.reaches (b : HandlerBinding) (c : Component) (policy : HandlerPolicy) : Bool :=
  match b.component with
  | some name => name == c.name
  | none =>
    match policy with
    | .declared => c.handlers.contains b.method
    | .byName => c.declaresMethod b.method

namespace Component

/-- The signature of a handler: the declared method of its name, else one that takes a view. -/
def handlerSignature (c : Component) (name : String) : Signature :=
  (c.methodsNamed name).head?.getD { name, params := [TypeName.view] }

/-- The methods that an implemented listener contributes. -/
def contributed (config : HandlerSection) (listeners : ListenerCatalog) (l : ListenerImpl) :
    List Signature :=
  if l.methods.isEmpty && config.expandListenerCatalog then listeners.methodsOf l.interface
  else l.methods

/-- The views that a listener is registered on; none of them stands for itself. -/
def registrations (l : ListenerImpl) : List (Option ResourceId) :=
  if l.registeredOn.isEmpty then [none] else l.registeredOn.map some

/-- The targets of an implemented listener. -/
def listenerTargets (c : Component) (config : HandlerSection) (listeners : ListenerCatalog)
    (l : ListenerImpl) : List CallbackTarget :=
  (contributed config listeners l).flatMap fun method =>
    (registrations l).map fun view =>
      { method, view, origin := .listener l.interface view, bindings := l.bindings ++ c.bindings }

/-- The targets of the handler bindings that reach a component. -/
def bindingTargets (c : Component) (config : HandlerSection) (handlers : List HandlerBinding) :
    List CallbackTarget :=
  (handlers.filter (·.reaches c config.policy)).map fun b =>
    { method := c.handlerSignature b.method, origin := .handler (some b.identifier)
      view := some b.identifier, bindings := c.bindings }

/-- The targets of the handlers that a component lists and no binding reaches. -/
def listedTargets (c : Component) (config : HandlerSection) (handlers : List HandlerBinding) :
    List CallbackTarget :=
  let bound := (handlers.filter (·.reaches c config.policy)).map (·.method)
  (c.handlers.filter fun name => !bound.contains name).map fun name =>
    { method := c.handlerSignature name, origin := .handler none, view := none
      bindings := c.bindings }

/-- Adds a target unless it is exposed already. -/
def addTarget (targets : List CallbackTarget) (t : CallbackTarget) : List CallbackTarget :=
  if targets.any (·.sameExposure t) then targets else targets ++ [t]

/-- The callback targets of a component, each exposure once. -/
def callbackTargets (c : Component) (config : HandlerSection) (listeners : ListenerCatalog)
    (handlers : List HandlerBinding) : List CallbackTarget :=
  (c.listeners.flatMap (c.listenerTargets config listeners) ++ c.bindingTargets config handlers ++
    c.listedTargets config handlers).foldl addTarget []

/-- The listeners of a component of which no method is known. -/
def unknownListeners (c : Component) (config : HandlerSection) (listeners : ListenerCatalog) :
    List Finding :=
  (c.listeners.filter fun l => (contributed config listeners l).isEmpty).map fun l =>
    .unknownListener c.name l.interface

end Component
end AppDriver
