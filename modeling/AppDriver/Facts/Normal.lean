import AppDriver.Facts

/-!
Facts with every type name in source form.
-/

namespace AppDriver

/-- The name in source form. -/
def TypeName.normal (t : TypeName) : TypeName := TypeName.ofText t.text

def Signature.normal (m : Signature) : Signature :=
  { m with params := m.params.map TypeName.normal, returns := m.returns.map TypeName.normal }

def AccessorStep.normal (s : AccessorStep) : AccessorStep := { s with returns := s.returns.normal }

def ArgumentSource.normal : ArgumentSource → ArgumentSource
  | .identifier id => .identifier id
  | .accessor id chain => .accessor id (chain.map AccessorStep.normal)
  | .component name => .component name.normal

def ParamBinding.normal (b : ParamBinding) : ParamBinding := { b with source := b.source.normal }

def ListenerImpl.normal (l : ListenerImpl) : ListenerImpl :=
  { l with
    interface := l.interface.normal
    methods := l.methods.map Signature.normal
    bindings := l.bindings.map ParamBinding.normal }

def Component.normal (c : Component) : Component :=
  { c with
    name := c.name.normal
    superclass := c.superclass.map TypeName.normal
    constructorParams := c.constructorParams.map TypeName.normal
    lifecycle := c.lifecycle.map Signature.normal
    listeners := c.listeners.map ListenerImpl.normal
    methods := c.methods.map Signature.normal
    bindings := c.bindings.map ParamBinding.normal }

def IdentifierBinding.normal (b : IdentifierBinding) : IdentifierBinding :=
  { b with declaredType := b.declaredType.normal }

def HandlerBinding.normal (b : HandlerBinding) : HandlerBinding :=
  { b with component := b.component.map TypeName.normal }

def Facts.normal (d : Facts) : Facts :=
  { d with
    components := d.components.map Component.normal
    identifiers := d.identifiers.map IdentifierBinding.normal
    handlers := d.handlers.map HandlerBinding.normal }

end AppDriver
