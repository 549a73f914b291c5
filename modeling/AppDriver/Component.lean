import AppDriver.Signature

/-!
The declared classes of an app that the framework instantiates or calls back into, and the
declared sources of their arguments.
-/

namespace AppDriver

/-- A numeric resource identifier. -/
abbrev ResourceId := Nat

/-- The declared supertype kind of a component. A fragment is one of the framework's own fragments,
a support fragment one of the support libraries'; a plain listener has no framework supertype. -/
inductive ComponentKind where
  | application | activity | service | broadcastReceiver | contentProvider
  | fragment | supportFragment | plainListener
deriving DecidableEq, Repr

namespace ComponentKind

/-- The kinds in the order in which listings show them. -/
def all : List ComponentKind :=
  [.application, .activity, .service, .broadcastReceiver, .contentProvider, .fragment,
   .supportFragment, .plainListener]

def name : ComponentKind → String
  | .application => "application"
  | .activity => "activity"
  | .service => "service"
  | .broadcastReceiver => "broadcast_receiver"
  | .contentProvider => "content_provider"
  | .fragment => "fragment"
  | .supportFragment => "support_fragment"
  | .plainListener => "plain_listener_impl"

/-- The kind with exactly this name. -/
def ofName? (s : String) : Option ComponentKind := all.find? fun k => k.name == s

/-- The kind a user names: letters of either case, and `-` for `_`. The case of ASCII letters is
enough, as no other character has an ASCII lower case that occurs in a kind's name. -/
def parse? (s : String) : Option ComponentKind :=
  ofName? (String.ofList (s.toList.map fun c => if c = '-' then '_' else c.toLower))

/-- The message for a text that names no kind. -/
def unknownMessage (s : String) : String :=
  "Unknown component kind '" ++ s ++ "'. Valid kinds: " ++ ", ".intercalate (all.map name)

/-- The framework base class, if the kind has one. -/
def supertype : ComponentKind → Option TypeName
  | .application => some ⟨"android.app.Application"⟩
  | .activity => some ⟨"android.app.Activity"⟩
  | .service => some ⟨"android.app.Service"⟩
  | .broadcastReceiver => some ⟨"android.content.BroadcastReceiver"⟩
  | .contentProvider => some ⟨"android.content.ContentProvider"⟩
  | .fragment => some ⟨"android.app.Fragment"⟩
  | .supportFragment => some ⟨"android.support.v4.app.Fragment"⟩
  | .plainListener => none

/-- The framework types as which an instance of the kind can be passed. -/
def assignableTypes : ComponentKind → List TypeName
  | .application =>
    [⟨"android.app.Application"⟩, ⟨"android.content.ContextWrapper"⟩, TypeName.context]
  | .activity =>
    [⟨"android.app.Activity"⟩, ⟨"android.view.ContextThemeWrapper"⟩,
     ⟨"android.content.ContextWrapper"⟩, TypeName.context]
  | .service =>
    [⟨"android.app.Service"⟩, ⟨"android.content.ContextWrapper"⟩, TypeName.context]
  | .broadcastReceiver => [⟨"android.content.BroadcastReceiver"⟩]
  | .contentProvider => [⟨"android.content.ContentProvider"⟩]
  | .fragment => [⟨"android.app.Fragment"⟩]
  | .supportFragment =>
    [⟨"android.support.v4.app.Fragment"⟩, ⟨"androidx.fragment.app.Fragment"⟩]
  | .plainListener => []

/-- The place of the kind in process start-up: the application object first, then content
providers, then what is shown, then what runs in the background. -/
def rank : ComponentKind → Nat
  | .application => 0
  | .contentProvider => 1
  | .activity => 2
  | .fragment => 3
  | .supportFragment => 4
  | .service => 5
  | .broadcastReceiver => 6
  | .plainListener => 7

/-- The name of the getter through which the generated stubs hand out components of the kind. -/
def stubGetter : ComponentKind → Option String
  | .application => some "getApplication"
  | .activity => some "getActivity"
  | .service => some "getService"
  | .broadcastReceiver => some "getBroadcastReceiver"
  | .contentProvider => some "getContentProvider"
  | .fragment => some "getAppFragment"
  | .supportFragment => some "getSupportFragment"
  | .plainListener => none

theorem mem_all (k : ComponentKind) : k ∈ all := by cases k <;> decide

/-- A name identifies its kind. -/
theorem ofName?_name (k : ComponentKind) : ofName? k.name = some k := by cases k <;> decide

end ComponentKind

/-- One getter call of an accessor chain: `getHolder()` returning a `SurfaceHolder`. -/
structure AccessorStep where
  method : String
  returns : TypeName
deriving DecidableEq, Repr

/-- Where the value of a parameter is declared to come from: the view of an identifier, the end of
a getter chain that starts at such a view, or the driver's instance of a component class. -/
inductive ArgumentSource where
  | identifier (id : ResourceId)
  | accessor (id : ResourceId) (chain : List AccessorStep)
  | component (name : TypeName)
deriving DecidableEq, Repr

/-- The declared source of one parameter. Without a method it applies to every method of its
owner. -/
structure ParamBinding where
  method : Option String := none
  index : Nat
  source : ArgumentSource
deriving DecidableEq, Repr

def ParamBinding.appliesTo (b : ParamBinding) (m : Signature) : Bool :=
  match b.method with
  | none => true
  | some name => name == m.name

/-- An implemented listener interface. No methods stand for all that the listener catalog knows of
the interface. -/
structure ListenerImpl where
  interface : TypeName
  methods : List Signature := []
  registeredOn : List ResourceId := []
  bindings : List ParamBinding := []
deriving DecidableEq, Repr

/-- A declared component class. The superclass is the direct one where it is more specific than the
kind's base; the bindings are those of lifecycle and handler methods. -/
structure Component where
  name : TypeName
  kind : ComponentKind
  superclass : Option TypeName := none
  constructorParams : List TypeName := []
  lifecycle : List Signature := []
  listeners : List ListenerImpl := []
  handlers : List String := []
  methods : List Signature := []
  bindings : List ParamBinding := []
deriving DecidableEq, Repr

namespace Component

/-- Whether an instance can be passed where `t` is expected. -/
def isAssignableTo (c : Component) (t : TypeName) : Bool :=
  c.name == t || c.superclass == some t || c.listeners.any (·.interface == t) ||
    c.kind.assignableTypes.contains t

/-- The declared methods of this name, public methods before lifecycle overrides. -/
def methodsNamed (c : Component) (name : String) : List Signature :=
  (c.methods ++ c.lifecycle).filter (·.name == name)

def declaresMethod (c : Component) (name : String) : Bool :=
  !(c.methodsNamed name).isEmpty || c.handlers.contains name

end Component
end AppDriver
