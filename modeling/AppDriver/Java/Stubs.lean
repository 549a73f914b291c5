import AppDriver.Config.Section
import AppDriver.Java.Expression
import AppDriver.Java.Source

/-!
The stubs class: a field for every stand-in, initialized in the order of allocation, and the entry
points of the framework through which app code reaches them.
-/

namespace AppDriver.Java

/-- A field for every stand-in. -/
def fieldDeclarations (p : Procedure) : List Item :=
  p.allocations.map fun s => .line ("public static " ++ s.typeName.text ++ " " ++ s.label ++ ";")

/-- The initialization of every stand-in that is not degenerate. -/
def fieldInitializers (p : Procedure) : List Item :=
  p.allocations.filterMap fun s =>
    (initializer? p.registry.label s).map fun init => .guarded (s.label ++ " = " ++ init ++ ";")

def returns (value : String) : Item := .line ("return " ++ value ++ ";")

/-- A method after a blank line. -/
def method (head : String) (body : List Item) : List Item :=
  [.blank, .block ("public static " ++ head) body]

/-- A method that looks its parameter up among cases. -/
def lookup (head parameter : String) (cases : List (String × String)) (fallback : String) :
    List Item :=
  method head [.block ("switch (" ++ parameter ++ ")")
    (cases.map (fun c => .line ("case " ++ c.1 ++ ": return " ++ c.2 ++ ";")) ++
      [.line ("default: return " ++ fallback ++ ";")])]

/-- An identifier as a signed number of 32 bits. -/
def signedId (id : ResourceId) : Int :=
  if id < Nat.pow 2 31 then id else (id : Int) - Nat.pow 2 32

/-- The resolved identifiers with their stand-ins. -/
def resolvedViews (p : Procedure) : List (ResourceId × StandIn) :=
  p.registry.identifiers.filterMap fun e => (p.registry.get? e.2).map (e.1, ·)

/-- The label of the answer to an unknown identifier. -/
def unknownView (p : Procedure) : String :=
  ((p.allocations.find? fun s =>
    s.origin == .unresolved none && s.typeName == TypeName.view).map (·.label)).getD "null"

/-- The lookups of views. An identifier that denotes a component is no view, so the lookup by a
variable identifier leaves it out. -/
def viewLookups (p : Procedure) : List Item :=
  let views := resolvedViews p
  lookup "android.view.View findViewById(int id)" "id"
    ((views.filter (!·.2.isComponent)).map fun v => (toString (signedId v.1), v.2.label))
    (unknownView p) ++
  method "android.view.View inflateViewById(int id, android.content.Context ctx)"
    [.line "return findViewById(id);"] ++
  views.flatMap fun v =>
    method (v.2.typeName.text ++ " getView" ++ toString v.1 ++ "()") [returns v.2.label]

/-- The known system services in order of their names. -/
def sortedServices (c : FrameworkCatalog) : List (String × TypeName) :=
  sorted (fun a b => decide (a.1 ≤ b.1)) c.services

/-- The lookup of system services: those whose type has a shared object. -/
def serviceLookup (p : Procedure) : List Item :=
  lookup "Object getSystemService(String name)" "name"
    ((sortedServices p.registry.catalog).filterMap fun (name, t) =>
      (p.registry.lookupAmbient? t).map fun x => ("\"" ++ name ++ "\"", p.registry.label x))
    "null"

/-- The lookup of the components of a kind by class name. -/
def componentLookup (p : Procedure) (kind : ComponentKind) : List Item :=
  match kind.stubGetter, kind.supertype with
  | some getter, some supertype =>
    lookup (supertype.text ++ " " ++ getter ++ "(String className)") "className"
      ((p.registry.components.filter (·.1.kind == kind)).map fun e =>
        ("\"" ++ e.1.name.text ++ "\"", p.registry.label e.2))
      "null"
  | _, _ => []

/-- The first steps of each callee. -/
def firstCalls : List CallStep → List CallStep
  | [] => []
  | s :: steps =>
    s :: (firstCalls steps).filter fun t =>
      !Target.same (s.component, s.method) (t.component, t.method)

/-- An argument of a handler called from a layout: the clicked view where a view is expected. -/
def handlerArgument (p : Procedure) (a : ArgBinding) : String :=
  if a.param = TypeName.view then "v" else p.registry.label a.value

/-- Whether a stand-in is a component that is a context. -/
def isContext (s : StandIn) : Bool :=
  match s.origin with
  | .component kind => kind.assignableTypes.contains TypeName.context
  | _ => false

/-- The dispatch of a handler declared in a layout: on the context that the layout belongs to if
the component is one, else on the instance of the component. -/
def handlerDispatch (p : Procedure) (s : CallStep) : Item :=
  let call := s.method.name ++ "(" ++ arguments (s.args.map (handlerArgument p)) ++ ")"
  if (p.registry.get? s.receiver).any isContext then
    .guarded ("if (ctx instanceof " ++ s.component.text ++ ") ((" ++ s.component.text ++
      ") ctx)." ++ call ++ ";")
  else .guarded (p.registry.label s.receiver ++ "." ++ call ++ ";")

/-- The dispatch of the handlers that layouts declare. -/
def layoutHandlers (p : Procedure) : List Item :=
  method "void callXMLRegisteredCallback(android.content.Context ctx, android.view.View v)"
    ((firstCalls (p.orderedSteps.filter (·.origin.isHandler))).map (handlerDispatch p))

/-- The nondeterministic choice: any number below the bound. -/
def choice : List Item :=
  method "int nondet(int bound)"
    [.line "if (bound <= 0) return 0;",
     .line "return Math.floorMod((int) System.nanoTime(), bound);"]

/-- The text of the stubs class. -/
def stubs (e : EmitSection) (p : Procedure) : String :=
  Item.render <| classItems e.stubsClass <|
    fieldDeclarations p ++ [.blank, .block "static" (fieldInitializers p)] ++ viewLookups p ++
      serviceLookup p ++ ComponentKind.all.flatMap (componentLookup p) ++ layoutHandlers p ++ choice

end AppDriver.Java
