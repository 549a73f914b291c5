import AppDriver.Resources
import AppDriver.StandIn.Basic
import AppDriver.StandIn.Label

/-!
The store of stand-ins: the arena, in which every stand-in comes after those it is built from, and
one table per kind of key under which a stand-in can be asked for. An entry is added to a table only
where there is none, so a key keeps its answer.
-/

namespace AppDriver

/-- The first declaration of an identifier. -/
structure DeclaredIdentifier where
  declaredType : TypeName
  name : Option String
deriving DecidableEq, Repr

/-- All stand-ins and the keys under which they are known. `cycleBreaks` holds, while a type is
being fabricated, the degenerate stand-in with which a cycle through it was cut. -/
structure Store where
  arena : List StandIn := []
  declared : List (ResourceId × DeclaredIdentifier) := []
  byIdentifier : List (ResourceId × StandInRef) := []
  ambients : List (TypeName × StandInRef) := []
  values : List (TypeName × StandInRef) := []
  typedNulls : List (TypeName × StandInRef) := []
  unresolved : List (TypeName × StandInRef) := []
  services : List (String × StandInRef) := []
  derived : List ((StandInRef × String) × StandInRef) := []
  components : List (Component × StandInRef) := []
  cycleBreaks : List (TypeName × StandInRef) := []
  degradations : List Degradation := []
deriving DecidableEq, Repr

namespace TypeName

/-- The type as part of a label: `byte[]` is `ByteArray`, `java.lang.String` is `String`. -/
def labelPart (t : TypeName) : String :=
  capitalized t.simpleName ++ String.join (List.replicate t.dimensions "Array")

end TypeName

namespace Store

def get? (s : Store) (r : StandInRef) : Option StandIn := s.arena[r.index]?

/-- The label of a stand-in, empty for a reference to none. -/
def label (s : Store) (r : StandInRef) : String := ((s.get? r).map (·.label)).getD ""

def labels (s : Store) : List String := s.arena.map (·.label)

/-- Adds a stand-in at the end of the arena, with a fresh label made from the hint. -/
def push (s : Store) (t : TypeName) (origin : Origin) (construction : Construction)
    (hint : String) : StandInRef × Store :=
  let id : StandInRef := ⟨s.arena.length⟩
  (id, { s with
    arena := s.arena ++ [⟨id, t, origin, construction, Label.fresh s.labels hint⟩] })

/-- Records that a stand-in had to be degenerate. -/
def record (s : Store) (r : StandInRef) (subject : String) (reason : DegradationReason) : Store :=
  { s with degradations := s.degradations ++ [⟨r, subject, reason⟩] }

/-- Adds a degenerate stand-in and the record of it. -/
def pushDegenerate (s : Store) (t : TypeName) (origin : Origin) (hint subject : String)
    (reason : DegradationReason) : StandInRef × Store :=
  let made := s.push t origin .degenerate hint
  (made.1, made.2.record made.1 subject reason)

/-- The plain value of a type: an array of this length, or the default value. -/
def value (s : Store) (arrayLength : Nat) (t : TypeName) : StandInRef × Store :=
  match s.values.lookup t with
  | some r => (r, s)
  | none =>
    let construction := match t.elementType with
      | some element => .array element arrayLength
      | none => .defaultValue
    let made := s.push t .value construction ("value" ++ t.labelPart)
    (made.1, { made.2 with values := (t, made.1) :: made.2.values })

/-- The typed null of a type. As an argument it is intended, so it is no degradation. -/
def typedNull (s : Store) (t : TypeName) : StandInRef × Store :=
  match s.typedNulls.lookup t with
  | some r => (r, s)
  | none =>
    let made := s.push t .ambient .degenerate ("null" ++ t.simpleName)
    (made.1, { made.2 with typedNulls := (t, made.1) :: made.2.typedNulls })

/-- The stand-in of a registered component class. -/
def component? (s : Store) (name : TypeName) : Option StandInRef :=
  (s.components.find? (·.1.name == name)).map (·.2)

/-- Adds the instance of a component, built from `args`. -/
def enroll (s : Store) (c : Component) (args : List StandInRef) : StandInRef × Store :=
  let made := s.push c.name (.component c.kind) (.constructor args)
    (uncapitalized c.name.simpleName)
  (made.1, { made.2 with components := made.2.components ++ [(c, made.1)] })

/-- Cuts the cycle of a component class that needs itself while its arguments are made. -/
def cutComponentCycle (s : Store) (name : TypeName) : StandInRef × Store :=
  let made := s.typedNull name
  (made.1, made.2.record made.1 name.text .cycle)

/-- Cuts the cycle of a type that needs itself while it is fabricated. -/
def cutCycle (s : Store) (t : TypeName) (origin : Origin) (hint : String) : StandInRef × Store :=
  let made := s.pushDegenerate t origin hint t.text .cycle
  (made.1, { made.2 with cycleBreaks := (t, made.1) :: made.2.cycleBreaks })

/-- Forgets that a cycle through a type was cut. -/
def forgetCycle (s : Store) (t : TypeName) : Store :=
  { s with cycleBreaks := s.cycleBreaks.filter (·.1 != t) }

/-- Adds a stand-in whose arguments are made. If making them cut a cycle through its type, the
shared object of the type is the one that cut it. -/
def complete (s : Store) (t : TypeName) (origin : Origin) (construction : Construction)
    (hint : String) : StandInRef × Store :=
  match s.cycleBreaks.lookup t with
  | some broken =>
    if origin = .ambient then (broken, s.forgetCycle t)
    else (s.forgetCycle t).push t origin construction hint
  | none => s.push t origin construction hint

/-- Makes `r` the shared object of a type unless there is one, and then also of its own type, which
differs where a more specific type was fabricated. -/
def settleAmbient (s : Store) (t : TypeName) (r : StandInRef) : StandInRef × Store :=
  match s.ambients.lookup t with
  | some existing => (existing, s)
  | none =>
    let s := { s with ambients := (t, r) :: s.ambients }
    match (s.get? r).map (·.typeName) with
    | none => (r, s)
    | some concrete =>
      match s.ambients.lookup concrete with
      | some _ => (r, s)
      | none => (r, { s with ambients := (concrete, r) :: s.ambients })

end Store
end AppDriver
