import AppDriver.Config.Section
import AppDriver.Java.Expression
import AppDriver.Java.Source

/-!
The harness class. Its entry method takes every stand-in into a local, makes the calls of the
ordered sections in order, and then, in a loop, any of the calls of the unordered section. Every
load and every call stands alone, so that a failure hides none of those after it.
-/

namespace AppDriver.Java

/-- A local for every stand-in. -/
def localDeclarations (p : Procedure) : List Item :=
  p.allocations.map fun s =>
    .line (s.typeName.text ++ " " ++ s.label ++ " = " ++ startLiteral s.typeName ++ ";")

/-- Takes every stand-in from the stubs. -/
def localLoads (stubs : String) (p : Procedure) : List Item :=
  p.allocations.map fun s => .guarded (s.label ++ " = " ++ stubs ++ "." ++ s.label ++ ";")

/-- A case of the switch over the unordered calls. -/
def callCase (label : StandInRef → String) (step : CallStep × Nat) : Item :=
  .line ("case " ++ toString step.2 ++ ": " ++ Item.attempt (callStatement label step.1) ++
    " break;")

/-- The calls of a section: in order, or as often as there are passes and steps any one of them. -/
def sectionItems (stubs : String) (label : StandInRef → String) (s : Section) : List Item :=
  match s.kind with
  | .ordered =>
    .line ("// " ++ s.label) :: s.steps.map fun step => .guarded (callStatement label step)
  | .unordered passes =>
    let n := s.steps.length
    [.line ("// " ++ s.label ++ ": any order, any subset"),
     .block ("for (int __pass = 0; __pass < " ++ toString (passes * n) ++ "; __pass++)")
       [.block ("switch (" ++ stubs ++ ".nondet(" ++ toString n ++ "))")
         (s.steps.zipIdx.map (callCase label) ++ [.line "default: break;"])]]

/-- The body of the entry method. -/
def entryBody (stubs : String) (p : Procedure) : List Item :=
  localDeclarations p ++ localLoads stubs p ++
    p.sections.flatMap fun s => .blank :: sectionItems stubs p.registry.label s

/-- The text of the harness class. -/
def harness (e : EmitSection) (p : Procedure) : String :=
  Item.render <| classItems e.harnessClass
    [.block ("public static void " ++ p.name ++ "()") (entryBody e.stubsClass p)]

end AppDriver.Java
