import AppDriver.Java.Harness
import AppDriver.Java.Stubs

/-!
The generated source files.
-/

namespace AppDriver.Java

/-- The files of both classes, by their paths below the directory of sources, in the order in which
they are written. -/
def files (e : EmitSection) (p : Procedure) : List (String × String) :=
  [(sourcePath e.harnessClass, harness e p), (sourcePath e.stubsClass, stubs e p)]

end AppDriver.Java
