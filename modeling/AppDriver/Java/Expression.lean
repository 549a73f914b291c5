import AppDriver.Driver.Procedure

/-!
The Java expressions of a procedure: how each stand-in is initialized, what a local starts from, and
the statement that makes a call.
-/

namespace AppDriver.Java

def arguments (labels : List String) : String := ", ".intercalate labels

/-- The literal of a plain value: zero, false or the empty string. -/
def valueLiteral (t : TypeName) : String :=
  match t.text with
  | "boolean" => "false"
  | "java.lang.Boolean" => "Boolean.FALSE"
  | "java.lang.Character" => "Character.valueOf((char) 0)"
  | "java.lang.Byte" => "Byte.valueOf((byte) 0)"
  | "java.lang.Short" => "Short.valueOf((short) 0)"
  | "java.lang.Integer" => "Integer.valueOf(0)"
  | "java.lang.Long" => "Long.valueOf(0L)"
  | "java.lang.Float" => "Float.valueOf(0f)"
  | "java.lang.Double" => "Double.valueOf(0d)"
  | _ => if t.isString then "\"\"" else if t.isPrimitive then "0" else "null"

/-- The literal that a local of a type starts from. -/
def startLiteral (t : TypeName) : String :=
  if t.text == "boolean" then "false" else if t.isPrimitive then "0" else "null"

/-- A new array: its brackets with the length come first, then those of its elements. -/
def newArray (element : TypeName) (length : Nat) : String :=
  "new " ++ element.baseText ++ "[" ++ toString length ++ "]" ++
    String.join (List.replicate element.dimensions "[]")

/-- The expression that initializes a stand-in; a degenerate one stays null. -/
def initializer? (label : StandInRef → String) (s : StandIn) : Option String :=
  match s.construction with
  | .degenerate => none
  | .constructor args => some ("new " ++ s.typeName.text ++ "(" ++ arguments (args.map label) ++ ")")
  | .staticFactory owner method args =>
    some (owner.text ++ "." ++ method ++ "(" ++ arguments (args.map label) ++ ")")
  | .staticField owner field => some (owner.text ++ "." ++ field)
  | .accessor receiver method => some (label receiver ++ "." ++ method ++ "()")
  | .array element length => some (newArray element length)
  | .defaultValue => some (valueLiteral s.typeName)

/-- The statement that makes a call. -/
def callStatement (label : StandInRef → String) (c : CallStep) : String :=
  label c.receiver ++ "." ++ c.method.name ++ "(" ++
    arguments (c.args.map fun a => label a.value) ++ ");"

end AppDriver.Java
