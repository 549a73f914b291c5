import AppDriver.Text.Blank

/-!
Type names in source form: `android.view.View.OnClickListener`, `byte[]`. `TypeName.ofText` brings
a name into this form; a name inside a document is taken as it stands.
-/

namespace AppDriver

/-- A fully qualified type name. -/
structure TypeName where
  text : String
deriving DecidableEq, Repr

namespace TypeName

/-- A name without blanks at its ends and with the binary separator `$` written as `.`. -/
def ofText (s : String) : TypeName :=
  ⟨String.ofList ((trimBoth isBlank s.toList).map fun c => if c = '$' then '.' else c)⟩

def object : TypeName := ⟨"java.lang.Object"⟩
def view : TypeName := ⟨"android.view.View"⟩
def context : TypeName := ⟨"android.content.Context"⟩

/-- Removes array brackets from the end of a name that is given in reverse. -/
def dropBrackets : List Char → List Char
  | ']' :: '[' :: cs => dropBrackets cs
  | cs => cs

/-- The name in reverse, without the brackets of an array. -/
def reversedBase (t : TypeName) : List Char :=
  dropBrackets t.text.toList.reverse

/-- The name without the brackets of an array. -/
def baseText (t : TypeName) : String := String.ofList t.reversedBase.reverse

/-- The number of array brackets at the end of a name that is given in reverse. -/
def countBrackets : List Char → Nat
  | ']' :: '[' :: cs => countBrackets cs + 1
  | _ => 0

/-- The number of dimensions of an array type. -/
def dimensions (t : TypeName) : Nat := countBrackets t.text.toList.reverse

/-- The last segment of the name (`SurfaceView` of `android.view.SurfaceView`), without brackets. -/
def simpleName (t : TypeName) : String :=
  String.ofList (t.reversedBase.takeWhile (· != '.')).reverse

/-- All before the last segment, empty for a name of one segment. -/
def package (t : TypeName) : String :=
  String.ofList ((t.reversedBase.dropWhile (· != '.')).drop 1).reverse

def primitives : List String :=
  ["boolean", "byte", "char", "short", "int", "long", "float", "double"]

def boxes : List String :=
  ["java.lang.Boolean", "java.lang.Byte", "java.lang.Character", "java.lang.Short",
   "java.lang.Integer", "java.lang.Long", "java.lang.Float", "java.lang.Double"]

def isPrimitive (t : TypeName) : Bool := primitives.contains t.text
def isBoxed (t : TypeName) : Bool := boxes.contains t.text
def isVoid (t : TypeName) : Bool := t.text == "void"
def isString (t : TypeName) : Bool := t.text == "java.lang.String" || t.text == "String"

/-- The element type of an array type (`byte` of `byte[]`). -/
def elementType (t : TypeName) : Option TypeName :=
  match t.text.toList.reverse with
  | ']' :: '[' :: cs => some ⟨String.ofList cs.reverse⟩
  | _ => none

def isArray (t : TypeName) : Bool := t.elementType.isSome

/-- Types whose values have no identity: primitives, boxes and strings. -/
def isValueType (t : TypeName) : Bool := t.isPrimitive || t.isBoxed || t.isString

/-- Types that are passed by value rather than by reference to one shared object. -/
def isPlainValue (t : TypeName) : Bool := t.isValueType || t.isArray

/-- Whether the name lives in a namespace of the framework rather than of the app. -/
def isFramework (t : TypeName) : Bool :=
  ["android.", "androidx.", "java.", "javax."].any fun p => p.toList.isPrefixOf t.text.toList

end TypeName
end AppDriver
