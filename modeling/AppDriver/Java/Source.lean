/-!
Java source text as nested blocks of lines, and how it is laid out: four blanks per level, and
nothing on a blank line.
-/

namespace AppDriver.Java

/-- A piece of source text: a line, or a head with the block that it opens. -/
inductive Item where
  | line (text : String)
  | block (head : String) (body : List Item)
deriving Repr

namespace Item

def blank : Item := .line ""

/-- What follows a statement whose failure is ignored. -/
def ignored : String := "catch (Throwable __fault) \x7b\x7d"

/-- A statement in a block of its own whose failure is ignored. -/
def attempt (statement : String) : String := "try \x7b " ++ statement ++ " \x7d " ++ ignored

def guarded (statement : String) : Item := .line (attempt statement)

def indentation (level : Nat) : String := String.join (List.replicate level "    ")

def indented (level : Nat) (text : String) : String :=
  if text.isEmpty then "" else indentation level ++ text

mutual

/-- The lines of an item at a level of nesting. -/
def lines (level : Nat) : Item → List String
  | .line text => [indented level text]
  | .block head body =>
    indented level (head ++ " \x7b") :: bodyLines (level + 1) body ++ [indented level "\x7d"]

def bodyLines (level : Nat) : List Item → List String
  | [] => []
  | i :: is => lines level i ++ bodyLines level is

end

/-- The text of a source file: every line ends with a line break. -/
def render (items : List Item) : String := String.join ((bodyLines 0 items).map (· ++ "\n"))

end Item

/-- A qualified class name in parts: its package, if it has one, and its simple name. -/
def splitClass (qualified : String) : Option String × String :=
  let reversed := qualified.toList.reverse
  let simple := String.ofList (reversed.takeWhile (· != '.')).reverse
  match reversed.dropWhile (· != '.') with
  | [] => (none, simple)
  | _ :: package => (some (String.ofList package.reverse), simple)

/-- The lines in front of a class: its package and a blank line, if it has a package. -/
def packageItems (qualified : String) : List Item :=
  match (splitClass qualified).1 with
  | none => []
  | some package => [.line ("package " ++ package ++ ";"), .blank]

/-- A class of public static members, after a blank line. -/
def classItems (qualified : String) (members : List Item) : List Item :=
  packageItems qualified ++
    [.block ("public class " ++ (splitClass qualified).2) (.blank :: members)]

/-- The file of a class below the directory of sources. -/
def sourcePath (qualified : String) : String :=
  String.ofList (qualified.toList.map fun c => if c = '.' then '/' else c) ++ ".java"

end AppDriver.Java
