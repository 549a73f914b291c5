import AppDriver.Config.Section

/-!
A tree of text files as the command line sees it. A path that leads through a file, or that is a
directory, cannot be written.
-/

namespace AppDriver

/-- The names on the way to a file; an absolute path starts with the name `/`. -/
structure FilePath where
  names : List String
deriving DecidableEq, Repr

namespace FilePath

/-- The path that a text names. Empty names and `.` lead nowhere. -/
def ofText (s : String) : FilePath :=
  let names := ((segments '/' s.toList).map String.ofList).filter fun n => !n.isEmpty && n != "."
  ⟨if s.toList.head? == some '/' then "/" :: names else names⟩

def render (p : FilePath) : String := "/".intercalate p.names

/-- A path as written, followed by a relative one. -/
def join (before after : String) : String :=
  if before.toList.getLast? == some '/' then before ++ after else before ++ "/" ++ after

/-- Whether a path leads to another one or is the same. -/
def isPrefixOf (p q : FilePath) : Bool := p.names.isPrefixOf q.names

def parent (p : FilePath) : FilePath := ⟨p.names.dropLast⟩

/-- Whether the name of a file ends in this extension, in letters of either case. A dot at the start
of a name starts no extension. -/
def hasExtension (extension : String) (p : FilePath) : Bool :=
  match p.names.getLast? with
  | none => false
  | some name =>
    let reversed := name.toList.reverse
    let last := (reversed.takeWhile (· != '.')).reverse
    let before := (reversed.dropWhile (· != '.')).drop 1
    !before.isEmpty && String.ofList (last.map Char.toLower) == extension

end FilePath

/-- Files with their texts. -/
structure FileTree where
  files : List (FilePath × String) := []
deriving DecidableEq, Repr

namespace FileTree

/-- The text of a file; a path written as that of a directory names none. -/
def read? (t : FileTree) (s : String) : Option String :=
  if s.toList.getLast? == some '/' then none
  else (t.files.find? (·.1 == FilePath.ofText s)).map (·.2)

/-- Whether a path is a file or leads through one. -/
def blocks (t : FileTree) (p : FilePath) : Bool := t.files.any (·.1.isPrefixOf p)

/-- Whether there is, or can be made, a directory at a path. -/
def canMakeDirectory (t : FileTree) (s : String) : Bool := !t.blocks (FilePath.ofText s)

/-- Writes a file, making the directories on the way. -/
def write? (t : FileTree) (s : String) (text : String) : Option FileTree :=
  let p := FilePath.ofText s
  if t.blocks p.parent || t.files.any (fun f => p.isPrefixOf f.1 && f.1 != p) then none
  else some ⟨t.files.filter (·.1 != p) ++ [(p, text)]⟩

end FileTree
end AppDriver
