import AppDriver.CommandLine.Run

/-!
The command line over the files of the machine.
-/

namespace AppDriver.CommandLine

/-- The text of a file that can be read as one. -/
def readText? (path : String) : IO (Option String) := do
  try return some (← IO.FS.readFile path) catch _ => return none

/-- The files of a command that can be read. -/
def readInputs (paths : List String) : IO FileTree := do
  let mut files := []
  for path in paths do
    if let some text ← readText? path then
      files := files ++ [(FilePath.ofText path, text)]
  return ⟨files⟩

/-- Writes a file, making its directory. -/
def writeText (path text : String) : IO Unit := do
  let directory := "/".intercalate (path.splitOn "/").dropLast
  unless directory.isEmpty do
    IO.FS.createDirAll directory
  IO.FS.writeFile path text

/-- Prints and writes what a command leaves. -/
def perform (r : Result) : IO UInt32 := do
  for (path, text) in r.written do
    writeText path text
  for note in r.notes do
    IO.eprintln note
  if let some reason := r.failure then
    IO.eprintln s!"Error: {reason}"
  IO.print r.stdout
  return r.exit.toUInt32

end AppDriver.CommandLine

open AppDriver.CommandLine in
def main (args : List String) : IO UInt32 := do
  let files ← readInputs ((parse? args).map inputs |>.getD [])
  perform (run files args)
