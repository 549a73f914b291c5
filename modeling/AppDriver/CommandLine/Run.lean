import AppDriver.CommandLine.Arguments
import AppDriver.CommandLine.FileTree
import AppDriver.Config.Document
import AppDriver.Document.Json.Reader
import AppDriver.Document.Yaml.Reader
import AppDriver.Driver.Artifact
import AppDriver.Driver.Synthesis
import AppDriver.Java.Files

/-!
Running a command over a directory of files: what is printed, what is written, and how it ends.
-/

namespace AppDriver

/-- The facts in the text of a file: JSON if its name says so, else YAML. -/
def Facts.ofFile (path : String) : Option String → Except FactsError Facts
  | none => .error .unreadable
  | some text =>
    Facts.ofTree? (if (FilePath.ofText path).hasExtension "json" then Json.parse? text else Yaml.parse? text)

/-- The configuration in the text of a file. -/
def ValidConfig.ofFile : Option String → Except ConfigError ValidConfig
  | none => .error .unreadable
  | some text => ValidConfig.ofTree? (Yaml.parse? text)

namespace CommandLine

/-- How a command ends: 0 for success, 1 for a failure, 2 for arguments that ask for nothing. -/
structure Result where
  exit : Nat
  stdout : String := ""
  notes : List String := []
  written : List (String × String) := []
  failure : Option String := none
deriving Repr

def usage : Result := { exit := 2, failure := some "the arguments ask for no command" }

/-- A failure after some notes. -/
def failed (notes : List String) (reason : String) : Result :=
  { exit := 1, notes, failure := some reason }

/-- The configuration of a file, else of a preset. -/
def config (t : FileTree) (path : Option String) (preset : String) : Except String ValidConfig :=
  match path with
  | some path =>
    match ValidConfig.ofFile (t.read? path) with
    | .error e => .error (e.message.getD ("cannot read " ++ path))
    | .ok c => .ok c
  | none =>
    match Preset.parse? preset with
    | none => .error (Preset.unknownMessage preset)
    | some preset =>
      match HarnessConfig.build { preset } with
      | .error e => .error (e.message.getD "")
      | .ok c => .ok c

/-- The files that synthesis writes below a directory. -/
def outputFiles (c : ValidConfig) (format : Format) (out : String) (p : Procedure) :
    List (String × String) :=
  match format with
  | .json => [(FilePath.join out (p.name ++ ".json"), p.json)]
  | .java => (Java.files c.emit p).map fun f => (FilePath.join out f.1, f.2)

/-- What synthesis prints. -/
def outputText (c : ValidConfig) (format : Format) (p : Procedure) : String :=
  match format with
  | .json => p.json ++ "\n"
  | .java => Java.stubs c.emit p ++ "\n" ++ Java.harness c.emit p ++ "\n"

/-- Writes files one after the other, up to the first that cannot be written: those that are
written, and whether they are all. -/
def writeAll (t : FileTree) : List (String × String) → List (String × String) × Bool
  | [] => ([], true)
  | f :: files =>
    match t.write? f.1 f.2 with
    | none => ([], false)
    | some t =>
      let rest := writeAll t files
      (f :: rest.1, rest.2)

/-- The last line of a synthesis. -/
def summary (p : Procedure) : String :=
  toString p.steps.length ++ " steps over " ++ toString p.allocations.length ++ " stand-ins (" ++
    toString p.degradations.length ++ " degraded)"

def synthesize (t : FileTree) (c : ValidConfig) (facts : String) (format : Format)
    (out : Option String) : Result :=
  let described := "config: " ++ c.describe
  match Facts.ofFile facts (t.read? facts) with
  | .error e => failed [described] (e.message.getD ("cannot read " ++ facts))
  | .ok d =>
    let p := { config := c : Synthesizer }.synthesizeFacts d
    let warnings := (p.findings.filter (·.severity == .warning)).map Finding.display
    let notes := described :: warnings
    match out with
    | none => { exit := 0, stdout := outputText c format p, notes := notes ++ [summary p] }
    | some out =>
      let files := outputFiles c format out p
      let (written, complete) := if t.canMakeDirectory out then writeAll t files else ([], false)
      if complete then
        { exit := 0, written
          notes := notes ++ files.map (fun f => "wrote " ++ f.1) ++ [summary p] }
      else { exit := 1, written, notes, failure := some ("cannot write to " ++ out) }

/-- A step with its phase in a column of ten characters. -/
def protocolLine (s : LifecycleStep) : String :=
  let phase := s.phase.name
  "  " ++ phase ++ String.ofList (List.replicate (10 - phase.length) ' ') ++ " " ++
    s.method.display ++ "\n"

/-- The protocol of a kind in canonical order. -/
def protocolText (c : ValidConfig) (k : ComponentKind) : String :=
  k.name ++ ":\n" ++ String.join ((c.protocols.get k).canonicalOrder.map protocolLine)

def protocols (c : ValidConfig) (kind : Option String) : Result :=
  let described := "config: " ++ c.describe
  let print := fun ks : List ComponentKind =>
    { exit := 0, stdout := String.join (ks.map (protocolText c)), notes := [described] : Result }
  match kind with
  | none => print ComponentKind.all
  | some name =>
    match ComponentKind.parse? name with
    | none => failed [described] (ComponentKind.unknownMessage name)
    | some k => print [k]

/-- Runs the command that the arguments ask for. The configuration is read before the facts. -/
def run (t : FileTree) (args : List String) : Result :=
  match parse? args with
  | none => usage
  | some (.synthesize facts path preset format out) =>
    match config t path preset with
    | .error e => failed [] e
    | .ok c => synthesize t c facts format out
  | some (.protocols kind path) =>
    match config t path Preset.standard.name with
    | .error e => failed [] e
    | .ok c => protocols c kind

/-- The files that a command reads. -/
def inputs : Command → List String
  | .synthesize facts config _ _ _ => facts :: config.toList
  | .protocols _ config => config.toList

end CommandLine
end AppDriver
