/-!
The arguments of the command line. An option takes one value, in the next argument or joined to its
name, and can be given once.
-/

namespace AppDriver.CommandLine

inductive Format where
  | json | java
deriving DecidableEq, Repr

/-- What is asked for: the synthesis of a driver from a facts document, or the listing of lifecycle
protocols. -/
inductive Command where
  | synthesize (facts : String) (config : Option String) (preset : String) (format : Format)
      (out : Option String)
  | protocols (kind : Option String) (config : Option String)
deriving DecidableEq, Repr

/-- An option: its long name, and its letter if it has one. -/
structure OptionName where
  long : String
  letter : Option Char := none
deriving DecidableEq, Repr

/-- Splits a text at its first `=`. -/
def splitEquals (cs : List Char) : List Char × Option (List Char) :=
  match cs.dropWhile (· != '=') with
  | [] => (cs, none)
  | _ :: value => (cs.takeWhile (· != '='), some value)

/-- The option that an argument names, with the value joined to it if there is one. -/
def optionIn? (names : List OptionName) (arg : String) :
    Option (OptionName × Option String) :=
  match arg.toList with
  | '-' :: '-' :: cs =>
    let (name, value) := splitEquals cs
    (names.find? (·.long == String.ofList name)).map (·, value.map String.ofList)
  | '-' :: letter :: cs =>
    let value := match cs with
      | [] => none
      | '=' :: cs => some (String.ofList cs)
      | cs => some (String.ofList cs)
    (names.find? (·.letter == some letter)).map (·, value)
  | _ => none

/-- Whether an argument can be the value of the option before it: it does not look like an option. -/
def isValue (arg : String) : Bool :=
  match arg.toList with
  | '-' :: _ :: _ => false
  | _ => true

/-- The values of the options, in the order in which they are given; nothing else can stand among
them but a separator at the end. -/
def optionValues? (names : List OptionName) : List String → Option (List (String × String))
  | [] => some []
  | ["--"] => some []
  | arg :: args =>
    match optionIn? names arg with
    | none => none
    | some (name, some value) => (optionValues? names args).map ((name.long, value) :: ·)
    | some (name, none) =>
      match args with
      | value :: args =>
        if isValue value then (optionValues? names args).map ((name.long, value) :: ·) else none
      | [] => none

/-- Whether no option is given twice. -/
def allOnce (values : List (String × String)) : Bool :=
  values.all fun v => (values.filter (·.1 == v.1)).length == 1

/-- The value of an option that names a file or a directory, which is not empty. -/
def path? (values : List (String × String)) (name : String) : Option (Option String) :=
  match values.lookup name with
  | none => some none
  | some "" => none
  | some path => some (some path)

def format? : Option String → Option Format
  | none | some "json" => some .json
  | some "java" => some .java
  | some _ => none

def synthesizeOptions : List OptionName :=
  [⟨"facts", some 'f'⟩, ⟨"config", some 'c'⟩, ⟨"preset", some 'p'⟩, ⟨"format", none⟩,
   ⟨"out", some 'o'⟩]

def protocolsOptions : List OptionName := [⟨"kind", some 'k'⟩, ⟨"config", some 'c'⟩]

/-- The command that the arguments ask for, if they ask for one. -/
def parse? : List String → Option Command
  | "synthesize" :: args => do
    let values ← optionValues? synthesizeOptions args
    guard (allOnce values)
    let facts ← (← path? values "facts")
    let config ← path? values "config"
    let format ← format? (values.lookup "format")
    let out ← path? values "out"
    return .synthesize facts config ((values.lookup "preset").getD "balanced") format out
  | "protocols" :: args => do
    let values ← optionValues? protocolsOptions args
    guard (allOnce values)
    let config ← path? values "config"
    return .protocols (values.lookup "kind") config
  | _ => none

end AppDriver.CommandLine
