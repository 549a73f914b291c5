/-!
Presets: complete sets of defaults for common uses.
-/

namespace AppDriver

/-- The smallest sound driver, the default, and the largest over-approximation. -/
inductive Preset where
  | minimal | balanced | exhaustive
deriving DecidableEq, Repr

namespace Preset

def all : List Preset := [.minimal, .balanced, .exhaustive]

def standard : Preset := .balanced

def name : Preset → String
  | .minimal => "minimal"
  | .balanced => "balanced"
  | .exhaustive => "exhaustive"

/-- The preset a user names, in letters of either case. The case of ASCII letters is enough, as no
other character has an ASCII lower case that occurs in a preset's name. -/
def parse? (s : String) : Option Preset :=
  all.find? fun p => p.name == String.ofList (s.toList.map Char.toLower)

/-- The message for a text that names no preset. -/
def unknownMessage (s : String) : String :=
  "Unknown preset '" ++ s ++ "'. Valid presets: " ++ ", ".intercalate (all.map name)

theorem parse?_name (p : Preset) : parse? p.name = some p := by cases p <;> decide +kernel

end Preset
end AppDriver
