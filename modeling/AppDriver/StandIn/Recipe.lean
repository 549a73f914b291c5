import AppDriver.Component

/-!
Recipes: ways to obtain an instance of a framework type without running the framework, and the
catalog of recipes and system services. A type without an entry that looks like a view is built with
a context.
-/

namespace AppDriver

/-- Where a parameter of a recipe comes from: the shared context, the shared object of a type, a
typed null, or a plain value. -/
inductive ParamSource where
  | context
  | ambient (type : TypeName)
  | degenerate (type : TypeName)
  | value (type : TypeName)
deriving DecidableEq, Repr

namespace ParamSource

/-- The source of a parameter of which only the type is known. -/
def ofType (t : TypeName) : ParamSource := if t.isPlainValue then .value t else .ambient t

/-- The type that the source names. -/
def typeName : ParamSource → TypeName
  | .context => TypeName.context
  | .ambient t | .degenerate t | .value t => t

end ParamSource

/-- How a type is fabricated: by its constructor, by a static method or field, as another type that
is more specific, or not at all because it needs the real framework. -/
inductive Recipe where
  | constructor (params : List ParamSource)
  | staticFactory (owner : TypeName) (method : String) (params : List ParamSource)
  | staticField (owner : TypeName) (field : String)
  | substitute (type : TypeName)
  | unfabricable
deriving DecidableEq, Repr

/-- The parameters that following a recipe needs. -/
def Recipe.params : Recipe → List ParamSource
  | .constructor ps => ps
  | .staticFactory _ _ ps => ps
  | _ => []

/-- A table in which a key occurs at most once. -/
def upsert [BEq κ] (k : κ) (v : α) (table : List (κ × α)) : List (κ × α) :=
  (k, v) :: table.filter (·.1 != k)

/-- The known recipes and the types of the known system services. -/
structure FrameworkCatalog where
  recipes : List (TypeName × Recipe) := []
  services : List (String × TypeName) := []
deriving DecidableEq, Repr

namespace FrameworkCatalog

/-- Adds a recipe, in place of the one of its type if there is one. -/
def withRecipe (c : FrameworkCatalog) (t : TypeName) (r : Recipe) : FrameworkCatalog :=
  { c with recipes := upsert t r c.recipes }

/-- Adds a system service, in place of the one of its name if there is one. -/
def withService (c : FrameworkCatalog) (name : String) (t : TypeName) : FrameworkCatalog :=
  { c with services := upsert name t c.services }

/-- Packages whose classes are views that can be built with a context. -/
def widgetPackages : List String :=
  ["android.widget", "android.support.v7.widget", "androidx.appcompat.widget",
   "androidx.recyclerview.widget"]

/-- Endings of the names of classes in these packages that are no views. -/
def nonViewEndings : List String := ["Adapter", "Listener", "Watcher", "Callback", "Params"]

def endsWith (s ending : String) : Bool := ending.toList.isSuffixOf s.toList

/-- Whether the name is that of a view that can be built with a context. -/
def isViewType (t : TypeName) : Bool :=
  if t = TypeName.view then true
  else if t.package = "android.view" then
    endsWith t.simpleName "View" || endsWith t.simpleName "ViewGroup"
  else
    widgetPackages.contains t.package && t.simpleName != "Toast" &&
      !nonViewEndings.any (endsWith t.simpleName)

/-- The recipe of a type: its entry, else that of a view if it looks like one. -/
def recipeFor (c : FrameworkCatalog) (t : TypeName) : Option Recipe :=
  match c.recipes.lookup t with
  | some r => some r
  | none => if isViewType t then some (.constructor [.context]) else none

/-- The type of a system service. -/
def serviceType? (c : FrameworkCatalog) (name : String) : Option TypeName := c.services.lookup name

def size (c : FrameworkCatalog) : Nat := c.recipes.length
def isEmpty (c : FrameworkCatalog) : Bool := c.recipes.isEmpty

end FrameworkCatalog
end AppDriver
