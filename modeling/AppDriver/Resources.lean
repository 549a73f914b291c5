import AppDriver.Component

/-!
Resource facts: which identifier is declared with which type, and which handler methods are
declared on which identifier. Where an identifier is declared twice the first declaration counts.
-/

namespace AppDriver

/-- A declared pair of identifier and static type, with its symbolic name and the layout that
declares it. -/
structure IdentifierBinding where
  id : ResourceId
  declaredType : TypeName
  name : Option String := none
  scope : Option String := none
deriving DecidableEq, Repr

/-- A handler method declared outside the code on a view. Without a component it is unscoped. -/
structure HandlerBinding where
  component : Option TypeName := none
  method : String
  identifier : ResourceId
deriving DecidableEq, Repr

/-- An identifier redeclared with a type other than its first. -/
structure IdentifierConflict where
  id : ResourceId
  kept : TypeName
  ignored : TypeName
deriving DecidableEq, Repr

/-- The first declared type of an identifier. -/
def declaredType? (bindings : List IdentifierBinding) (id : ResourceId) : Option TypeName :=
  (bindings.find? (·.id == id)).map (·.declaredType)

/-- The conflicts of `bindings` with the bindings before them and with one another. -/
def conflictsAfter (earlier : List IdentifierBinding) :
    List IdentifierBinding → List IdentifierConflict
  | [] => []
  | b :: bindings =>
    let rest := conflictsAfter (earlier ++ [b]) bindings
    match declaredType? earlier b.id with
    | none => rest
    | some kept =>
      if kept = b.declaredType then rest else ⟨b.id, kept, b.declaredType⟩ :: rest

/-- The identifiers redeclared with another type, one entry for each such redeclaration. -/
def identifierConflicts (bindings : List IdentifierBinding) : List IdentifierConflict :=
  conflictsAfter [] bindings

end AppDriver
