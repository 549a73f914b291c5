import AppDriver.Document.Json.Printer
import AppDriver.Driver.Procedure
import AppDriver.Lifecycle.Document
import AppDriver.StandIn.Document

/-!
The procedure as a document.
-/

namespace AppDriver

def CallOrigin.toTree : CallOrigin → Tree
  | .lifecycle phase => .record [("kind", .text "lifecycle"), ("phase", phase.toTree)]
  | .listener interface identifier =>
    .record ([("kind", .text "listener"), ("interface", interface.toTree)] ++
      Tree.optionalField "identifier" Tree.natural identifier)
  | .handler identifier =>
    .record (("kind", .text "handler") :: Tree.optionalField "identifier" Tree.natural identifier)

def ArgBinding.toTree (a : ArgBinding) : Tree :=
  .record [("param", a.param.toTree), ("value", a.value.toTree)]

def CallStep.toTree (c : CallStep) : Tree :=
  .record [("id", .natural c.id.index), ("component", c.component.toTree),
    ("receiver", c.receiver.toTree), ("method", c.method.toTree),
    ("args", .list (c.args.map ArgBinding.toTree)), ("origin", c.origin.toTree)]

def SectionKind.toTree : SectionKind → Tree
  | .ordered => .record [("kind", .text "ordered")]
  | .unordered passes => .record [("kind", .text "unordered"), ("passes", .natural passes)]

def Section.toTree (s : Section) : Tree :=
  .record [("label", .text s.label), ("kind", s.kind.toTree),
    ("steps", .list (s.steps.map CallStep.toTree))]

def Finding.toTree (f : Finding) : Tree :=
  .record [("severity", .text f.severity.name), ("message", .text f.message)]

namespace Procedure

/-- The procedure with its stand-ins, the table of resolved identifiers and what was found. -/
def toTree (p : Procedure) : Tree :=
  .record [("name", .text p.name), ("stand_ins", .list (p.allocations.map StandIn.toTree)),
    ("identifiers",
      .list (p.registry.identifiers.map fun e => .list [.natural e.1, e.2.toTree])),
    ("sections", .list (p.sections.map Section.toTree)),
    ("degradations", .list (p.degradations.map Degradation.toTree)),
    ("diagnostics", .list (p.findings.map Finding.toTree))]

/-- The procedure as JSON text. -/
def json (p : Procedure) : String := Json.pretty p.toTree

end Procedure
end AppDriver
