import AppDriver.Java.Files
import AppDriver.Proofs.LayoutDispatch

/-! Where the generated sources name stand-ins. A draft is a source text in which the places of the
labels are kept apart from the text around them, and which says for each member of a class what
names the member declares itself. The generated texts are what the drafts spell. -/

namespace AppDriver.Java

/-- A piece of a line: text, the label of a stand-in as a name, or its label as the name of a field
of the stubs class. -/
inductive Piece where
  | text (s : String)
  | name (x : StandInRef)
  | field (x : StandInRef)

/-- A line in pieces, or a head with the block that it opens. -/
inductive Draft where
  | line (pieces : List Piece)
  | block (head : String) (body : List Draft)

/-- A part of a class, with the parameters and locals that it declares besides those that are named
after stand-ins. -/
structure Member where
  declares : List String
  body : List Draft

/-- How drafts are spelled: the name of the stubs class and the labels. -/
structure Spelling where
  stubs : String
  label : StandInRef → String

/-- The spelling of the sources of a procedure. -/
def spelling (e : EmitSection) (p : Procedure) : Spelling := ⟨e.stubsClass, p.registry.label⟩

@[simp] theorem spelling_stubs (e : EmitSection) (p : Procedure) :
    (spelling e p).stubs = e.stubsClass := rfl

@[simp] theorem spelling_label (e : EmitSection) (p : Procedure) :
    (spelling e p).label = p.registry.label := rfl

namespace Piece

def spell (n : Spelling) : Piece → String
  | .text s => s
  | .name x => n.label x
  | .field x => n.stubs ++ "." ++ n.label x

def spellAll (n : Spelling) : List Piece → String
  | [] => ""
  | u :: us => u.spell n ++ spellAll n us

/-- Pieces with commas between them. -/
def separated : List Piece → List Piece := List.intersperse (.text ", ")

@[simp] theorem spell_text (n : Spelling) (s : String) : (text s).spell n = s := rfl
@[simp] theorem spell_name (n : Spelling) (x : StandInRef) : (name x).spell n = n.label x := rfl
@[simp] theorem spell_field (n : Spelling) (x : StandInRef) :
    (field x).spell n = n.stubs ++ "." ++ n.label x := rfl

@[simp] theorem spellAll_nil (n : Spelling) : spellAll n [] = "" := rfl
@[simp] theorem spellAll_cons (n : Spelling) (u : Piece) (us : List Piece) :
    spellAll n (u :: us) = u.spell n ++ spellAll n us := rfl

@[simp] theorem spellAll_append (n : Spelling) (us vs : List Piece) :
    spellAll n (us ++ vs) = spellAll n us ++ spellAll n vs := by
  induction us with
  | nil => simp
  | cons u us ih => simp [ih, String.append_assoc]

@[simp] theorem spellAll_separated (n : Spelling) (us : List Piece) :
    spellAll n (separated us) = arguments (us.map (·.spell n)) := by
  induction us with
  | nil => rfl
  | cons u us ih =>
      cases us with
      | nil => simp [separated, arguments]
      | cons v us =>
          have hrest : separated (u :: v :: us) = u :: .text ", " :: separated (v :: us) := rfl
          rw [hrest, spellAll_cons, spellAll_cons, ih]
          simp [arguments, String.intercalate_cons_cons, String.append_assoc]

/-- What holds of every text holds of all separated pieces if it holds of the pieces. -/
theorem forall_mem_separated {P : Piece → Prop} (htext : ∀ s, P (.text s)) (us : List Piece) :
    (∀ u ∈ separated us, P u) ↔ ∀ u ∈ us, P u := by
  induction us with
  | nil => rfl
  | cons u us ih =>
      cases us with
      | nil => rfl
      | cons v us =>
          have hrest : separated (u :: v :: us) = u :: .text ", " :: separated (v :: us) := rfl
          rw [hrest, List.forall_mem_cons, List.forall_mem_cons, ih,
            and_iff_right (htext ", "), List.forall_mem_cons (a := u)]

end Piece

namespace Draft

def blank : Draft := .line []

/-- A statement in a block of its own whose failure is ignored. -/
def guarded (statement : List Piece) : Draft :=
  .line (.text "try \x7b " :: statement ++ [.text (" \x7d " ++ Item.ignored)])

mutual

/-- The text of a draft. -/
def item (n : Spelling) : Draft → Item
  | .line us => .line (Piece.spellAll n us)
  | .block head body => .block head (items n body)

def items (n : Spelling) : List Draft → List Item
  | [] => []
  | d :: ds => d.item n :: items n ds

end

mutual

/-- The pieces of a draft. -/
def pieces : Draft → List Piece
  | .line us => us
  | .block _ body => bodyPieces body

def bodyPieces : List Draft → List Piece
  | [] => []
  | d :: ds => d.pieces ++ bodyPieces ds

end

theorem items_eq_map (n : Spelling) (ds : List Draft) : items n ds = ds.map (item n) := by
  induction ds with
  | nil => rfl
  | cons d ds ih => rw [items, ih, List.map_cons]

theorem bodyPieces_eq_flatMap (ds : List Draft) : bodyPieces ds = ds.flatMap pieces := by
  induction ds with
  | nil => rfl
  | cons d ds ih => rw [bodyPieces, ih, List.flatMap_cons]

@[simp] theorem item_line (n : Spelling) (us : List Piece) :
    (line us).item n = .line (Piece.spellAll n us) := rfl

@[simp] theorem item_block (n : Spelling) (head : String) (body : List Draft) :
    (block head body).item n = .block head (body.map (item n)) := by
  rw [item, items_eq_map]

@[simp] theorem item_blank (n : Spelling) : blank.item n = .blank := rfl

@[simp] theorem item_guarded (n : Spelling) (statement : List Piece) :
    (guarded statement).item n = Item.guarded (Piece.spellAll n statement) := by
  simp [guarded, Item.guarded, Item.attempt, String.append_assoc]

@[simp] theorem pieces_line (us : List Piece) : (line us).pieces = us := rfl

@[simp] theorem pieces_block (head : String) (body : List Draft) :
    (block head body).pieces = body.flatMap pieces := by
  rw [pieces, bodyPieces_eq_flatMap]

end Draft

namespace Member

/-- All pieces of a part of a class. -/
def pieces (m : Member) : List Piece := m.body.flatMap Draft.pieces

/-- The lines of a part of a class. -/
def items (n : Spelling) (m : Member) : List Item := m.body.map (Draft.item n)

end Member

/-- The text of a class in drafts. -/
def sourceText (qualified : String) (n : Spelling) (members : List Member) : String :=
  Item.render (classItems qualified (members.flatMap (·.items n)))

/-! ### The stubs class

The failure that a guarded statement ignores is declared for its empty handler alone, so in this
class it hides no field. -/

/-- The declarations of the fields. -/
def fieldsMember (p : Procedure) : Member where
  declares := []
  body := p.allocations.map fun s =>
    .line [.text ("public static " ++ s.typeName.text ++ " "), .name s.id, .text ";"]

/-- The expression that initializes a stand-in, in pieces. -/
def initializerPieces (s : StandIn) : Option (List Piece) :=
  match s.construction with
  | .degenerate => none
  | .constructor args =>
    some (.text ("new " ++ s.typeName.text ++ "(") :: Piece.separated (args.map .name) ++
      [.text ")"])
  | .staticFactory owner method args =>
    some (.text (owner.text ++ "." ++ method ++ "(") :: Piece.separated (args.map .name) ++
      [.text ")"])
  | .staticField owner field => some [.text (owner.text ++ "." ++ field)]
  | .accessor receiver method => some [.name receiver, .text ("." ++ method ++ "()")]
  | .array element length => some [.text (newArray element length)]
  | .defaultValue => some [.text (valueLiteral s.typeName)]

/-- The initialization of the fields. -/
def initializersMember (p : Procedure) : Member where
  declares := []
  body := [.blank, .block "static" (p.allocations.filterMap fun s =>
    (initializerPieces s).map fun init =>
      .guarded (.name s.id :: .text " = " :: init ++ [.text ";"]))]

/-- A method after a blank line. -/
def methodMember (head : String) (declares : List String) (body : List Draft) : Member where
  declares
  body := [.blank, .block ("public static " ++ head) body]

/-- A method that looks its parameter up among cases. -/
def lookupMember (head parameter : String) (cases : List (String × Piece)) (fallback : Piece) :
    Member :=
  methodMember head [parameter] [.block ("switch (" ++ parameter ++ ")")
    (cases.map (fun c => .line [.text ("case " ++ c.1 ++ ": return "), c.2, .text ";"]) ++
      [.line [.text "default: return ", fallback, .text ";"]])]

/-- The answer to an unknown identifier. -/
def unknownViewPiece (p : Procedure) : Piece :=
  match p.allocations.find? fun s =>
    s.origin == .unresolved none && s.typeName == TypeName.view with
  | some s => .name s.id
  | none => .text "null"

/-- The lookup of views by a variable identifier. -/
def viewLookupMember (p : Procedure) : Member :=
  lookupMember "android.view.View findViewById(int id)" "id"
    (((resolvedViews p).filter (!·.2.isComponent)).map fun v =>
      (toString (signedId v.1), .name v.2.id))
    (unknownViewPiece p)

def inflationMember : Member :=
  methodMember "android.view.View inflateViewById(int id, android.content.Context ctx)"
    ["id", "ctx"] [.line [.text "return findViewById(id);"]]

/-- The getter of the view of an identifier. -/
def viewGetterMember (v : ResourceId × StandIn) : Member :=
  methodMember (v.2.typeName.text ++ " getView" ++ toString v.1 ++ "()") []
    [.line [.text "return ", .name v.2.id, .text ";"]]

/-- The lookup of system services. -/
def servicesMember (p : Procedure) : Member :=
  lookupMember "Object getSystemService(String name)" "name"
    ((sortedServices p.registry.catalog).filterMap fun s =>
      (p.registry.lookupAmbient? s.2).map fun x => ("\"" ++ s.1 ++ "\"", .name x))
    (.text "null")

/-- The lookup of the components of a kind. -/
def componentMembers (p : Procedure) (kind : ComponentKind) : List Member :=
  match kind.stubGetter, kind.supertype with
  | some getter, some supertype =>
    [lookupMember (supertype.text ++ " " ++ getter ++ "(String className)") "className"
      ((p.registry.components.filter (·.1.kind == kind)).map fun e =>
        ("\"" ++ e.1.name.text ++ "\"", .name e.2))
      (.text "null")]
  | _, _ => []

/-- An argument of a handler called from a layout. -/
def handlerArgumentPiece (a : ArgBinding) : Piece :=
  if a.param = TypeName.view then .text "v" else .name a.value

/-- The dispatch of a handler declared in a layout. -/
def handlerDraft (p : Procedure) (s : CallStep) : Draft :=
  let call := .text (s.method.name ++ "(") :: Piece.separated (s.args.map handlerArgumentPiece) ++
    [.text ")"]
  if (p.registry.get? s.receiver).any isContext then
    .guarded (.text ("if (ctx instanceof " ++ s.component.text ++ ") ((" ++ s.component.text ++
      ") ctx).") :: call ++ [.text ";"])
  else .guarded (.name s.receiver :: .text "." :: call ++ [.text ";"])

/-- The dispatch of the handlers that layouts declare. -/
def handlersMember (p : Procedure) : Member :=
  methodMember "void callXMLRegisteredCallback(android.content.Context ctx, android.view.View v)"
    ["ctx", "v"] ((layoutCalls p).map (handlerDraft p))

def choiceMember : Member :=
  methodMember "int nondet(int bound)" ["bound"]
    [.line [.text "if (bound <= 0) return 0;"],
     .line [.text "return Math.floorMod((int) System.nanoTime(), bound);"]]

/-- The parts of the stubs class. -/
def stubsMembers (p : Procedure) : List Member :=
  [fieldsMember p, initializersMember p, viewLookupMember p, inflationMember] ++
    (resolvedViews p).map viewGetterMember ++ [servicesMember p] ++
    ComponentKind.all.flatMap (componentMembers p) ++ [handlersMember p, choiceMember]

/-! ### The harness class -/

/-- A call, in pieces. -/
def callPieces (c : CallStep) : List Piece :=
  .name c.receiver :: .text ("." ++ c.method.name ++ "(") ::
    Piece.separated (c.args.map fun a => .name a.value) ++ [.text ");"]

/-- A case of the switch over the unordered calls. -/
def callCaseDraft (step : CallStep × Nat) : Draft :=
  .line (.text ("case " ++ toString step.2 ++ ": ") :: .text "try \x7b " :: callPieces step.1 ++
    [.text (" \x7d " ++ Item.ignored ++ " break;")])

/-- The calls of a section. -/
def sectionDrafts (stubs : String) (label : String) (s : Section) : List Draft :=
  match s.kind with
  | .ordered => .line [.text ("// " ++ label)] :: s.steps.map fun step => .guarded (callPieces step)
  | .unordered passes =>
    let n := s.steps.length
    [.line [.text ("// " ++ label ++ ": any order, any subset")],
     .block ("for (int __pass = 0; __pass < " ++ toString (passes * n) ++ "; __pass++)")
       [.block ("switch (" ++ stubs ++ ".nondet(" ++ toString n ++ "))")
         (s.steps.zipIdx.map callCaseDraft ++ [.line [.text "default: break;"]])]]

/-- The locals that the entry method declares besides those of stand-ins: the failure that each
guarded statement ignores, and the counter of the loop over the unordered calls. -/
def entryLocals (p : Procedure) : List String :=
  "__fault" :: if p.sections.any (·.isUnordered) then ["__pass"] else []

/-- The entry method. -/
def entryMember (e : EmitSection) (p : Procedure) : Member where
  declares := entryLocals p
  body := [.block ("public static void " ++ p.name ++ "()") <|
    (p.allocations.map fun s => .line [.text (s.typeName.text ++ " "), .name s.id,
      .text (" = " ++ startLiteral s.typeName ++ ";")]) ++
    (p.allocations.map fun s => .guarded [.name s.id, .text " = ", .field s.id, .text ";"]) ++
    p.sections.flatMap fun s => .blank :: sectionDrafts e.stubsClass s.label s]

/-! ### What the drafts spell -/

section Text

variable (n : Spelling)

theorem initializer?_eq (s : StandIn) :
    initializer? n.label s = (initializerPieces s).map (Piece.spellAll n) := by
  rw [initializer?, initializerPieces]
  cases s.construction <;> simp [String.append_assoc, Function.comp_def]

theorem method_items (head : String) (declares : List String) (body : List Draft) :
    (methodMember head declares body).items n = method head (body.map (Draft.item n)) := by
  simp [methodMember, Member.items, method]

theorem lookup_items (head parameter : String) (cases : List (String × Piece))
    (fallback : Piece) :
    (lookupMember head parameter cases fallback).items n =
      lookup head parameter (cases.map fun c => (c.1, c.2.spell n)) (fallback.spell n) := by
  rw [lookupMember, method_items, lookup]
  simp [Function.comp_def, String.append_assoc]

theorem call_spelled (c : CallStep) :
    Piece.spellAll n (callPieces c) = callStatement n.label c := by
  simp [callPieces, callStatement, String.append_assoc, Function.comp_def]

theorem section_items (s : Section) :
    (sectionDrafts n.stubs s.label s).map (Draft.item n) = sectionItems n.stubs n.label s := by
  have hcase : ∀ step : CallStep × Nat, (callCaseDraft step).item n = callCase n.label step := by
    intro step
    simp [callCaseDraft, callCase, Item.attempt, call_spelled, String.append_assoc]
  rw [sectionDrafts, sectionItems]
  cases s.kind <;> simp [call_spelled, hcase, Function.comp_def, String.append_assoc]

end Text

section Procedure

variable (e : EmitSection) {p : Procedure}

theorem handler_item (s : CallStep) :
    (handlerDraft p s).item (spelling e p) = handlerDispatch p s := by
  have hargument : ∀ a, (handlerArgumentPiece a).spell (spelling e p) = handlerArgument p a := by
    intro a
    rw [handlerArgumentPiece, handlerArgument]
    split <;> rfl
  rw [handlerDraft, handlerDispatch]
  split <;> simp [hargument, Function.comp_def, String.append_assoc]

theorem component_items (kind : ComponentKind) :
    (componentMembers p kind).flatMap (·.items (spelling e p)) = componentLookup p kind := by
  rw [componentMembers, componentLookup]
  cases kind.stubGetter <;> cases kind.supertype <;>
    simp [lookup_items, Function.comp_def]

theorem services_items : (servicesMember p).items (spelling e p) = serviceLookup p := by
  rw [servicesMember, lookup_items, serviceLookup, List.map_filterMap]
  simp only [Option.map_map, Function.comp_def]
  rfl

/-- Whether every stand-in of a procedure is found under its own reference. -/
def IsPlaced (p : Procedure) : Prop := ∀ s ∈ p.allocations, p.registry.get? s.id = some s

theorem IsPlaced.label (h : IsPlaced p) {s : StandIn} (hs : s ∈ p.allocations) :
    p.registry.label s.id = s.label := by
  have hget : p.registry.store.get? s.id = some s := h s hs
  rw [Registry.label, Store.label, hget]
  rfl

theorem mem_resolvedViews {v : ResourceId × StandIn} (hv : v ∈ resolvedViews p) :
    v.2 ∈ p.allocations := by
  obtain ⟨e, -, he⟩ := List.mem_filterMap.1 hv
  obtain ⟨s, hs, rfl⟩ := Option.map_eq_some_iff.1 he
  exact List.mem_of_getElem? hs

theorem fields_items (h : IsPlaced p) :
    (fieldsMember p).items (spelling e p) = fieldDeclarations p := by
  rw [fieldsMember, Member.items, fieldDeclarations, List.map_map]
  refine List.map_congr_left fun s hs => ?_
  simp [h.label hs, String.append_assoc]

theorem initializers_items (h : IsPlaced p) :
    (initializersMember p).items (spelling e p) =
      [.blank, .block "static" (fieldInitializers p)] := by
  have hinit : p.allocations.filterMap (fun s => ((initializerPieces s).map fun init =>
      Draft.guarded (.name s.id :: .text " = " :: init ++ [.text ";"])).map
        (Draft.item (spelling e p))) = fieldInitializers p := by
    refine List.filterMap_congr fun s hs => ?_
    have heq := initializer?_eq (spelling e p) s
    rw [spelling_label] at heq
    rw [heq]
    cases initializerPieces s <;> simp [h.label hs, String.append_assoc]
  rw [initializersMember, Member.items, List.map_cons, List.map_cons, List.map_nil,
    Draft.item_block, List.map_filterMap, hinit]
  rfl

theorem views_items (h : IsPlaced p) :
    (viewLookupMember p).items (spelling e p) ++ inflationMember.items (spelling e p) ++
      ((resolvedViews p).map viewGetterMember).flatMap (·.items (spelling e p)) =
      viewLookups p := by
  have hunknown : (unknownViewPiece p).spell (spelling e p) = unknownView p := by
    rw [unknownViewPiece, unknownView]
    split
    · rename_i s hs
      rw [hs]
      exact h.label (List.mem_of_find?_eq_some hs)
    · rename_i hs
      rw [hs]
      rfl
  have hcases : ∀ vs : List (ResourceId × StandIn), vs ⊆ resolvedViews p →
      (vs.map fun v => (toString (signedId v.1), p.registry.label v.2.id)) =
        vs.map fun v => (toString (signedId v.1), v.2.label) := by
    intro vs hvs
    refine List.map_congr_left fun v hv => ?_
    rw [h.label (mem_resolvedViews (hvs hv))]
  have hgetters : ((resolvedViews p).map viewGetterMember).flatMap (·.items (spelling e p)) =
      (resolvedViews p).flatMap fun v =>
        method (v.2.typeName.text ++ " getView" ++ toString v.1 ++ "()") [returns v.2.label] := by
    rw [List.flatMap_map]
    refine List.flatMap_congr fun v hv => ?_
    rw [viewGetterMember, method_items]
    simp [returns, h.label (mem_resolvedViews hv), String.append_assoc]
  have hlookup := hcases _ (List.filter_subset_self (p := fun v => !v.2.isComponent) _)
  rw [viewLookupMember, lookup_items, hunknown, hgetters, inflationMember, method_items,
    viewLookups, ← hlookup]
  simp [Function.comp_def]

/-- The stubs class is what its drafts spell. -/
theorem stubs_eq (h : IsPlaced p) :
    stubs e p = sourceText e.stubsClass (spelling e p) (stubsMembers p) := by
  have hhandlers : (handlersMember p).items (spelling e p) = layoutHandlers p := by
    rw [handlersMember, method_items, List.map_map]
    exact congrArg (method _) (List.map_congr_left fun s _ => handler_item e s)
  have hchoice : choiceMember.items (spelling e p) = choice := by
    rw [choiceMember, method_items]
    rfl
  have hcomponents : (ComponentKind.all.flatMap (componentMembers p)).flatMap
      (·.items (spelling e p)) = ComponentKind.all.flatMap (componentLookup p) := by
    rw [List.flatMap_assoc]
    exact List.flatMap_congr fun kind _ => component_items e kind
  rw [stubs, sourceText, stubsMembers]
  simp only [List.flatMap_append, List.flatMap_cons, List.flatMap_nil, List.append_nil,
    fields_items e h, initializers_items e h, services_items, hcomponents, hhandlers, hchoice,
    ← views_items e h, List.append_assoc]

/-- The harness class is what its drafts spell. -/
theorem harness_eq (h : IsPlaced p) :
    harness e p = sourceText e.harnessClass (spelling e p) [entryMember e p] := by
  have hdeclarations : (p.allocations.map fun s => Draft.item (spelling e p) (.line
      [.text (s.typeName.text ++ " "), .name s.id,
        .text (" = " ++ startLiteral s.typeName ++ ";")])) = localDeclarations p := by
    refine List.map_congr_left fun s hs => ?_
    simp [h.label hs, String.append_assoc]
  have hloads : (p.allocations.map fun s => Draft.item (spelling e p) (.guarded
      [.name s.id, .text " = ", .field s.id, .text ";"])) = localLoads e.stubsClass p := by
    refine List.map_congr_left fun s hs => ?_
    simp [h.label hs, String.append_assoc]
  have hsections : (p.sections.flatMap fun s => (Draft.blank ::
      sectionDrafts e.stubsClass s.label s).map (Draft.item (spelling e p))) =
      p.sections.flatMap fun s => .blank :: sectionItems e.stubsClass p.registry.label s :=
    List.flatMap_congr fun s _ => congrArg (List.cons Item.blank) (section_items (spelling e p) s)
  have hbody : (entryMember e p).items (spelling e p) =
      [.block ("public static void " ++ p.name ++ "()") (entryBody e.stubsClass p)] := by
    rw [entryMember, Member.items, List.map_singleton, Draft.item_block, List.map_append,
      List.map_append, List.map_map, List.map_map, List.map_flatMap, entryBody, ← hdeclarations,
      ← hloads, ← hsections]
    rfl
  rw [harness, sourceText, List.flatMap_cons, List.flatMap_nil, List.append_nil, hbody]

end Procedure

end AppDriver.Java
