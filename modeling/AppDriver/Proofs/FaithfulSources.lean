import AppDriver.Proofs.LegibleSources

/-! The generated sources say what the procedure says. Read back line by line, the stubs class has a
field for each stand-in and initializes those that are not degenerate, each from earlier ones; the
entry method has a local for each, makes the ordered calls one by one, and then chooses among the
unordered ones in a loop. -/

namespace AppDriver

open Registry (Reachable)

namespace Java

/-! ### What the sources are to say -/

/-- The stand-in that a piece names. -/
def Piece.standIn? : Piece → Option StandInRef
  | .text _ => none
  | .name x | .field x => some x

/-- The expression that initializes a stand-in, empty if there is none. -/
def initialText (e : EmitSection) (p : Procedure) (s : StandIn) : String :=
  ((initializerPieces s).map (Piece.spellAll (spelling e p))).getD ""

/-- Whether a call by names is that of a step: it calls the method, on the stand-in that receives the
call, with those that are passed to it. Each name is the label of its stand-in. -/
structure NamedCall.IsOf (p : Procedure) (named : NamedCall) (c : CallStep) : Prop where
  receiver : labelled? p named.receiver = some c.receiver
  method : named.method = c.method.name
  args : named.args.map (labelled? p) = c.args.map fun a => some a.value

/-- Whether a statement makes the call of a step, and can be read as no other call. -/
def MakesCall (p : Procedure) (statement : String) (c : CallStep) : Prop :=
  ∃ named : NamedCall, statement = named.text ∧ call? statement = some named ∧ named.IsOf p c

/-- Whether a loop makes the calls of a section. It runs once for each pass and call, and each time
chooses one of the calls by its number. -/
structure CallLoop.Makes (p : Procedure) (l : CallLoop) (s : Section) : Prop where
  bound : l.bound = toString (s.passes * s.steps.length)
  choices : l.choices = toString s.steps.length
  cases : List.Forall₂ (fun c step => c.1 = toString step.2 ∧ MakesCall p c.2 step.1) l.cases
    s.steps.zipIdx

/-- What is read of the entry method in the harness class. -/
def entryBody? (e : EmitSection) (p : Procedure) : Option (List Statement) :=
  statements? e.harnessClass p.name e.stubsClass (harness e p)

/-- The statement that takes a stand-in from the stubs class. -/
def loadStatement (stubs : String) (s : StandIn) : String :=
  s.label ++ " = " ++ stubs ++ "." ++ s.label ++ ";"

/-- Whether the sources of a procedure say what it says. The stand-ins have distinct names, and each
has a field and a local of its type. Those that are not degenerate are assigned in order, and an
expression names stand-ins before its own only. Each load and each ordered call is attempted alone,
and nothing else but the loops over the unordered calls is done. -/
structure Faithful (e : EmitSection) (p : Procedure) : Prop where
  distinct : (p.allocations.map (·.label)).Nodup
  fields : fields? e.stubsClass (stubs e p) =
    some (p.allocations.map fun s => (s.typeName.text, s.label))
  locals : (entryBody? e p).map (·.filterMap Statement.declared?) =
    some (p.allocations.map fun s => (s.typeName.text, s.label))
  assignments : assignments? e.stubsClass (stubs e p) =
    some ((p.allocations.filter (!·.isDegenerate)).map fun s => (s.label, initialText e p s))
  earlier : ∀ (i : Nat) (s : StandIn) (init : List Piece), p.allocations[i]? = some s →
    initializerPieces s = some init → ∀ u ∈ init, ∀ x, u.standIn? = some x →
      ∃ j < i, ∃ z, p.allocations[j]? = some z ∧ z.id = x ∧ u.spell (spelling e p) = z.label
  calls : ∃ calls, (entryBody? e p).map (·.filterMap Statement.attempted?) =
      some (p.allocations.map (loadStatement e.stubsClass) ++ calls) ∧
    List.Forall₂ (MakesCall p) calls p.orderedSteps
  loops : ∃ loops, (entryBody? e p).map (·.filterMap Statement.repeated?) = some loops ∧
    List.Forall₂ (CallLoop.Makes p) loops (p.sections.filter (·.isUnordered))

/-! ### Reading the classes -/

section Stubs

variable {e : EmitSection} {p : Procedure}

/-- A method is no line of a class. -/
theorem lineTexts_method (head : String) (body : List Item) :
    (method head body).filterMap lineText? = [] := rfl

theorem lineTexts_fields :
    (fieldDeclarations p).filterMap lineText? =
      p.allocations.map fun s => "public static " ++ s.typeName.text ++ " " ++ s.label ++ ";" := by
  rw [fieldDeclarations, List.filterMap_map, List.filterMap_eq_map_iff_forall_eq_some]
  refine fun s _ => lineText?_line fun hempty => ?_
  simpa using congrArg String.toList hempty

theorem lineTexts_views : (viewLookups p).filterMap lineText? = [] := by
  rw [viewLookups, lookup, List.filterMap_append, List.filterMap_append, List.filterMap_flatMap,
    lineTexts_method, lineTexts_method]
  exact List.flatMap_eq_nil_iff.2 fun v _ => lineTexts_method _ _

theorem lineTexts_components :
    (ComponentKind.all.flatMap (componentLookup p)).filterMap lineText? = [] := by
  rw [List.filterMap_flatMap]
  refine List.flatMap_eq_nil_iff.2 fun kind _ => ?_
  rw [componentLookup]
  split
  · exact lineTexts_method _ _
  · rfl

variable (h : Grounded p) (hnames : OnOneLine e p)

include h hnames in
theorem stubs_fields : fields? e.stubsClass (stubs e p) =
    some (p.allocations.map fun s => (s.typeName.text, s.label)) := by
  have hlines : (Item.blank :: stubsItems p).filterMap lineText? =
      p.allocations.map fun s => "public static " ++ s.typeName.text ++ " " ++ s.label ++ ";" := by
    have hblank : lineText? .blank = none := rfl
    have hblock : ∀ body, lineText? (.block "static" body) = none := fun _ => rfl
    simp only [stubsItems, List.filterMap_cons, hblank, hblock, List.filterMap_append,
      lineTexts_fields, lineTexts_views, lineTexts_components, serviceLookup, lookup,
      layoutHandlers, choice, lineTexts_method, List.filterMap_nil, List.append_nil]
  rw [fields?, stubs_render, members?_render (legible_stubs h hnames), Option.bind_some, hlines,
    List.mapM_map]
  exact mapM_eq_some_map fun s hs => field?_line s.typeName.text (h.oneWord_own hs)

theorem valueLiteral_ne_empty (t : TypeName) : valueLiteral t ≠ "" := by
  rw [valueLiteral]
  repeat' split
  all_goals decide

/-- Whatever is not degenerate is initialized from something. -/
theorem initialText_ne_empty (e : EmitSection) {s : StandIn} (hs : s.isDegenerate = false) :
    initialText e p s ≠ "" := by
  have hne : s.construction ≠ .degenerate := beq_eq_false_iff_ne.1 hs
  rw [initialText, initializerPieces]
  cases hconstruction : s.construction
  case degenerate => exact absurd hconstruction hne
  case defaultValue => simpa using valueLiteral_ne_empty s.typeName
  case array element length => simp [newArray]
  all_goals simp

theorem initializer?_of_isDegenerate (e : EmitSection) (s : StandIn) :
    initializer? p.registry.label s =
      if s.isDegenerate then none else some (initialText e p s) := by
  rw [← spelling_label e p, initializer?_eq, initialText, StandIn.isDegenerate, initializerPieces]
  cases s.construction <;> rfl

theorem fieldInitializers_eq (e : EmitSection) : fieldInitializers p =
    (p.allocations.filter (!·.isDegenerate)).map fun s =>
      Item.guarded (s.label ++ " = " ++ initialText e p s ++ ";") := by
  rw [fieldInitializers, ← List.filterMap_eq_map', List.filterMap_filter]
  refine List.filterMap_congr fun s _ => ?_
  rw [initializer?_of_isDegenerate e]
  cases s.isDegenerate <;> rfl

include h hnames in
theorem stubs_assignments : assignments? e.stubsClass (stubs e p) =
    some ((p.allocations.filter (!·.isDegenerate)).map fun s => (s.label, initialText e p s)) := by
  have hlines : ∀ i ∈ Item.blank :: (fieldDeclarations p ++ [.blank]), ∃ t, i = .line t := by
    rw [List.forall_mem_cons, List.forall_mem_append, List.forall_mem_singleton]
    exact ⟨⟨_, rfl⟩, List.forall_mem_map.2 fun s _ => ⟨_, rfl⟩, ⟨_, rfl⟩⟩
  have hblock : ∃ others, Item.blank :: stubsItems p =
      (Item.blank :: (fieldDeclarations p ++ [.blank])) ++
        .block "static" (fieldInitializers p) :: others := by
    simp [stubsItems]
  obtain ⟨others, hothers⟩ := hblock
  rw [assignments?, stubs_render, members?_render (legible_stubs h hnames), Option.bind_some,
    hothers, blockOf?_lines_append "static" hlines, blockOf?_block, Option.bind_some,
    fieldInitializers_eq e, List.mapM_map]
  refine mapM_eq_some_map fun s hs => ?_
  obtain ⟨hs, hinit⟩ := List.mem_filter.1 hs
  exact assignment?_guarded (h.oneWord_own hs) (initialText_ne_empty e (by simpa using hinit))

/-- What a stand-in is initialized from stands before it. -/
theorem dependency_of_piece {s : StandIn} {init : List Piece}
    (hinit : initializerPieces s = some init) : ∀ u ∈ init, ∀ x, u.standIn? = some x →
    x ∈ s.construction.dependencies ∧ u.spell (spelling e p) = p.registry.label x := by
  let P : Piece → Prop := fun u => ∀ x, u.standIn? = some x →
    x ∈ s.construction.dependencies ∧ u.spell (spelling e p) = p.registry.label x
  have htext : ∀ t, P (.text t) := fun t x hx => by cases hx
  have hname : ∀ x ∈ s.construction.dependencies, P (.name x) := fun x hx z hz => by
    cases hz
    exact ⟨hx, rfl⟩
  have hargs : ∀ u ∈ Piece.separated (s.construction.dependencies.map .name), P u :=
    (Piece.forall_mem_separated htext _).2 (List.forall_mem_map.2 hname)
  change ∀ u ∈ init, P u
  rw [initializerPieces] at hinit
  cases hconstruction : s.construction <;> rw [hconstruction] at hinit hargs hname <;> cases hinit
  case constructor args =>
      exact List.forall_mem_cons.2 ⟨htext _, List.forall_mem_append.2
        ⟨hargs, List.forall_mem_singleton.2 (htext _)⟩⟩
  case staticFactory owner method args =>
      exact List.forall_mem_cons.2 ⟨htext _, List.forall_mem_append.2
        ⟨hargs, List.forall_mem_singleton.2 (htext _)⟩⟩
  case accessor receiver method =>
      exact List.forall_mem_cons.2 ⟨hname receiver (List.mem_singleton.2 rfl),
        List.forall_mem_singleton.2 (htext _)⟩
  all_goals exact List.forall_mem_singleton.2 (htext _)

include h in
theorem initializer_earlier {i : Nat} {s : StandIn} (hs : p.allocations[i]? = some s)
    {init : List Piece} (hinit : initializerPieces s = some init) :
    ∀ u ∈ init, ∀ x, u.standIn? = some x →
      ∃ j < i, ∃ z, p.allocations[j]? = some z ∧ z.id = x ∧ u.spell (spelling e p) = z.label := by
  intro u hu x hx
  obtain ⟨hdependency, hspelled⟩ := dependency_of_piece hinit u hu x hx
  have hbefore : x.index < i := (h.reachable.orderly.placed ⟨i⟩ s hs).reads x hdependency
  have hhas : p.registry.store.Has x := hbefore.trans (List.getElem?_eq_some_iff.1 hs).1
  obtain ⟨z, hz, rfl, hlabel⟩ := h.exists_allocation hhas
  exact ⟨z.id.index, hbefore, z, h.isPlaced z hz, rfl, hspelled.trans hlabel⟩

end Stubs

/-! ### Reading the entry method -/

section Entry

variable {e : EmitSection} {p : Procedure}

/-- The loop that an unordered section is read as. -/
def callLoop (label : StandInRef → String) (s : Section) : CallLoop where
  bound := toString (s.passes * s.steps.length)
  choices := toString s.steps.length
  cases := s.steps.zipIdx.map fun step => (toString step.2, callStatement label step.1)

/-- The statements that a section is read as. -/
def sectionStatements (label : StandInRef → String) (s : Section) : List Statement :=
  match s.kind with
  | .ordered => .remark ("// " ++ s.label) :: s.steps.map fun c => .attempt (callStatement label c)
  | .unordered _ => [.remark ("// " ++ (s.label ++ ": any order, any subset")),
      .repeated (callLoop label s)]

theorem section_statements (stubs : String) (label : StandInRef → String) {s : Section}
    (hlabel : ';' ∉ s.label.toList ∧ '\x7d' ∉ s.label.toList) :
    (sectionItems stubs label s).mapM (statement? stubs) = some (sectionStatements label s) := by
  rw [sectionItems, sectionStatements]
  cases hkind : s.kind with
  | ordered =>
      have hremark : s.label.toList.getLast? ∉ [some ';', some '\x7d'] := by
        simp only [List.mem_cons, List.not_mem_nil, or_false, not_or]
        exact ⟨fun hlast => hlabel.1 (List.mem_of_getLast? hlast),
          fun hlast => hlabel.2 (List.mem_of_getLast? hlast)⟩
      have hcalls : (s.steps.map fun c => Item.guarded (callStatement label c)).mapM
          (statement? stubs) = some (s.steps.map fun c => .attempt (callStatement label c)) := by
        rw [List.mapM_map]
        exact mapM_eq_some_map fun c _ => statement?_guarded _
      dsimp only
      rw [List.mapM_cons, statement?_remark hremark, hcalls]
      rfl
  | unordered passes =>
      have hremark : (s.label ++ ": any order, any subset").toList.getLast? ∉
          [some ';', some '\x7d'] := by
        rw [String.toList_append, List.getLast?_append]
        simp
      have hpasses : s.passes = passes := by rw [Section.passes, hkind]
      dsimp only
      rw [List.mapM_cons, String.append_assoc, statement?_remark hremark, List.mapM_cons,
        statement?, loop?_calls, callLoop, hpasses]
      rfl

/-- The statements that the entry method is read as. -/
def entryStatements (e : EmitSection) (p : Procedure) : List Statement :=
  (p.allocations.map fun s => .declaration s.typeName.text s.label) ++
    (p.allocations.map fun s => .attempt (loadStatement e.stubsClass s)) ++
    p.sections.flatMap fun s => .remark "" :: sectionStatements p.registry.label s

variable (h : Grounded p) (hnames : OnOneLine e p) (hsections : SectionsLabelled p)

include h hnames hsections in
theorem entryBody?_eq : entryBody? e p = some (entryStatements e p) := by
  have hmembers := members?_render (legible_harness h hnames hsections)
  have hblock : blockOf? ("public static void " ++ p.name ++ "()") [.blank, entryMethod e p] =
      some (entryBody e.stubsClass p) := blockOf?_block _ _ []
  have hlocals : (localDeclarations p).mapM (statement? e.stubsClass) =
      some (p.allocations.map fun s => .declaration s.typeName.text s.label) := by
    rw [localDeclarations, List.mapM_map]
    exact mapM_eq_some_map fun s hs => statement?_declaration s.typeName.text (h.oneWord_own hs)
      (oneLine_startLiteral s.typeName).2
  have hloads : (localLoads e.stubsClass p).mapM (statement? e.stubsClass) =
      some (p.allocations.map fun s => .attempt (loadStatement e.stubsClass s)) := by
    rw [localLoads, List.mapM_map]
    exact mapM_eq_some_map fun s _ => statement?_guarded _
  have hcalls : (p.sections.flatMap fun s =>
      .blank :: sectionItems e.stubsClass p.registry.label s).mapM (statement? e.stubsClass) =
      some (p.sections.flatMap fun s => .remark "" :: sectionStatements p.registry.label s) := by
    refine mapM_flatMap_eq_some fun s hs => ?_
    rw [List.mapM_cons, statement?_blank, section_statements e.stubsClass p.registry.label
      ⟨hsections.not_mem hs (by decide), hsections.not_mem hs (by decide)⟩]
    rfl
  rw [entryBody?, statements?, harness_render, hmembers, Option.bind_some, hblock, Option.bind_some,
    entryBody, List.mapM_append, List.mapM_append, hlocals, hloads, hcalls]
  rfl

theorem flatMap_filter_eq {P : α → Bool} {f : α → List β} (as : List α) :
    (as.filter P).flatMap f = as.flatMap fun a => if P a then f a else [] := by
  induction as with
  | nil => rfl
  | cons a as ih => cases ha : P a <;> simp [ha, ih]

/-- What is taken of the sections where no remark counts. -/
theorem filterMap_sections {f : Statement → Option α} (hremark : ∀ t, f (.remark t) = none)
    (label : StandInRef → String) (sections : List Section) :
    (sections.flatMap fun s => .remark "" :: sectionStatements label s).filterMap f =
      sections.flatMap fun s =>
        if s.isUnordered then (f (.repeated (callLoop label s))).toList
        else s.steps.filterMap fun c => f (.attempt (callStatement label c)) := by
  rw [List.filterMap_flatMap]
  refine List.flatMap_congr fun s _ => ?_
  rw [List.filterMap_cons_none (hremark _), sectionStatements, Section.isUnordered]
  cases s.kind with
  | ordered =>
      dsimp only
      rw [List.filterMap_cons_none (hremark _), List.filterMap_map]
      rfl
  | unordered passes =>
      dsimp only
      rw [List.filterMap_cons_none (hremark _)]
      cases hf : f (.repeated (callLoop label s)) <;> simp [hf]

theorem entry_declared : (entryStatements e p).filterMap Statement.declared? =
    p.allocations.map fun s => (s.typeName.text, s.label) := by
  have hsections : (p.sections.flatMap fun s => .remark "" ::
      sectionStatements p.registry.label s).filterMap Statement.declared? = [] := by
    rw [filterMap_sections fun _ => rfl, List.flatMap_eq_nil_iff]
    intro s _
    simp [Statement.declared?]
  rw [entryStatements, List.filterMap_append, List.filterMap_append, hsections, List.append_nil]
  simp [List.filterMap_map, Function.comp_def, Statement.declared?]

theorem entry_attempted : (entryStatements e p).filterMap Statement.attempted? =
    p.allocations.map (loadStatement e.stubsClass) ++
      p.orderedSteps.map (callStatement p.registry.label) := by
  have hsections : (p.sections.flatMap fun s => .remark "" ::
      sectionStatements p.registry.label s).filterMap Statement.attempted? =
      p.orderedSteps.map (callStatement p.registry.label) := by
    rw [filterMap_sections fun _ => rfl, Procedure.orderedSteps, List.map_flatMap,
      flatMap_filter_eq]
    refine List.flatMap_congr fun s _ => ?_
    cases s.isUnordered <;> simp [Statement.attempted?]
  rw [entryStatements, List.filterMap_append, List.filterMap_append, hsections]
  simp [List.filterMap_map, Function.comp_def, Statement.attempted?]

theorem entry_repeated : (entryStatements e p).filterMap Statement.repeated? =
    (p.sections.filter (·.isUnordered)).map (callLoop p.registry.label) := by
  have hsections : (p.sections.flatMap fun s => .remark "" ::
      sectionStatements p.registry.label s).filterMap Statement.repeated? =
      (p.sections.filter (·.isUnordered)).map (callLoop p.registry.label) := by
    rw [filterMap_sections fun _ => rfl, List.map_eq_flatMap, flatMap_filter_eq]
    refine List.flatMap_congr fun s _ => ?_
    cases s.isUnordered <;> simp [Statement.repeated?]
  rw [entryStatements, List.filterMap_append, List.filterMap_append, hsections]
  simp [List.filterMap_map, Function.comp_def, Statement.repeated?]

/-! ### The calls -/

include h in
/-- A call that is written is read back: a label holds none of the characters around it. -/
theorem makesCall_callStatement {c : CallStep} (hc : c ∈ p.steps) :
    MakesCall p (callStatement p.registry.label c) c := by
  let named : NamedCall :=
    ⟨p.registry.label c.receiver, c.method.name, c.args.map fun a => p.registry.label a.value⟩
  have hreceiver := h.isLabel_label (h.receivers c hc)
  have hargs : ∀ l ∈ named.args, l ≠ "" ∧ ',' ∉ l.toList ∧ '(' ∉ l.toList := by
    refine List.forall_mem_map.2 fun a ha => ?_
    have hlabel := h.isLabel_label (h.arguments c hc a ha)
    exact ⟨fun hempty => hlabel.1 (hempty ▸ rfl), hlabel.not_mem (by decide),
      hlabel.not_mem (by decide)⟩
  have hof : named.IsOf p c := {
    receiver := h.labelled?_label (h.receivers c hc)
    method := rfl
    args := by
      rw [List.map_map]
      exact List.map_congr_left fun a ha => h.labelled?_label (h.arguments c hc a ha) }
  exact ⟨named, rfl, call?_text named (hreceiver.not_mem (by decide)) hargs, hof⟩

include h in
theorem makes_callLoop {s : Section} (hs : s ∈ p.sections) :
    (callLoop p.registry.label s).Makes p s where
  bound := rfl
  choices := rfl
  cases := by
    rw [callLoop, List.forall₂_map_left_iff, List.forall₂_same]
    intro step hstep
    have hmem : step.1 ∈ p.steps :=
      List.mem_flatMap.2 ⟨s, hs, List.fst_mem_of_mem_zipIdx hstep⟩
    exact ⟨rfl, makesCall_callStatement h hmem⟩

include h hnames hsections in
theorem entry_calls : ∃ calls, (entryBody? e p).map (·.filterMap Statement.attempted?) =
      some (p.allocations.map (loadStatement e.stubsClass) ++ calls) ∧
    List.Forall₂ (MakesCall p) calls p.orderedSteps := by
  refine ⟨p.orderedSteps.map (callStatement p.registry.label), ?_, ?_⟩
  · rw [entryBody?_eq h hnames hsections, Option.map_some, entry_attempted]
  · rw [List.forall₂_map_left_iff, List.forall₂_same]
    exact fun c hc => makesCall_callStatement h (orderedSteps_subset p hc)

include h hnames hsections in
theorem entry_loops : ∃ loops, (entryBody? e p).map (·.filterMap Statement.repeated?) = some loops ∧
    List.Forall₂ (CallLoop.Makes p) loops (p.sections.filter (·.isUnordered)) := by
  refine ⟨(p.sections.filter (·.isUnordered)).map (callLoop p.registry.label), ?_, ?_⟩
  · rw [entryBody?_eq h hnames hsections, Option.map_some, entry_repeated]
  · rw [List.forall₂_map_left_iff, List.forall₂_same]
    exact fun s hs => makes_callLoop h (List.mem_filter.1 hs).1

end Entry

/-- The sources of a procedure say what it says if they can be read back. -/
theorem Grounded.faithful {e : EmitSection} {p : Procedure} (h : Grounded p)
    (hsections : SectionsLabelled p) (hnames : OnOneLine e p) : Faithful e p where
  distinct := h.reachable.labelled.distinct
  fields := stubs_fields h hnames
  locals := by rw [entryBody?_eq h hnames hsections, Option.map_some, entry_declared]
  assignments := stubs_assignments h hnames
  earlier _ _ _ hs hinit := initializer_earlier h hs hinit
  calls := entry_calls h hnames hsections
  loops := entry_loops h hnames hsections

end Java

namespace Synthesizer

variable (y : Synthesizer) (handlers : List HandlerBinding) (components : List Component)
  {registry : Registry}

/-- The sources of the procedure of a document say what it says. -/
theorem synthesizeFacts_faithful (d : Facts) (e : EmitSection)
    (hnames : Java.OnOneLine e (y.synthesizeFacts d)) : Java.Faithful e (y.synthesizeFacts d) :=
  (y.synthesizeFacts_grounded d).faithful
    (y.sections_labelled d.handlers d.components _ (y.servicesRegistry_reachable d)) hnames

/-- **Faithful sources.** Over every registry that operations reach, and for every choice of class
names, the two sources say what the procedure says if the names and types in them are free of line
breaks. -/
theorem synthesize_faithful (h : Reachable registry) (e : EmitSection)
    (hnames : Java.OnOneLine e (y.synthesize components handlers registry)) :
    Java.Faithful e (y.synthesize components handlers registry) :=
  (y.procedure_grounded handlers components [] h).faithful
    (y.sections_labelled handlers components [] h) hnames

/-- The clicks that an activity listens to, driven over a registry in which a cycle was cut: a call in
order, and a loop over the same call. -/
theorem listening_faithful : Reachable Registry.knotRegistry ∧
    Java.OnOneLine .standard (synthesize {} [listeningActivity] [] Registry.knotRegistry) ∧
    Java.Faithful .standard (synthesize {} [listeningActivity] [] Registry.knotRegistry) ∧
    (synthesize {} [listeningActivity] [] Registry.knotRegistry).unorderedSteps ≠ [] := by
  have hnames : Java.OnOneLine .standard
      (synthesize {} [listeningActivity] [] Registry.knotRegistry) := by
    constructor <;> decide +kernel
  exact ⟨Registry.knotRegistry_reachable, hnames,
    synthesize_faithful {} [] [listeningActivity] Registry.knotRegistry_reachable .standard hnames,
    by decide +kernel⟩

end Synthesizer
end AppDriver
