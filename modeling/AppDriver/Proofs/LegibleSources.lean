import AppDriver.Proofs.LabelScopes
import AppDriver.Proofs.LabelTexts
import AppDriver.Proofs.SourceStatements

/-! The generated sources can be read back. What they consist of, besides fixed text, numbers and
labels, are names and types that the configuration and the app choose; if none of these contains a
line break, every line is read as it was laid out. -/

namespace AppDriver

/-- The types, methods and fields that a construction names. -/
def Construction.names : Construction → List String
  | .staticFactory owner method _ => [owner.text, method]
  | .staticField owner field => [owner.text, field]
  | .accessor _ method => [method]
  | .array element _ => [element.text]
  | .constructor _ | .defaultValue | .degenerate => []

namespace Java

/-- Whether the names and types that the sources of a procedure write are free of line breaks. -/
structure OnOneLine (e : EmitSection) (p : Procedure) : Prop where
  harnessClass : OneLine e.harnessClass
  stubsClass : OneLine e.stubsClass
  entry : OneLine p.name
  types : ∀ s ∈ p.allocations, OneLine s.typeName.text
  constructions : ∀ s ∈ p.allocations, ∀ n ∈ s.construction.names, OneLine n
  components : ∀ c ∈ p.registry.components, OneLine c.1.name.text
  services : ∀ s ∈ p.registry.catalog.services, OneLine s.1
  calls : ∀ c ∈ p.steps, OneLine c.component.text ∧ OneLine c.method.name

/-! ### Parts of names -/

theorem oneLine_toString (n : Nat) : OneLine (toString n) := not_mem_toString (by decide) n

theorem oneLine_toString_int (n : Int) : OneLine (toString n) :=
  not_mem_toString_int (by decide) (by decide) n

theorem oneLine_arguments {labels : List String} (h : ∀ l ∈ labels, OneLine l) :
    OneLine (arguments labels) := not_mem_intercalate (by decide) h

theorem dropBrackets_suffix (cs : List Char) : TypeName.dropBrackets cs <:+ cs := by
  fun_induction TypeName.dropBrackets cs with
  | case1 cs ih => exact (ih.trans (List.suffix_cons _ _)).trans (List.suffix_cons _ _)
  | case2 cs => exact List.suffix_refl _

theorem oneLine_newArray {element : TypeName} (h : OneLine element.text) (length : Nat) :
    OneLine (newArray element length) := by
  have hbase : OneLine element.baseText := by
    intro hbreak
    rw [TypeName.baseText, String.toList_ofList, List.mem_reverse] at hbreak
    exact h (List.mem_reverse.1 ((dropBrackets_suffix _).subset hbreak))
  have hbrackets : OneLine (String.join (List.replicate element.dimensions "[]")) :=
    oneLine_join fun l hl => by
      rw [List.eq_of_mem_replicate hl]
      decide
  simp +decide only [newArray, oneLine_append, hbase, hbrackets, oneLine_toString]

theorem oneLine_valueLiteral (t : TypeName) : OneLine (valueLiteral t) := by
  rw [valueLiteral]
  repeat' split
  all_goals decide

theorem oneLine_startLiteral (t : TypeName) :
    OneLine (startLiteral t) ∧ OneWord (startLiteral t) := by
  rw [startLiteral]
  repeat' split
  all_goals decide

theorem oneLine_splitClass {qualified : String} (h : OneLine qualified) :
    OneLine (splitClass qualified).2 ∧ ∀ package ∈ (splitClass qualified).1, OneLine package := by
  have hchars : ∀ cs ⊆ qualified.toList.reverse, OneLine (String.ofList cs.reverse) := by
    intro cs hcs hbreak
    rw [String.toList_ofList, List.mem_reverse] at hbreak
    exact h (List.mem_reverse.1 (hcs hbreak))
  have hsimple := hchars _ (List.takeWhile_sublist (· != '.')).subset
  rw [splitClass]
  split
  · exact ⟨hsimple, fun _ hpackage => by cases hpackage⟩
  · rename_i dot package hpackage
    refine ⟨hsimple, fun name hname => ?_⟩
    obtain rfl := Option.some.inj hname
    refine hchars package fun c hc => ?_
    exact (List.dropWhile_sublist (· != '.')).subset (hpackage ▸ List.mem_cons_of_mem dot hc)

/-! ### Lines -/

variable {t : String}

theorem legible_blank : Item.blank.Legible := ⟨by decide, by decide⟩

/-- A line whose end is not that of a head. -/
theorem legible_append (h : OneLine t) {ending : String} (hending : OneLine ending)
    (hlast : ending.toList.getLast?.any (· != '\x7b') = true) :
    (Item.line (t ++ ending)).Legible := by
  refine ⟨h.append hending, ?_⟩
  rw [String.toList_append, List.getLast?_append]
  cases hend : ending.toList.getLast? with
  | none =>
      rw [hend] at hlast
      cases hlast
  | some c =>
      rw [hend] at hlast
      simpa using hlast

theorem legible_semicolon (h : OneLine t) : (Item.line (t ++ ";")).Legible :=
  legible_append h (by decide) (by decide)

theorem oneLine_attempt (h : OneLine t) : OneLine (Item.attempt t) := by
  simp +decide only [Item.attempt, Item.ignored, oneLine_append, h]

theorem legible_guarded (h : OneLine t) : (Item.guarded t).Legible := by
  refine ⟨oneLine_attempt h, ?_⟩
  rw [getLast?_attempt]
  decide

theorem legible_method {head : String} {body : List Item} (hhead : OneLine head)
    (hbody : ∀ i ∈ body, i.Legible) : ∀ i ∈ method head body, i.Legible := by
  rw [method, List.forall_mem_cons, List.forall_mem_singleton]
  exact ⟨legible_blank, OneLine.append (by decide) hhead, Item.allLegible_iff.2 hbody⟩

theorem legible_lookup {head parameter fallback : String} {cases : List (String × String)}
    (hhead : OneLine head) (hparameter : OneLine parameter)
    (hcases : ∀ c ∈ cases, OneLine c.1 ∧ OneLine c.2) (hfallback : OneLine fallback) :
    ∀ i ∈ lookup head parameter cases fallback, i.Legible := by
  refine legible_method hhead (List.forall_mem_singleton.2 ⟨?_, Item.allLegible_iff.2 ?_⟩)
  · simp +decide only [oneLine_append, hparameter]
  · rw [List.forall_mem_append, List.forall_mem_map, List.forall_mem_singleton]
    refine ⟨fun c hc => legible_semicolon ?_, legible_semicolon ?_⟩
    · simp +decide only [oneLine_append, hcases c hc]
    · simp +decide only [oneLine_append, hfallback]

theorem legible_class {qualified : String} {members : List Item} (h : OneLine qualified)
    (hmembers : ∀ i ∈ members, i.Legible) : ∀ i ∈ classItems qualified members, i.Legible := by
  obtain ⟨hsimple, hpackage⟩ := oneLine_splitClass h
  rw [classItems, List.forall_mem_append, List.forall_mem_singleton]
  refine ⟨?_, OneLine.append (by decide) hsimple,
    Item.allLegible_iff.2 (List.forall_mem_cons.2 ⟨legible_blank, hmembers⟩)⟩
  rw [packageItems]
  split
  · exact fun i hi => (List.not_mem_nil hi).elim
  · rename_i package heq
    rw [List.forall_mem_cons, List.forall_mem_singleton]
    exact ⟨legible_semicolon (OneLine.append (by decide) (hpackage package heq)), legible_blank⟩

/-! ### Labels in lines -/

section Labels

variable {p : Procedure} (h : Grounded p)

include h in
theorem Grounded.label_not_mem {c : Char} (hc : Label.isLabelChar c = false) (x : StandInRef) :
    c ∉ (p.registry.label x).toList :=
  Label.not_mem_of_isLabelChar (h.reachable.isLabelChar x) hc

include h in
theorem Grounded.oneLine_label (x : StandInRef) : OneLine (p.registry.label x) :=
  h.label_not_mem (by decide) x

include h in
theorem Grounded.oneLine_own {s : StandIn} (hs : s ∈ p.allocations) : OneLine s.label :=
  (h.reachable.isLabel s hs).not_mem (by decide)

include h in
theorem Grounded.oneWord_own {s : StandIn} (hs : s ∈ p.allocations) : OneWord s.label :=
  (h.reachable.isLabel s hs).not_mem (by decide)

include h in
theorem oneLine_labels {xs : List StandInRef} : OneLine (arguments (xs.map p.registry.label)) :=
  oneLine_arguments (List.forall_mem_map.2 fun x _ => h.oneLine_label x)

end Labels

/-! ### The classes -/

section Sources

variable {e : EmitSection} {p : Procedure} (h : Grounded p) (hnames : OnOneLine e p)

include h hnames in
theorem oneLine_initializer {s : StandIn} (hs : s ∈ p.allocations) {init : String}
    (hinit : initializer? p.registry.label s = some init) : OneLine init := by
  have htype := hnames.types s hs
  have hparts := hnames.constructions s hs
  rw [initializer?] at hinit
  cases hconstruction : s.construction <;> rw [hconstruction] at hinit hparts <;> cases hinit
  case constructor args =>
      simp +decide only [oneLine_append, htype, oneLine_labels h]
  case staticFactory owner method args =>
      obtain ⟨howner, hmethod⟩ := List.forall_mem_cons.1 hparts
      have hmethod := List.forall_mem_singleton.1 hmethod
      simp +decide only [oneLine_append, howner, hmethod, oneLine_labels h]
  case staticField owner field =>
      obtain ⟨howner, hfield⟩ := List.forall_mem_cons.1 hparts
      exact (howner.append (by decide)).append (List.forall_mem_singleton.1 hfield)
  case accessor receiver method =>
      have hmethod := List.forall_mem_singleton.1 hparts
      simp +decide only [oneLine_append, hmethod, h.oneLine_label]
  case array element length =>
      exact oneLine_newArray (List.forall_mem_singleton.1 hparts) length
  case defaultValue => exact oneLine_valueLiteral s.typeName

include h in
theorem oneLine_callStatement {c : CallStep} (hname : OneLine c.method.name) :
    OneLine (callStatement p.registry.label c) := by
  have hargs : OneLine (arguments (c.args.map fun a => p.registry.label a.value)) :=
    oneLine_arguments (List.forall_mem_map.2 fun a _ => h.oneLine_label a.value)
  simp +decide only [callStatement, oneLine_append, hname, hargs, h.oneLine_label]

include h hnames in
theorem legible_fieldDeclarations : ∀ i ∈ fieldDeclarations p, i.Legible := by
  refine List.forall_mem_map.2 fun s hs => legible_semicolon ?_
  simp +decide only [oneLine_append, hnames.types s hs, h.oneLine_own hs]

include h hnames in
theorem legible_fieldInitializers : ∀ i ∈ fieldInitializers p, i.Legible := by
  rw [fieldInitializers, List.forall_mem_filterMap]
  intro s hs i hi
  obtain ⟨init, hinit, rfl⟩ := Option.map_eq_some_iff.1 hi
  refine legible_guarded ?_
  simp +decide only [oneLine_append, h.oneLine_own hs, oneLine_initializer h hnames hs hinit]

include h hnames in
theorem legible_viewLookups : ∀ i ∈ viewLookups p, i.Legible := by
  have hview : ∀ v ∈ resolvedViews p, OneLine v.2.label := fun v hv =>
    h.oneLine_own (mem_resolvedViews hv)
  have hunknown : OneLine (unknownView p) := by
    rw [unknownView]
    cases hfound : p.allocations.find? fun s =>
      s.origin == .unresolved none && s.typeName == TypeName.view with
    | none => decide
    | some s => exact h.oneLine_own (List.mem_of_find?_eq_some hfound)
  have hcases : ∀ c ∈ ((resolvedViews p).filter (!·.2.isComponent)).map fun v =>
      (toString (signedId v.1), v.2.label), OneLine c.1 ∧ OneLine c.2 :=
    List.forall_mem_map.2 fun v hv =>
      ⟨oneLine_toString_int _, hview v (List.mem_filter.1 hv).1⟩
  rw [viewLookups, List.forall_mem_append, List.forall_mem_append, List.forall_mem_flatMap]
  refine ⟨⟨legible_lookup (by decide) (by decide) hcases hunknown, ?_⟩, fun v hv => ?_⟩
  · exact legible_method (by decide) (List.forall_mem_singleton.2 ⟨by decide, by decide⟩)
  · refine legible_method ?_ (List.forall_mem_singleton.2 (legible_semicolon ?_))
    · simp +decide only [oneLine_append, hnames.types _ (mem_resolvedViews hv), oneLine_toString]
    · exact OneLine.append (by decide) (hview v hv)

include h hnames in
theorem legible_serviceLookup : ∀ i ∈ serviceLookup p, i.Legible := by
  refine legible_lookup (by decide) (by decide) ?_ (by decide)
  rw [List.forall_mem_filterMap]
  rintro ⟨name, type⟩ hservice c hc
  obtain ⟨x, -, rfl⟩ := Option.map_eq_some_iff.1 hc
  have hname := hnames.services _ ((sorted_perm _ _).mem_iff.1 hservice)
  refine ⟨?_, h.oneLine_label x⟩
  simp +decide only [oneLine_append, hname]

include h hnames in
theorem legible_componentLookup (kind : ComponentKind) :
    ∀ i ∈ componentLookup p kind, i.Legible := by
  rw [componentLookup]
  split
  · rename_i getter supertype hgetter hsupertype
    have hhead : OneLine getter ∧ OneLine supertype.text := by
      cases kind <;> cases hgetter <;> cases hsupertype <;> decide
    refine legible_lookup ?_ (by decide) (List.forall_mem_map.2 fun c hc => ⟨?_, ?_⟩) (by decide)
    · simp +decide only [oneLine_append, hhead]
    · simp +decide only [oneLine_append, hnames.components c (List.mem_filter.1 hc).1]
    · exact h.oneLine_label c.2
  · exact fun i hi => (List.not_mem_nil hi).elim

include h hnames in
theorem legible_handlerDispatch {c : CallStep} (hc : c ∈ p.steps) :
    (handlerDispatch p c).Legible := by
  obtain ⟨hcomponent, hmethod⟩ := hnames.calls c hc
  have hargs : OneLine (arguments (c.args.map (handlerArgument p))) :=
    oneLine_arguments (List.forall_mem_map.2 fun a _ => by
      rw [handlerArgument]
      split
      · decide
      · exact h.oneLine_label a.value)
  rw [handlerDispatch]
  split <;> refine legible_guarded ?_ <;>
    simp +decide only [oneLine_append, hcomponent, hmethod, hargs, h.oneLine_label]

include h hnames in
theorem legible_layoutHandlers : ∀ i ∈ layoutHandlers p, i.Legible := by
  refine legible_method (by decide) (List.forall_mem_map.2 fun c hc => ?_)
  exact legible_handlerDispatch h hnames (layoutCalls_subset p hc)

include h hnames in
theorem legible_stubs : ∀ i ∈ classItems e.stubsClass (stubsItems p), i.Legible := by
  have hinitializer : ∀ i ∈ [Item.blank, .block "static" (fieldInitializers p)], i.Legible :=
    List.forall_mem_cons.2 ⟨legible_blank, List.forall_mem_singleton.2
      ⟨by decide, Item.allLegible_iff.2 (legible_fieldInitializers h hnames)⟩⟩
  have hcomponents : ∀ i ∈ ComponentKind.all.flatMap (componentLookup p), i.Legible :=
    List.forall_mem_flatMap.2 fun kind _ => legible_componentLookup h hnames kind
  have hchoice : ∀ i ∈ choice, i.Legible := legible_method (by decide)
    (List.forall_mem_cons.2 ⟨⟨by decide, by decide⟩, List.forall_mem_singleton.2
      ⟨by decide, by decide⟩⟩)
  refine legible_class hnames.stubsClass ?_
  simp only [stubsItems, List.forall_mem_append]
  exact ⟨⟨⟨⟨⟨⟨legible_fieldDeclarations h hnames, hinitializer⟩, legible_viewLookups h hnames⟩,
    legible_serviceLookup h hnames⟩, hcomponents⟩, legible_layoutHandlers h hnames⟩, hchoice⟩

/-- Whether the labels of sections consist of characters of identifiers. -/
def SectionsLabelled (p : Procedure) : Prop :=
  ∀ s ∈ p.sections, ∀ c ∈ s.label.toList, Label.isLabelChar c = true

theorem SectionsLabelled.not_mem (hsections : SectionsLabelled p) {s : Section}
    (hs : s ∈ p.sections) {c : Char} (hc : Label.isLabelChar c = false) : c ∉ s.label.toList :=
  Label.not_mem_of_isLabelChar (hsections s hs) hc

include h hnames in
theorem legible_section {s : Section} (hs : s ∈ p.sections) (hsections : SectionsLabelled p) :
    ∀ i ∈ sectionItems e.stubsClass p.registry.label s, i.Legible := by
  have hcall : ∀ c ∈ s.steps, OneLine (callStatement p.registry.label c) := fun c hc =>
    oneLine_callStatement h (hnames.calls c (List.mem_flatMap.2 ⟨s, hs, hc⟩)).2
  have hlabel : OneLine s.label := hsections.not_mem hs (by decide)
  have hbracket : '\x7b' ∉ s.label.toList := hsections.not_mem hs (by decide)
  rw [sectionItems]
  cases s.kind with
  | ordered =>
      refine List.forall_mem_cons.2 ⟨⟨OneLine.append (by decide) hlabel, ?_⟩,
        List.forall_mem_map.2 fun c hc => legible_guarded (hcall c hc)⟩
      intro hlast
      have hmem := List.mem_of_getLast? hlast
      rw [String.toList_append, List.mem_append] at hmem
      exact hmem.elim (by decide) hbracket
  | unordered passes =>
      have hcases : ∀ i ∈ s.steps.zipIdx.map (callCase p.registry.label), i.Legible :=
        List.forall_mem_map.2 fun step hstep => by
          have hstatement := oneLine_attempt (hcall step.1 (List.fst_mem_of_mem_zipIdx hstep))
          refine legible_append ?_ (by decide) (by decide)
          simp +decide only [oneLine_append, oneLine_toString, hstatement]
      have hdefault : (Item.line "default: break;").Legible := ⟨by decide, by decide⟩
      dsimp only
      rw [List.forall_mem_cons, List.forall_mem_singleton]
      refine ⟨legible_append (OneLine.append (by decide) hlabel) (by decide) (by decide), ?_,
        ⟨?_, ?_⟩, trivial⟩
      · simp +decide only [oneLine_append, oneLine_toString]
      · simp +decide only [oneLine_append, oneLine_toString, hnames.stubsClass]
      · exact Item.allLegible_iff.2 (List.forall_mem_append.2
          ⟨hcases, List.forall_mem_singleton.2 hdefault⟩)

include h hnames in
theorem legible_entryBody (hsections : SectionsLabelled p) :
    ∀ i ∈ entryBody e.stubsClass p, i.Legible := by
  rw [entryBody, List.forall_mem_append, List.forall_mem_append, List.forall_mem_flatMap]
  refine ⟨⟨List.forall_mem_map.2 fun s hs => legible_semicolon ?_,
    List.forall_mem_map.2 fun s hs => legible_guarded ?_⟩, fun s hs => List.forall_mem_cons.2
      ⟨legible_blank, legible_section h hnames hs hsections⟩⟩
  · simp +decide only [oneLine_append, hnames.types s hs, h.oneLine_own hs, oneLine_startLiteral]
  · simp +decide only [oneLine_append, hnames.stubsClass, h.oneLine_own hs]

/-- The one member of the harness class. -/
def entryMethod (e : EmitSection) (p : Procedure) : Item :=
  .block ("public static void " ++ p.name ++ "()") (entryBody e.stubsClass p)

theorem harness_render (e : EmitSection) (p : Procedure) :
    harness e p = Item.render (classItems e.harnessClass [entryMethod e p]) := rfl

include h hnames in
theorem legible_harness (hsections : SectionsLabelled p) :
    ∀ i ∈ classItems e.harnessClass [entryMethod e p], i.Legible := by
  refine legible_class hnames.harnessClass (List.forall_mem_singleton.2
    ⟨?_, Item.allLegible_iff.2 (legible_entryBody h hnames hsections)⟩)
  simp +decide only [oneLine_append, hnames.entry]

end Sources

end Java

namespace Synthesizer

open Registry (Reachable)

/-- A section is labelled like the instance whose calls it holds, or it is that of the callbacks. -/
theorem sections_labelled (y : Synthesizer) (handlers : List HandlerBinding)
    (components : List Component) {registry : Registry} (findings : List Finding)
    (h : Reachable registry) :
    Java.SectionsLabelled (y.procedure components handlers registry findings) := by
  intro s hs c hc
  rcases List.mem_append.1 hs with hordered | hunordered
  · have hkept := y.kept_reachable
    have hanswers := threadMap_answers
      (R := fun s s' : Progress => Reachable s.registry → Reachable s'.registry)
      hkept.refl hkept.trans (hkept.orderedSection handlers)
      (y.instances components registry) (y.opening handlers components registry findings)
    obtain ⟨d, -, t, ht, rfl, -⟩ := forall₂_left hanswers.flip hordered
    have hreached := hkept.orderedSection handlers d t
      (ht (y.opening_reachable handlers components findings h))
    exact hreached.isLabelChar d.2 c hc
  · obtain ⟨steps, rfl⟩ := eq_callbacks_of_mem hunordered
    have hcallbacks : "callbacks".toList.all Label.isLabelChar = true := by decide
    exact List.all_eq_true.1 hcallbacks c hc

end Synthesizer
end AppDriver
