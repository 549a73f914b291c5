import AppDriver.Proofs.ClosedProcedures
import AppDriver.Proofs.LabelTexts
import AppDriver.Proofs.LabelledStores
import AppDriver.Proofs.ServiceAliases
import AppDriver.Proofs.SourceDrafts

/-! What labels denote in the generated sources. Java lets a parameter hide a field and no local
hide another one, so in a method a label denotes its stand-in unless the method declares the same
name itself; and the fields are found in the stubs class unless a local is named like the first
segment of its name. Labels are kept distinct from each other and from the reserved words only, so
some of these names can be labels. -/

namespace AppDriver

open Registry (Reachable)

namespace Java

/-! ### Names in scope -/

/-- The stand-in that has a label. -/
def labelled? (p : Procedure) (name : String) : Option StandInRef :=
  (p.allocations.find? (·.label == name)).map (·.id)

/-- The stand-in that a name denotes in a part of a class, which hides it by declaring the name. -/
def denoted? (p : Procedure) (declared : List String) (name : String) : Option StandInRef :=
  if declared.contains name then none else labelled? p name

/-- The first segment of a qualified name. -/
def firstSegment (qualified : String) : String :=
  String.ofList (qualified.toList.takeWhile (· != '.'))

/-- Whether a piece denotes the stand-in that it is written for. The stubs class, through which
fields are read, is found unless the first segment of its name is in scope as that of a local. -/
def Piece.Denotes (e : EmitSection) (p : Procedure) (declared : List String) : Piece → Prop
  | .text _ => True
  | .name x => denoted? p declared (p.registry.label x) = some x
  | .field x => firstSegment e.stubsClass ∉ declared ∧
      labelled? p (firstSegment e.stubsClass) = none ∧
      labelled? p (p.registry.label x) = some x

/-- Whether every piece of a part of a class denotes its stand-in. -/
def Member.Kept (e : EmitSection) (p : Procedure) (m : Member) : Prop :=
  ∀ u ∈ m.pieces, u.Denotes e p m.declares

/-- Whether in both classes every use of a label denotes its stand-in. -/
def LabelsKept (e : EmitSection) (p : Procedure) : Prop :=
  ∀ m ∈ stubsMembers p ++ [entryMember e p], m.Kept e p

/-- The stand-ins that are named where a handler is called from a layout. -/
def dispatchNames (p : Procedure) (c : CallStep) : List StandInRef :=
  (if (p.registry.get? c.receiver).any isContext then [] else [c.receiver]) ++
    (c.args.filter (·.param ≠ TypeName.view)).map (·.value)

/-- Whether no label is a name that is declared where the label is used, nor hides the stubs class:
`id` for views, `className` for components that have a getter, `ctx` and `v` for what handlers are
called with, and the locals of the entry method for all stand-ins. -/
structure Unhidden (e : EmitSection) (p : Procedure) : Prop where
  views : ∀ v ∈ resolvedViews p, v.2.isComponent = false → v.2.label ≠ "id"
  components : ∀ c ∈ p.registry.components, c.1.kind.stubGetter.isSome = true →
    p.registry.label c.2 ≠ "className"
  handlers : ∀ c ∈ layoutCalls p, ∀ x ∈ dispatchNames p c, p.registry.label x ∉ ["ctx", "v"]
  locals : ∀ s ∈ p.allocations, s.label ∉ entryLocals p
  stubsClass : ∀ s ∈ p.allocations, firstSegment e.stubsClass ∉ s.label :: entryLocals p

/-! ### Distinct labels -/

/-- A procedure over a registry that operations reach, whose steps refer to stand-ins of it. -/
structure Grounded (p : Procedure) : Prop where
  reachable : Reachable p.registry
  receivers : ∀ x ∈ p.steps, p.registry.store.Has x.receiver
  arguments : ∀ x ∈ p.steps, ∀ a ∈ x.args, p.registry.store.Has a.value

variable {e : EmitSection} {p : Procedure} (h : Grounded p)

include h in
theorem Grounded.isPlaced : IsPlaced p := by
  intro s hs
  obtain ⟨i, hi⟩ := List.mem_iff_getElem?.1 hs
  have hid : s.id = ⟨i⟩ := (h.reachable.orderly.placed ⟨i⟩ s hi).id
  rw [hid]
  exact hi

include h in
theorem Grounded.has {s : StandIn} (hs : s ∈ p.allocations) : p.registry.store.Has s.id :=
  Store.has_of_get? (h.isPlaced s hs)

include h in
/-- Every stand-in that is referred to is one of the allocations. -/
theorem Grounded.exists_allocation {x : StandInRef} (hx : p.registry.store.Has x) :
    ∃ s ∈ p.allocations, s.id = x ∧ p.registry.label x = s.label := by
  obtain ⟨s, hs, -⟩ := Registry.exists_get? hx
  have hid : s.id = x := (h.reachable.orderly.placed x s hs).id
  have hmem : s ∈ p.allocations := List.mem_of_getElem? hs
  exact ⟨s, hmem, hid, hid ▸ h.isPlaced.label hmem⟩

include h in
theorem Grounded.isLabel_label {x : StandInRef} (hx : p.registry.store.Has x) :
    Label.IsLabel (p.registry.label x) := by
  obtain ⟨s, hs, -, hlabel⟩ := h.exists_allocation hx
  exact hlabel ▸ h.reachable.isLabel s hs

include h in
/-- A label denotes the one stand-in that has it. -/
theorem Grounded.labelled?_label {x : StandInRef} (hx : p.registry.store.Has x) :
    labelled? p (p.registry.label x) = some x := by
  obtain ⟨s, hs, rfl, hlabel⟩ := h.exists_allocation hx
  obtain ⟨s', hs'⟩ := Option.isSome_iff_exists.1
    (List.find?_isSome.2 ⟨s, hs, beq_self_eq_true s.label⟩ :
      (p.allocations.find? (·.label == s.label)).isSome = true)
  have hsame : s'.label = s.label := by simpa using List.find?_some hs'
  have hdistinct : (p.allocations.map (·.label)).Nodup := h.reachable.labelled.distinct
  have heq := List.inj_on_of_nodup_map hdistinct (List.mem_of_find?_eq_some hs') hs hsame
  rw [labelled?, hlabel, hs', heq]
  rfl

theorem labelled?_eq_none {name : String} :
    labelled? p name = none ↔ ∀ s ∈ p.allocations, s.label ≠ name := by
  rw [labelled?, Option.map_eq_none_iff, List.find?_eq_none]
  simp

theorem denotes_text (declared : List String) (s : String) :
    (Piece.text s).Denotes e p declared := trivial

include h in
theorem Grounded.denotes_name {declared : List String} {x : StandInRef}
    (hx : p.registry.store.Has x) :
    (Piece.name x).Denotes e p declared ↔ p.registry.label x ∉ declared := by
  rw [Piece.Denotes, denoted?, h.labelled?_label hx]
  simp

include h in
theorem Grounded.denotes_field {declared : List String} {x : StandInRef}
    (hx : p.registry.store.Has x) :
    (Piece.field x).Denotes e p declared ↔
      firstSegment e.stubsClass ∉ declared ∧
        ∀ s ∈ p.allocations, s.label ≠ firstSegment e.stubsClass := by
  rw [Piece.Denotes, labelled?_eq_none, h.labelled?_label hx]
  simp

/-! ### Parts of classes -/

theorem separated_denote_iff {declared : List String} (us : List Piece) :
    (∀ u ∈ Piece.separated us, u.Denotes e p declared) ↔ ∀ u ∈ us, u.Denotes e p declared :=
  Piece.forall_mem_separated (denotes_text declared) us

theorem method_kept_iff {head : String} {declares : List String} {body : List Draft} :
    (methodMember head declares body).Kept e p ↔
      ∀ d ∈ body, ∀ u ∈ d.pieces, u.Denotes e p declares := by
  simp only [Member.Kept, Member.pieces, methodMember, Draft.blank, List.forall_mem_flatMap,
    List.forall_mem_cons, Draft.pieces_line, Draft.pieces_block, List.not_mem_nil, false_imp_iff,
    implies_true, and_true, true_and]

theorem lookup_kept_iff {head parameter : String} {cases : List (String × Piece)}
    {fallback : Piece} :
    (lookupMember head parameter cases fallback).Kept e p ↔
      (∀ c ∈ cases, c.2.Denotes e p [parameter]) ∧ fallback.Denotes e p [parameter] := by
  rw [lookupMember, method_kept_iff]
  simp only [Draft.pieces_block, Draft.pieces_line, List.forall_mem_flatMap, List.forall_mem_cons,
    List.forall_mem_append, List.forall_mem_map, List.not_mem_nil, false_imp_iff, implies_true,
    and_true, true_and, denotes_text]

include h in
theorem fieldsMember_kept : (fieldsMember p).Kept e p := by
  intro u hu
  obtain ⟨d, hd, hu⟩ := List.mem_flatMap.1 hu
  obtain ⟨s, hs, rfl⟩ := List.mem_map.1 hd
  rcases List.mem_cons.1 hu with rfl | hu
  · trivial
  · rcases List.mem_cons.1 hu with rfl | hu
    · exact (h.denotes_name (h.has hs)).2 List.not_mem_nil
    · obtain rfl := List.mem_singleton.1 hu
      trivial

include h in
/-- Names of stand-ins that no part declares denote them. -/
theorem names_denote {declared : List String} {xs : List StandInRef}
    (hxs : ∀ x ∈ xs, p.registry.store.Has x ∧ p.registry.label x ∉ declared) :
    ∀ u ∈ Piece.separated (xs.map .name), u.Denotes e p declared := by
  rw [separated_denote_iff, List.forall_mem_map]
  exact fun x hx => (h.denotes_name (hxs x hx).1).2 (hxs x hx).2

include h in
theorem initializer_denotes {s : StandIn} (hs : s ∈ p.allocations) {init : List Piece}
    (hinit : initializerPieces s = some init) : ∀ u ∈ init, u.Denotes e p [] := by
  have hreads : ∀ d ∈ s.construction.dependencies,
      p.registry.store.Has d ∧ p.registry.label d ∉ [] := by
    intro d hd
    have hbefore := (h.reachable.orderly.placed s.id s (h.isPlaced s hs)).reads d hd
    exact ⟨hbefore.trans (h.has hs), List.not_mem_nil⟩
  rw [initializerPieces] at hinit
  cases hconstruction : s.construction <;> rw [hconstruction] at hinit hreads <;> cases hinit
  case constructor args =>
      have hargs := names_denote (e := e) h hreads
      exact List.forall_mem_cons.2 ⟨trivial, List.forall_mem_append.2
        ⟨hargs, List.forall_mem_singleton.2 trivial⟩⟩
  case staticFactory owner method args =>
      have hargs := names_denote (e := e) h hreads
      exact List.forall_mem_cons.2 ⟨trivial, List.forall_mem_append.2
        ⟨hargs, List.forall_mem_singleton.2 trivial⟩⟩
  case accessor receiver method =>
      have hreceiver := (hreads receiver List.mem_cons_self).1
      simpa [denotes_text] using (h.denotes_name hreceiver).2 List.not_mem_nil
  all_goals simp [denotes_text]

include h in
theorem initializersMember_kept : (initializersMember p).Kept e p := by
  simp only [Member.Kept, Member.pieces, initializersMember, Draft.blank, Draft.guarded,
    List.forall_mem_flatMap, List.forall_mem_cons, List.forall_mem_filterMap, Draft.pieces_line,
    Draft.pieces_block, List.not_mem_nil, false_imp_iff, implies_true, and_true, true_and]
  intro s hs d hd
  obtain ⟨init, hinit, rfl⟩ := Option.map_eq_some_iff.1 hd
  have hname : (Piece.name s.id).Denotes e p [] := (h.denotes_name (h.has hs)).2 List.not_mem_nil
  simpa [denotes_text, hname, or_imp, forall_and] using initializer_denotes h hs hinit

/-- The answer to an unknown identifier is not named like the parameter. -/
theorem unknownView_denotes (h : Grounded p) : (unknownViewPiece p).Denotes e p ["id"] := by
  rw [unknownViewPiece]
  split
  · rename_i s hs
    have hmem := List.mem_of_find?_eq_some hs
    have horigin : s.origin = .unresolved none := by
      have hboth := List.find?_some hs
      simp only [Bool.and_eq_true, beq_iff_eq] at hboth
      exact hboth.1
    have hopened := h.reachable.labelled.opened s hmem
    rw [h.denotes_name (h.has hmem), h.isPlaced.label hmem, List.mem_singleton]
    intro hid
    rw [horigin, hid] at hopened
    revert hopened
    simp only [Origin.Opens, Origin.openings]
    decide +kernel
  · trivial

include h in
theorem viewLookup_kept_iff : (viewLookupMember p).Kept e p ↔
    ∀ v ∈ resolvedViews p, v.2.isComponent = false → v.2.label ≠ "id" := by
  have hdenotes : ∀ v ∈ resolvedViews p,
      ((Piece.name v.2.id).Denotes e p ["id"] ↔ v.2.label ≠ "id") := by
    intro v hv
    have hmem := mem_resolvedViews hv
    rw [h.denotes_name (h.has hmem), h.isPlaced.label hmem, List.mem_singleton]
  rw [viewLookupMember, lookup_kept_iff, and_iff_left (unknownView_denotes h), List.forall_mem_map]
  constructor
  · intro hall v hv hview
    exact (hdenotes v hv).1 (hall v (List.mem_filter.2 ⟨hv, by rw [hview]; rfl⟩))
  · intro hall v hv
    obtain ⟨hmem, hview⟩ := List.mem_filter.1 hv
    exact (hdenotes v hmem).2 (hall v hmem (by simpa using hview))

/-- What a type is answered with is not named like the parameter. -/
theorem services_kept (h : Grounded p) : (servicesMember p).Kept e p := by
  rw [servicesMember, lookup_kept_iff, List.forall_mem_filterMap]
  refine ⟨fun service _ c hc => ?_, trivial⟩
  obtain ⟨x, hx, rfl⟩ := Option.map_eq_some_iff.1 hc
  have hhas : p.registry.store.Has x := h.reachable.sound.ambients.lookup hx
  obtain ⟨s, hs, hid, hlabel⟩ := h.exists_allocation hhas
  have hopened := h.reachable.labelled.opened s hs
  have hobject := h.reachable.labelled.shared _ (Workshop.mem_of_lookup hx)
  have hget : p.registry.store.get? x = some s := hid ▸ h.isPlaced s hs
  simp only [Store.IsObject, Store.originAt?, hget, Option.map_some, Option.some.injEq] at hobject
  rw [h.denotes_name hhas, hlabel, List.mem_singleton]
  intro hname
  rw [hname] at hopened
  revert hopened
  simp only [Origin.Opens]
  rcases hobject with horigin | horigin <;> rw [horigin] <;> decide +kernel

include h in
theorem component_kept_iff (kind : ComponentKind) :
    (∀ m ∈ componentMembers p kind, m.Kept e p) ↔
      ∀ c ∈ p.registry.components, c.1.kind = kind → kind.stubGetter.isSome = true →
        p.registry.label c.2 ≠ "className" := by
  have hdenotes : ∀ c ∈ p.registry.components,
      ((Piece.name c.2).Denotes e p ["className"] ↔ p.registry.label c.2 ≠ "className") := by
    intro c hc
    rw [h.denotes_name (h.reachable.sound.components c hc), List.mem_singleton]
  have hsupertype : kind.stubGetter.isSome = kind.supertype.isSome := by cases kind <;> rfl
  rw [componentMembers]
  cases hgetter : kind.stubGetter with
  | none => simp
  | some getter =>
      rw [hgetter] at hsupertype
      obtain ⟨supertype, hsome⟩ := Option.isSome_iff_exists.1 hsupertype.symm
      rw [hsome]
      dsimp only
      rw [List.forall_mem_singleton, lookup_kept_iff, List.forall_mem_map]
      constructor
      · intro hall c hc hkind _
        exact (hdenotes c hc).1 (hall.1 c (List.mem_filter.2 ⟨hc, beq_iff_eq.2 hkind⟩))
      · intro hall
        refine ⟨fun c hc => ?_, trivial⟩
        obtain ⟨hmem, hkind⟩ := List.mem_filter.1 hc
        exact (hdenotes c hmem).2 (hall c hmem (beq_iff_eq.1 hkind) rfl)

include h in
theorem handler_denotes_iff {c : CallStep} (hc : c ∈ p.steps) :
    (∀ u ∈ (handlerDraft p c).pieces, u.Denotes e p ["ctx", "v"]) ↔
      ∀ x ∈ dispatchNames p c, p.registry.label x ∉ ["ctx", "v"] := by
  let declared := ["ctx", "v"]
  have hreceiver : (Piece.name c.receiver).Denotes e p declared ↔
      p.registry.label c.receiver ∉ declared := h.denotes_name (h.receivers c hc)
  have hargument : ∀ a ∈ c.args, ((handlerArgumentPiece a).Denotes e p declared ↔
      (a.param ≠ TypeName.view → p.registry.label a.value ∉ declared)) := by
    intro a ha
    rw [handlerArgumentPiece]
    split
    · rename_i hview
      exact ⟨fun _ hother => (hother hview).elim, fun _ => trivial⟩
    · rename_i hother
      rw [h.denotes_name (h.arguments c hc a ha)]
      exact ⟨fun hfree _ => hfree, fun hfree => hfree hother⟩
  have hargs : (∀ u ∈ Piece.separated (c.args.map handlerArgumentPiece), u.Denotes e p declared) ↔
      ∀ x ∈ (c.args.filter (·.param ≠ TypeName.view)).map (·.value),
        p.registry.label x ∉ declared := by
    rw [separated_denote_iff, List.forall_mem_map, List.forall_mem_map]
    simp only [List.mem_filter, decide_eq_true_eq, and_imp]
    exact forall₂_congr hargument
  rw [handlerDraft, dispatchNames, List.forall_mem_append, ← hargs]
  split <;>
    simp only [Draft.guarded, Draft.pieces_line, List.cons_append, List.forall_mem_cons,
      List.forall_mem_append, List.not_mem_nil, false_imp_iff, implies_true, denotes_text, true_and,
      and_true, hreceiver, declared]

include h in
theorem handlersMember_kept_iff : (handlersMember p).Kept e p ↔
    ∀ c ∈ layoutCalls p, ∀ x ∈ dispatchNames p c, p.registry.label x ∉ ["ctx", "v"] := by
  rw [handlersMember, method_kept_iff, List.forall_mem_map]
  exact forall₂_congr fun c hc => handler_denotes_iff h (layoutCalls_subset p hc)

include h in
/-- Where no label is declared, a call denotes its stand-ins. -/
theorem call_denotes {declared : List String} (hfree : ∀ s ∈ p.allocations, s.label ∉ declared)
    {c : CallStep} (hc : c ∈ p.steps) : ∀ u ∈ callPieces c, u.Denotes e p declared := by
  have hlabels : ∀ x, p.registry.store.Has x → p.registry.label x ∉ declared := by
    intro x hx
    obtain ⟨s, hs, -, hlabel⟩ := h.exists_allocation hx
    exact hlabel ▸ hfree s hs
  have hargs : ∀ x ∈ c.args.map (·.value),
      p.registry.store.Has x ∧ p.registry.label x ∉ declared := by
    intro x hx
    obtain ⟨a, ha, rfl⟩ := List.mem_map.1 hx
    exact ⟨h.arguments c hc a ha, hlabels _ (h.arguments c hc a ha)⟩
  have hseparated := names_denote (e := e) h hargs
  have hreceiver := h.receivers c hc
  rw [List.map_map] at hseparated
  refine List.forall_mem_cons.2 ⟨(h.denotes_name hreceiver).2 (hlabels _ hreceiver), ?_⟩
  exact List.forall_mem_cons.2 ⟨trivial, List.forall_mem_append.2
    ⟨hseparated, List.forall_mem_singleton.2 trivial⟩⟩

include h in
theorem section_denotes {declared : List String}
    (hfree : ∀ s ∈ p.allocations, s.label ∉ declared) {s : Section} (hs : s ∈ p.sections) :
    ∀ d ∈ sectionDrafts e.stubsClass s.label s, ∀ u ∈ d.pieces, u.Denotes e p declared := by
  have hcalls : ∀ c ∈ s.steps, ∀ u ∈ callPieces c, u.Denotes e p declared :=
    fun c hc => call_denotes h hfree (List.mem_flatMap.2 ⟨s, hs, hc⟩)
  have hcases : ∀ c ∈ s.steps.zipIdx, ∀ u ∈ callPieces c.1, u.Denotes e p declared :=
    fun c hc => hcalls c.1 (List.fst_mem_of_mem_zipIdx hc)
  rw [sectionDrafts]
  cases s.kind with
  | ordered =>
      simp only [Draft.guarded, Draft.pieces_line, List.forall_mem_cons, List.forall_mem_map,
        List.cons_append, List.forall_mem_append, List.not_mem_nil, false_imp_iff, implies_true,
        denotes_text, true_and, and_true]
      exact hcalls
  | unordered passes =>
      simp only [callCaseDraft, Draft.pieces_line, Draft.pieces_block, List.forall_mem_flatMap,
        List.forall_mem_cons, List.forall_mem_map, List.cons_append, List.forall_mem_append,
        List.not_mem_nil, false_imp_iff, implies_true, denotes_text, true_and, and_true]
      exact hcases

include h in
theorem entryMember_kept_iff : (entryMember e p).Kept e p ↔
    (∀ s ∈ p.allocations, s.label ∉ entryLocals p) ∧
      ∀ s ∈ p.allocations, firstSegment e.stubsClass ∉ s.label :: entryLocals p := by
  have hname : ∀ s ∈ p.allocations, ((Piece.name s.id).Denotes e p (entryLocals p) ↔
      s.label ∉ entryLocals p) := by
    intro s hs
    rw [h.denotes_name (h.has hs), h.isPlaced.label hs]
  have hfield : ∀ s ∈ p.allocations, ((Piece.field s.id).Denotes e p (entryLocals p) ↔
      firstSegment e.stubsClass ∉ entryLocals p ∧
        ∀ s' ∈ p.allocations, s'.label ≠ firstSegment e.stubsClass) := by
    intro s hs
    exact h.denotes_field (h.has hs)
  simp only [Member.Kept, Member.pieces, entryMember, Draft.guarded, Draft.blank,
    List.forall_mem_flatMap, List.forall_mem_cons, List.forall_mem_append, List.forall_mem_map,
    List.cons_append, List.nil_append, Draft.pieces_line, Draft.pieces_block, List.not_mem_nil,
    false_imp_iff, implies_true, denotes_text, true_and, and_true]
  constructor
  · rintro ⟨⟨hnames, hloads⟩, -⟩
    refine ⟨fun s hs => (hname s hs).1 (hnames s hs), fun s hs hhidden => ?_⟩
    obtain ⟨hlocal, hlabels⟩ := (hfield s hs).1 (hloads s hs).2
    rcases List.mem_cons.1 hhidden with hlabel | hmem
    · exact hlabels s hs hlabel.symm
    · exact hlocal hmem
  · rintro ⟨hlabels, hstubs⟩
    have hnames : ∀ s ∈ p.allocations, (Piece.name s.id).Denotes e p (entryLocals p) :=
      fun s hs => (hname s hs).2 (hlabels s hs)
    have hloads : ∀ s ∈ p.allocations, (Piece.field s.id).Denotes e p (entryLocals p) := by
      intro s hs
      refine (hfield s hs).2 ⟨fun hlocal => hstubs s hs (List.mem_cons_of_mem _ hlocal), ?_⟩
      exact fun s' hs' hlabel => hstubs s' hs' (hlabel ▸ List.mem_cons_self)
    exact ⟨⟨hnames, fun s hs => ⟨hnames s hs, hloads s hs⟩⟩,
      fun sec hsec => section_denotes h hlabels hsec⟩

include h in
theorem viewGetter_kept {v : ResourceId × StandIn} (hv : v ∈ resolvedViews p) :
    (viewGetterMember v).Kept e p := by
  have hname : (Piece.name v.2.id).Denotes e p [] :=
    (h.denotes_name (h.has (mem_resolvedViews hv))).2 List.not_mem_nil
  rw [viewGetterMember, method_kept_iff]
  simp [denotes_text, hname]

/-- In a procedure whose references exist, labels are kept exactly if no name hides them. -/
theorem kept_iff_unhidden (h : Grounded p) : LabelsKept e p ↔ Unhidden e p := by
  have hinflation : (inflationMember).Kept e p := by
    rw [inflationMember, method_kept_iff]
    simp [denotes_text]
  have hchoice : (choiceMember).Kept e p := by
    rw [choiceMember, method_kept_iff]
    simp [denotes_text]
  have hgetters : ∀ v ∈ resolvedViews p, (viewGetterMember v).Kept e p :=
    fun v hv => viewGetter_kept h hv
  simp only [LabelsKept, stubsMembers, List.forall_mem_append, List.forall_mem_cons,
    List.forall_mem_map, List.forall_mem_flatMap, List.not_mem_nil, false_imp_iff, implies_true,
    and_true, true_and, fieldsMember_kept h, initializersMember_kept h, viewLookup_kept_iff h,
    hinflation, services_kept h, component_kept_iff h, handlersMember_kept_iff h, hchoice,
    entryMember_kept_iff h]
  constructor
  · rintro ⟨⟨⟨⟨hviews, -⟩, hcomponents⟩, hhandlers⟩, hlocals, hstubs⟩
    exact ⟨hviews, fun c hc => hcomponents _ (ComponentKind.mem_all _) c hc rfl, hhandlers, hlocals,
      hstubs⟩
  · rintro ⟨hviews, hcomponents, hhandlers, hlocals, hstubs⟩
    refine ⟨⟨⟨⟨hviews, hgetters⟩, fun kind _ c hc hkind => ?_⟩, hhandlers⟩, hlocals, hstubs⟩
    exact hkind ▸ hcomponents c hc

end Java

/-! ### Documents -/

namespace Synthesizer

variable (y : Synthesizer) (d : Facts)

/-- Over a reachable registry a procedure refers to stand-ins that it has. -/
theorem procedure_grounded (handlers : List HandlerBinding) (components : List Component)
    {registry : Registry} (findings : List Finding) (h : Reachable registry) :
    Java.Grounded (y.procedure components handlers registry findings) := by
  have hreachable : Reachable (y.procedure components handlers registry findings).registry :=
    y.procedure_reachable handlers components findings h
  refine ⟨hreachable, fun x hx => ?_, fun x hx => ?_⟩
  · have hinstance := (y.step_closed handlers components h.sound hx).1
    exact hreachable.sound.has_component hinstance
  · exact (y.step_closed handlers components h.sound hx).2.2

theorem synthesizeFacts_grounded : Java.Grounded (y.synthesizeFacts d) :=
  y.procedure_grounded d.handlers d.components _ (y.servicesRegistry_reachable d)

/-- **Labels in scope.** The two sources of the procedure of a document are spelled by their drafts,
and every use of a label in them denotes the stand-in that has it exactly if no label is a name that
is declared where the label is used, nor the first segment of the name of the stubs class. The
parameters of the lookup of services, of inflation and of the choice never hide a label, nor does
that of the lookup of views hide the answer to an unknown identifier. -/
theorem labels_kept_iff (e : EmitSection) :
    (Java.stubs e (y.synthesizeFacts d) =
        Java.sourceText e.stubsClass (Java.spelling e (y.synthesizeFacts d))
          (Java.stubsMembers (y.synthesizeFacts d)) ∧
      Java.harness e (y.synthesizeFacts d) =
        Java.sourceText e.harnessClass (Java.spelling e (y.synthesizeFacts d))
          [Java.entryMember e (y.synthesizeFacts d)]) ∧
    (Java.LabelsKept e (y.synthesizeFacts d) ↔ Java.Unhidden e (y.synthesizeFacts d)) := by
  have hgrounded := y.synthesizeFacts_grounded d
  exact ⟨⟨Java.stubs_eq e hgrounded.isPlaced, Java.harness_eq e hgrounded.isPlaced⟩,
    Java.kept_iff_unhidden hgrounded⟩

/-- A document with one view, under a name that labels its stand-in. -/
def viewFacts (name : String) : Facts :=
  { identifiers := [{ id := 7, declaredType := ⟨"android.widget.Button"⟩, name := some name }] }

example : Java.LabelsKept .standard (synthesizeFacts {} (viewFacts "ok")) := by
  refine (Java.kept_iff_unhidden (synthesizeFacts_grounded {} _)).2 ⟨?_, ?_, ?_, ?_, ?_⟩ <;>
    decide +kernel

/-- A view that is named `id` has this label, and the lookup of views returns its own parameter in
the place of the view. -/
theorem view_hidden :
    (Java.resolvedViews (synthesizeFacts {} (viewFacts "id"))).map (fun v => (v.1, v.2.label)) =
        [(7, "id")] ∧
      ¬Java.LabelsKept .standard (synthesizeFacts {} (viewFacts "id")) := by
  refine ⟨by decide +kernel, fun hkept => ?_⟩
  have hviews := ((Java.kept_iff_unhidden (synthesizeFacts_grounded {} _)).1 hkept).views
  revert hviews
  decide +kernel

end Synthesizer
end AppDriver
