import AppDriver.Proofs.DriveOrder
import AppDriver.Proofs.LegibleSources
import AppDriver.Proofs.ResolvedViews
import AppDriver.Proofs.ServiceLookups

/-! Components that layouts declare. An identifier that is declared with a component class denotes
the instance that is driven, whatever else declares it later: the components are registered before
the first identifier is resolved. In the stubs class such an identifier is no view, so the lookup by
a variable identifier has no case for it; the getter of its view returns what the lookup of
components by class name returns for the class. -/

namespace AppDriver

namespace Registry

variable {r : Registry} {id : ResourceId} {x : StandInRef}

/-! ### Identifiers declared with a component class -/

/-- Whether an identifier can be resolved to no other stand-in than the instance of the component
class that it is declared with. -/
structure Denotes (r : Registry) (id : ResourceId) (x : StandInRef) : Prop where
  sound : r.store.Sound
  declared : ∃ t, r.declaredType? id = some t ∧ r.component? t = some x
  found : ∀ z, r.findViewById? id = some z → z = x

theorem Denotes.resolveDeclared_fst (h : r.Denotes id x) (fallback : TypeName) :
    (r.resolveDeclared id fallback).1 = x := by
  cases hknown : r.findViewById? id with
  | some z => rw [resolveDeclared_of_known hknown, h.found z hknown]
  | none =>
      obtain ⟨t, ht, hx⟩ := h.declared
      rw [component?] at hx
      rw [resolveDeclared, hknown, ht]
      dsimp only
      rw [resolve, hknown, hx]

/-- Resolving any identifier keeps what this one denotes. -/
theorem Denotes.resolveDeclared (h : r.Denotes id x) (other : ResourceId) (fallback : TypeName) :
    (r.resolveDeclared other fallback).2.Denotes id x := by
  have hsettles := (resolveDeclared_gives h.sound other fallback).toSettles
  refine ⟨hsettles.sound, ?_, fun z hz => ?_⟩
  · obtain ⟨t, ht, hx⟩ := h.declared
    obtain ⟨entry, hentry, htype⟩ := Option.map_eq_some_iff.1 ht
    refine ⟨t, ?_, (hsettles.component? t).trans hx⟩
    rw [declaredType?, hsettles.grows.declared id entry hentry, Option.map_some, htype]
  · by_cases hid : id = other
    · subst hid
      rw [r.findViewById?_resolveDeclared, h.resolveDeclared_fst] at hz
      exact (Option.some.inj hz).symm
    · cases hknown : r.findViewById? other with
      | some z' =>
          rw [resolveDeclared_of_known hknown] at hz
          exact h.found z hz
      | none =>
          rw [findViewById?, resolveDeclared_byIdentifier h.sound hknown, List.lookup_cons,
            beq_eq_false_iff_ne.2 hid] at hz
          exact h.found z hz

/-- Once the views are allocated, the identifier is resolved to the instance. -/
theorem Denotes.allocateViews (h : r.Denotes id x) :
    (Synthesizer.allocateViews r).findViewById? id = some x := by
  let f := fun id (r : Registry) => r.resolveDeclared id TypeName.view
  have hdeclared : id ∈ r.declaredIdentifiers := by
    obtain ⟨t, ht, -⟩ := h.declared
    obtain ⟨entry, hentry, -⟩ := Option.map_eq_some_iff.1 ht
    rw [declaredIdentifiers, (sorted_perm _ _).mem_iff]
    exact List.mem_map.2 ⟨(id, entry), Workshop.mem_of_lookup hentry, rfl⟩
  have hdenotes := threadMap_invariant (P := fun r : Registry => r.Denotes id x) (f := f)
    (fun other r h => h.resolveDeclared other TypeName.view) r.declaredIdentifiers h
  have hanswers := threadMap_answers (R := fun a b : Registry => a.store.Sound → a.Settles b)
    (fun a ha => .refl ha) (fun h h' ha => (h ha).trans (h' (h ha).sound)) (f := f)
    (fun other a ha => (resolveDeclared_gives ha other TypeName.view).toSettles)
    r.declaredIdentifiers r
  obtain ⟨z, -, s, hs, rfl, hlast⟩ := forall₂_left hanswers hdeclared
  have hmade := (resolveDeclared_gives (hs h.sound).sound id TypeName.view).sound
  have hresolved := (hlast hmade).grows.byIdentifier id _
    (s.findViewById?_resolveDeclared id TypeName.view)
  rw [findViewById?, Synthesizer.allocateViews, unresolved_byIdentifier]
  exact hresolved.trans (congrArg some (hdenotes.found _ hresolved))

end Registry

namespace Synthesizer

open CallbackTarget (Later)

variable {y : Synthesizer} {d : Facts}

/-- The instance of a component of an accepted document is what the identifiers that are first
declared with its class are resolved to. -/
theorem findViewById?_of_declared (hd : d.validate = .ok ()) {c : Component}
    (hc : c ∈ d.components) {id : ResourceId} {b : IdentifierBinding}
    (hb : d.identifiers.find? (·.id == id) = some b) (hname : b.declaredType = c.name) :
    ∃ i ∈ y.instances d.components (y.servicesRegistry d), i.1 = c ∧
      (y.synthesizeFacts d).registry.findViewById? id = some i.2 := by
  have hsound := (y.servicesRegistry_shares d).sound
  obtain ⟨hdeclared, hnone⟩ := y.servicesRegistry_identifiers d
  obtain ⟨i, hi, rfl⟩ := (y.mem_driven_iff (y.servicesRegistry d)).1
    ((mem_driven_of_accepted hd).2 hc)
  have hevolves := Registry.registerComponents_evolves hsound (y.driven d.components)
  have hsame := Registry.registerComponents_sameLookups hsound (y.driven d.components)
  have hanswers := Registry.registerComponents_answers hsound (y.driven d.components)
  have hdenotes : ((y.servicesRegistry d).registerComponents (y.driven d.components)).2.Denotes
      id i.2 := by
    refine ⟨hevolves.sound, ⟨i.1.name, ?_, (List.forall₂_iff_zip.1 hanswers).2 hi⟩, fun z hz => ?_⟩
    · rw [Registry.declaredType?, hsame.declared, hdeclared, Registry.declared_withBindings, hb]
      exact congrArg some hname
    · rw [Registry.findViewById?, hsame.byIdentifier, hnone] at hz
      cases hz
  have hlater := (y.opening_later_ordered d.handlers d.components (y.servicesRegistry d)
    ((identifierConflicts d.identifiers).map .redeclaredIdentifier)).trans
    (y.kept_later.unorderedSection d.handlers (y.instances d.components (y.servicesRegistry d)) _)
  exact ⟨i, hi, rfl, (hlater (allocateViews_settles hevolves.sound).sound).grows.byIdentifier id i.2
    hdenotes.allocateViews⟩

end Synthesizer

/-! ### The text of the lookups -/

/-- Numbers with a sign are written differently. -/
theorem toString_int_injective : Function.Injective (toString : Int → String) := by
  have hsign : ∀ m n : Nat, toString (Int.ofNat m) ≠ toString (Int.negSucc n) := by
    intro m n h
    have hminus : '-' ∈ (toString (Int.negSucc n)).toList := by
      change '-' ∈ ("-" ++ toString (n + 1)).toList
      simp
    rw [← h] at hminus
    exact Java.not_mem_toString (by decide) m hminus
  intro m n h
  cases m with
  | ofNat m =>
      cases n with
      | ofNat n => exact congrArg Int.ofNat (toString_injective h)
      | negSucc n => exact (hsign m n h).elim
  | negSucc m =>
      cases n with
      | ofNat n => exact (hsign n m h.symm).elim
      | negSucc n =>
          have htexts : "-" ++ toString (m + 1) = "-" ++ toString (n + 1) := h
          have hnumbers := toString_injective (String.append_right_inj _ |>.1 htexts)
          exact congrArg Int.negSucc (Nat.succ.inj hnumbers)

namespace Java

/-- The line of the case of an identifier, given the label that it returns. -/
def viewCaseLine (id : ResourceId) (label : String) : Item :=
  .line ("case " ++ toString (signedId id) ++ ": return " ++ label ++ ";")

/-- The cases of the lookup of views by a variable identifier. -/
def viewCaseLines (p : Procedure) : List Item :=
  ((resolvedViews p).filter (!·.2.isComponent)).map fun v => viewCaseLine v.1 v.2.label

/-- The lookup of views by a variable identifier. -/
def viewSwitch (p : Procedure) : Item :=
  .block "public static android.view.View findViewById(int id)"
    [.block "switch (id)"
      (viewCaseLines p ++ [.line ("default: return " ++ unknownView p ++ ";")])]

/-- The getter of the view of an identifier, given its type and the label that it returns. -/
def viewGetter (id : ResourceId) (t : TypeName) (label : String) : Item :=
  .block ("public static " ++ (t.text ++ " getView" ++ toString id ++ "()")) [returns label]

/-- The getters of the views of identifiers. -/
def viewGetters (p : Procedure) : List Item :=
  (resolvedViews p).map fun v => viewGetter v.1 v.2.typeName v.2.label

/-- The cases of the lookup of the components of a kind. -/
def componentCaseLines (p : Procedure) (kind : ComponentKind) : List Item :=
  (p.registry.components.filter (·.1.kind == kind)).map fun e =>
    caseLine e.1.name.text (p.registry.label e.2)

/-- The lookup of the components of a kind by class name. -/
def componentSwitch (p : Procedure) (kind : ComponentKind) (getter : String)
    (supertype : TypeName) : Item :=
  .block ("public static " ++ (supertype.text ++ " " ++ getter ++ "(String className)"))
    [.block "switch (className)" (componentCaseLines p kind ++ [.line "default: return null;"])]

theorem viewLookups_eq (p : Procedure) :
    viewLookups p = [.blank, viewSwitch p] ++
      method "android.view.View inflateViewById(int id, android.content.Context ctx)"
        [.line "return findViewById(id);"] ++ (viewGetters p).flatMap fun g => [.blank, g] := by
  rw [viewLookups, viewGetters, List.flatMap_map]
  simp only [lookup, method, viewSwitch, viewCaseLines, List.map_map]
  rfl

theorem viewSwitch_mem (p : Procedure) : viewSwitch p ∈ stubsItems p := by
  simp [stubsItems, viewLookups_eq]

theorem viewGetter_mem {p : Procedure} {g : Item} (h : g ∈ viewGetters p) : g ∈ stubsItems p := by
  have hlookups : g ∈ viewLookups p := by
    rw [viewLookups_eq]
    exact List.mem_append_right _ (List.mem_flatMap.2 ⟨g, h, by simp⟩)
  simp [stubsItems, hlookups]

theorem componentSwitch_mem (p : Procedure) {kind : ComponentKind} {getter : String}
    (hgetter : kind.stubGetter = some getter) {supertype : TypeName}
    (hsupertype : kind.supertype = some supertype) :
    componentSwitch p kind getter supertype ∈ stubsItems p := by
  have hlookup : componentSwitch p kind getter supertype ∈ componentLookup p kind := by
    rw [componentLookup, hgetter, hsupertype]
    simp only [lookup, method, List.map_map]
    exact List.mem_cons_of_mem _ List.mem_cons_self
  have hlookups : componentSwitch p kind getter supertype ∈
      ComponentKind.all.flatMap (componentLookup p) :=
    List.mem_flatMap.2 ⟨kind, kind.mem_all, hlookup⟩
  simp only [stubsItems, List.mem_append]
  exact .inl (.inl (.inr hlookups))

/-- Identifiers of 32 bits are different numbers with a sign. -/
theorem signedId_inj {id id' : Nat} (hid : id < Nat.pow 2 32) (hid' : id' < Nat.pow 2 32)
    (h : signedId id = signedId id') : id = id' := by
  have hhalf : Nat.pow 2 31 = 2147483648 := rfl
  have hfull : Nat.pow 2 32 = 4294967296 := rfl
  rw [hfull] at hid hid'
  simp only [signedId, hhalf, hfull] at h
  split at h <;> split at h <;> omega

/-- A case says what it is for: its number ends at the colon before the second blank. -/
theorem signedId_of_viewCaseLine {id id' : ResourceId} {label label' : String}
    (h : viewCaseLine id label = viewCaseLine id' label') : signedId id = signedId id' := by
  have hread : ∀ (id : ResourceId) (label : String), (between? "case " ";"
      ("case " ++ toString (signedId id) ++ ": return " ++ label ++ ";")).bind firstWord? =
        some (toString (signedId id) ++ ":", "return " ++ label) := by
    intro id label
    have hinner : between? "case " ";"
        ("case " ++ toString (signedId id) ++ ": return " ++ label ++ ";") =
          some (toString (signedId id) ++ ":" ++ " " ++ ("return " ++ label)) := by
      rw [between?_eq_some, ← String.toList_inj]
      simp
    have hkey : OneWord (toString (signedId id) ++ ":") :=
      OneWord.append (not_mem_toString_int (by decide) (by decide) _) (by decide)
    rw [hinner]
    exact firstWord?_append hkey _
  have htexts := hread id label
  rw [Item.line.inj h, hread] at htexts
  have hkeys := (Prod.mk.inj (Option.some.inj htexts)).1
  exact toString_int_injective ((String.append_left_inj ":").1 hkeys).symm

/-- A getter says what it is for, of which type and what it returns: its name is the last word of
its head. -/
theorem viewGetter_inj {id id' : ResourceId} {t t' : TypeName} {label label' : String}
    (h : viewGetter id t label = viewGetter id' t' label') :
    id = id' ∧ t = t' ∧ label = label' := by
  have hread : ∀ (id : ResourceId) (t : TypeName),
      lastWord? ("public static " ++ (t.text ++ " getView" ++ toString id ++ "()")) =
        some ("public static " ++ t.text, "getView" ++ toString id ++ "()") := by
    intro id t
    have hword : OneWord ("getView" ++ toString id ++ "()") :=
      OneWord.append (OneWord.append (by decide) (not_mem_toString (by decide) id)) (by decide)
    rw [← lastWord?_append ("public static " ++ t.text) hword]
    apply congrArg
    rw [← String.toList_inj]
    simp
  obtain ⟨hheads, hbodies⟩ := Item.block.inj h
  have hwords := hread id t
  rw [hheads, hread] at hwords
  obtain ⟨htypes, hnames⟩ := Prod.mk.inj (Option.some.inj hwords)
  have hnumbers := (String.append_right_inj "getView").1 ((String.append_left_inj "()").1 hnames)
  have htype : t'.text = t.text := (String.append_right_inj "public static ").1 htypes
  have hlabels := Item.line.inj (List.cons.inj hbodies).1
  exact ⟨(toString_injective hnumbers).symm, congrArg TypeName.mk htype.symm,
    (String.append_right_inj "return ").1 ((String.append_left_inj ";").1 hlabels)⟩

section Procedure

variable {p : Procedure} {P : ResourceId → Prop} {id : ResourceId} {x : StandInRef}

theorem mem_resolvedViews_iff (h : p.registry.ResolvesOnly P) {s : StandIn} :
    (id, s) ∈ resolvedViews p ↔
      ∃ x, p.registry.findViewById? id = some x ∧ p.registry.get? x = some s := by
  rw [resolvedViews, List.mem_filterMap]
  constructor
  · rintro ⟨e, he, hs⟩
    rw [Registry.identifiers, (sorted_perm _ _).mem_iff] at he
    obtain ⟨s', hs', heq⟩ := Option.map_eq_some_iff.1 hs
    cases heq
    exact ⟨e.2, h.once e he, hs'⟩
  · rintro ⟨x, hx, hs⟩
    refine ⟨(id, x), ?_, by rw [hs]; rfl⟩
    rw [Registry.identifiers, (sorted_perm _ _).mem_iff]
    exact Workshop.mem_of_lookup hx

theorem label_of_get? {s : StandIn} (hs : p.registry.get? x = some s) :
    p.registry.label x = s.label := by
  have hget : p.registry.store.get? x = some s := hs
  rw [Registry.label, Store.label, hget]
  rfl

variable (hgrounded : Grounded p) (honly : p.registry.ResolvesOnly (· < Nat.pow 2 32))
  (hfound : p.registry.findViewById? id = some x)
  {c : Component} (hinstance : p.registry.component? c.name = some x)

include honly hfound in
/-- The lookup by a variable identifier has no case for a component. -/
theorem viewCaseLine_not_mem {s : StandIn} (hs : p.registry.get? x = some s)
    (hcomponent : s.isComponent = true) (label : String) :
    viewCaseLine id label ∉ viewCaseLines p := by
  intro hline
  obtain ⟨v, hv, heq⟩ := List.mem_map.1 hline
  obtain ⟨hv, hview⟩ := List.mem_filter.1 hv
  obtain ⟨z, hz, hvs⟩ := (mem_resolvedViews_iff honly).1 hv
  have hid : v.1 = id :=
    signedId_inj (honly.of_found hz) (honly.of_found hfound) (signedId_of_viewCaseLine heq)
  rw [hid, hfound] at hz
  obtain rfl := Option.some.inj hz
  obtain rfl := Option.some.inj (hs.symm.trans hvs)
  simp [hcomponent] at hview

include honly hfound in
/-- An identifier has one getter, for its view. -/
theorem viewGetter_mem_iff {s : StandIn} (hs : p.registry.get? x = some s) {t : TypeName}
    {label : String} :
    viewGetter id t label ∈ viewGetters p ↔ t = s.typeName ∧ label = s.label := by
  constructor
  · intro hgetter
    obtain ⟨v, hv, heq⟩ := List.mem_map.1 hgetter
    obtain ⟨hid, rfl, rfl⟩ := viewGetter_inj heq
    obtain ⟨z, hz, hvs⟩ := (mem_resolvedViews_iff honly).1 hv
    rw [hid, hfound] at hz
    obtain rfl := Option.some.inj hz
    obtain rfl := Option.some.inj (hs.symm.trans hvs)
    exact ⟨rfl, rfl⟩
  · rintro ⟨rfl, rfl⟩
    exact List.mem_map.2 ⟨(id, s), (mem_resolvedViews_iff honly).2 ⟨x, hfound, hs⟩, rfl⟩

include hgrounded hinstance in
/-- In the lookup of the components of a kind, the case of a class returns its instance. -/
theorem caseLine_mem (hkind : p.registry.store.originAt? x = some (.component c.kind)) :
    caseLine c.name.text (p.registry.label x) ∈ componentCaseLines p c.kind := by
  obtain ⟨e, he, rfl⟩ := Option.map_eq_some_iff.1 hinstance
  have hmem := List.mem_of_find?_eq_some he
  obtain ⟨y, hy, -, horigin⟩ := hgrounded.reachable.orderly.instances e hmem
  have hname : e.1.name = c.name := by simpa using List.find?_some he
  have hsame : e.1.kind = c.kind := by
    rw [Store.originAt?, hy, Option.map_some, horigin] at hkind
    exact Origin.component.inj (Option.some.inj hkind)
  rw [← hname]
  exact List.mem_map.2 ⟨e, List.mem_filter.2 ⟨hmem, by simpa using hsame⟩, rfl⟩

include hgrounded hinstance in
theorem label_of_caseLine_mem {kind : ComponentKind} {label : String}
    (hlabel : Label.IsLabel label)
    (hcase : caseLine c.name.text label ∈ componentCaseLines p kind) :
    label = p.registry.label x := by
  obtain ⟨e, he, heq⟩ := List.mem_map.1 hcase
  obtain ⟨y, hy, htype, horigin⟩ :=
    hgrounded.reachable.orderly.instances e (List.mem_filter.1 he).1
  obtain ⟨htext, rfl⟩ := caseLine_inj (hgrounded.isLabel_label (Store.has_of_get? hy)) hlabel heq
  have hname : e.1.name = c.name := congrArg TypeName.mk htext
  have hanswer := hgrounded.reachable.isInstance_iff.1 ⟨y, e.1.kind, hy, htype, horigin⟩
  rw [hname, hinstance] at hanswer
  rw [Option.some.inj hanswer]

end Procedure

/-- How the stubs class answers for an identifier that denotes a component. The lookup of views by a
variable identifier has no case for it. Its view has one getter, of the type of the component, which
returns a label; and in the lookup of the components of the kind, if it has one, the one case with
the name of the component's class returns the same label. -/
structure AnswersComponent (e : EmitSection) (p : Procedure) (id : ResourceId) (c : Component)
    (label : String) : Prop where
  switch : Shows e p (viewSwitch p)
  uncased : ∀ other, viewCaseLine id other ∉ viewCaseLines p
  shown : Shows e p (viewGetter id c.name label)
  getter : ∀ t other, viewGetter id t other ∈ viewGetters p ↔ t = c.name ∧ other = label
  lookup : ∀ getter ∈ c.kind.stubGetter, ∀ supertype ∈ c.kind.supertype,
    Shows e p (componentSwitch p c.kind getter supertype)
  case : caseLine c.name.text label ∈ componentCaseLines p c.kind
  cased : ∀ other, Label.IsLabel other → caseLine c.name.text other ∈ componentCaseLines p c.kind →
    other = label

end Java

namespace Synthesizer

/-- **Components as views.** In the procedure for an accepted document, an identifier that is first
declared with the class of a component is resolved to the one instance of this class, and the stubs
class answers for it as for a component. -/
theorem declared_component_answered (y : Synthesizer) (d : Facts) (e : EmitSection)
    (hd : d.validate = .ok ()) (hnumbers : d.Representable) {c : Component}
    (hc : c ∈ d.components) {id : ResourceId} {b : IdentifierBinding}
    (hb : d.identifiers.find? (·.id == id) = some b) (hname : b.declaredType = c.name) :
    ∃ x, (y.synthesizeFacts d).registry.findViewById? id = some x ∧
      (∀ z, (y.synthesizeFacts d).registry.IsInstance c.name z ↔ z = x) ∧
      Java.AnswersComponent e (y.synthesizeFacts d) id c
        ((y.synthesizeFacts d).registry.label x) := by
  have hshares := y.servicesRegistry_shares d
  have hgrounded := y.synthesizeFacts_grounded d
  have honly := (y.resolved_mentioned d).imp fun id hid => hnumbers.mentioned hid
  obtain ⟨i, hi, rfl, hfound⟩ := findViewById?_of_declared hd hc hb hname
  have hinstance : (y.synthesizeFacts d).registry.component? i.1.name = some i.2 :=
    component?_of_instance hshares.sound hi
  have hkind : (y.synthesizeFacts d).registry.store.originAt? i.2 =
      some (.component i.1.kind) := (origin_of_instance hshares.sound hshares.components hi).2
  obtain ⟨s, kind, hs, htype, horigin⟩ := hgrounded.reachable.isInstance_iff.2 hinstance
  have hlabel := Java.label_of_get? hs
  have hcomponent : s.isComponent = true := by rw [StandIn.isComponent, horigin]
  have hgetter : ∀ t other, Java.viewGetter id t other ∈ Java.viewGetters (y.synthesizeFacts d) ↔
      t = i.1.name ∧ other = (y.synthesizeFacts d).registry.label i.2 := fun t other => by
    rw [Java.viewGetter_mem_iff honly hfound hs, htype, hlabel]
  refine ⟨i.2, hfound, fun z => ?_, ?_⟩
  · rw [hgrounded.reachable.isInstance_iff, hinstance, Option.some.injEq, eq_comm]
  · exact
      { switch := Java.shows_of_mem e (Java.viewSwitch_mem _)
        uncased := Java.viewCaseLine_not_mem honly hfound hs hcomponent
        shown := Java.shows_of_mem e (Java.viewGetter_mem ((hgetter _ _).2 ⟨rfl, rfl⟩))
        getter := hgetter
        lookup := fun getter hg supertype ht =>
          Java.shows_of_mem e (Java.componentSwitch_mem _ hg ht)
        case := Java.caseLine_mem hgrounded hinstance hkind
        cased := fun other hother => Java.label_of_caseLine_mem hgrounded hinstance hother }

/-- A drawer that a layout declares, and later declares as a button. -/
def drawerDocument : Facts where
  components := [{ name := ⟨"app.Main"⟩, kind := .activity },
    { name := ⟨"app.Drawer"⟩, kind := .fragment }]
  identifiers := [{ id := 7, declaredType := ⟨"app.Drawer"⟩, name := "drawer" },
    { id := 7, declaredType := ⟨"android.widget.Button"⟩ }]

/-- The identifier denotes the fragment that is driven. -/
theorem drawer_answered : drawerDocument.validate = .ok () ∧ drawerDocument.Representable ∧
    ∃ x, (synthesizeFacts {} drawerDocument).registry.findViewById? 7 = some x ∧
      (∀ z, (synthesizeFacts {} drawerDocument).registry.IsInstance ⟨"app.Drawer"⟩ z ↔ z = x) ∧
      Java.AnswersComponent .standard (synthesizeFacts {} drawerDocument) 7
        { name := ⟨"app.Drawer"⟩, kind := .fragment }
        ((synthesizeFacts {} drawerDocument).registry.label x) := by
  have hvalid : drawerDocument.validate = .ok () := by decide +kernel
  have hnumbers : drawerDocument.Representable := by
    constructor <;> simp [drawerDocument, Component.Representable, IdentifierBinding.Representable]
  have hc : { name := ⟨"app.Drawer"⟩, kind := .fragment } ∈ drawerDocument.components :=
    List.mem_cons_of_mem _ List.mem_cons_self
  exact ⟨hvalid, hnumbers,
    declared_component_answered {} drawerDocument .standard hvalid hnumbers hc rfl rfl⟩

end Synthesizer
end AppDriver
