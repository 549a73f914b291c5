import AppDriver.Proofs.Filing
import AppDriver.Proofs.RegistryGrowth
import AppDriver.Proofs.UniqueLabels

/-! Where labels come from. A label is made from a hint, and the origin of a stand-in says which
hint that is: the name of a component class or of an identifier, a word for the kind of object, or
the label of the parent with the name of the getter. So a label can be traced back to the names that
the app chose. Several stand-ins can have the same hint; all but one of them carry a number. -/

namespace AppDriver

namespace Store

variable {s s' : Store} {t : TypeName} {origin : Origin} {construction : Construction}
  {hint : String} {x : StandInRef} {n : Nat}

/-- The name with which an identifier is declared. -/
def nameOf? (s : Store) (id : ResourceId) : Option String := (s.declared.lookup id).bind (·.name)

/-- The hints from which the label of a stand-in of a type and an origin can be made. -/
inductive Hints (s : Store) (t : TypeName) : Origin → String → Prop
  | view (id : ResourceId) : Hints s t (.identifier id) ("view" ++ toString id)
  | named {id : ResourceId} {name : String} : s.nameOf? id = some name →
    Hints s t (.identifier id) name
  | missing (id : ResourceId) : Hints s t (.unresolved (some id)) ("missing" ++ toString id)
  | unresolved : Hints s t (.unresolved none) ("unresolved" ++ t.simpleName)
  | ambient (name : String) : Hints s t .ambient ("ambient" ++ name)
  | service (name : String) : Hints s t .ambient ("service_" ++ name)
  | null : Hints s t .ambient ("null" ++ t.simpleName)
  | component (kind : ComponentKind) : Hints s t (.component kind) (uncapitalized t.simpleName)
  | getter {parent : StandInRef} (method : String) : s.Has parent →
    Hints s t (.derived parent method)
      (s.label parent ++ capitalized (Registry.getterSubject method))
  | value : Hints s t .value ("value" ++ t.labelPart)

theorem Hints.grow (h : s.Hints t origin hint) (hgrows : s.Grows s') : s'.Hints t origin hint := by
  cases h with
  | named hname =>
      obtain ⟨declared, hdeclared, hname⟩ := Option.bind_eq_some_iff.1 hname
      exact .named (Option.bind_eq_some_iff.2 ⟨declared, hgrows.declared _ _ hdeclared, hname⟩)
  | getter method hparent =>
      rw [label, ← hgrows.get? hparent]
      exact .getter method (hgrows.has hparent)
  | view id => exact .view id
  | missing id => exact .missing id
  | unresolved => exact .unresolved
  | ambient name => exact .ambient name
  | service name => exact .service name
  | null => exact .null
  | component kind => exact .component kind
  | value => exact .value

/-- Whether the label of every stand-in is made from a hint that its type and its origin allow. -/
def Hinted (s : Store) : Prop :=
  ∀ y ∈ s.arena, ∃ hint n, s.Hints y.typeName y.origin hint ∧
    y.label = Label.candidate (Label.base hint) n

theorem hinted_empty : Hinted {} := fun _ hy => (List.not_mem_nil hy).elim

theorem Hinted.grow (h : s.Hinted) (hgrows : s.Grows s') (harena : s'.arena = s.arena) :
    s'.Hinted := by
  intro y hy
  obtain ⟨hint, n, hhint, hlabel⟩ := h y (harena ▸ hy)
  exact ⟨hint, n, hhint.grow hgrows, hlabel⟩

theorem Hinted.push (h : s.Hinted) (hhint : s.Hints t origin hint) :
    (s.push t origin construction hint).2.Hinted := by
  have hgrows := s.push_grows t origin construction hint
  intro y hy
  rcases List.mem_append.1 hy with hold | hnew
  · obtain ⟨hint', n, hhint', hlabel⟩ := h y hold
    exact ⟨hint', n, hhint'.grow hgrows, hlabel⟩
  · obtain rfl := List.mem_singleton.1 hnew
    obtain ⟨n, hn⟩ := Label.exists_candidate s.labels (Label.base hint) s.labels.length 0
    exact ⟨hint, n, hhint.grow hgrows, hn⟩

theorem Hinted.forgetCycle (h : s.Hinted) (t : TypeName) : (s.forgetCycle t).Hinted :=
  h.grow { Grows.refl s with } rfl

theorem Hinted.value (h : s.Hinted) : (s.value n t).2.Hinted := by
  rw [Store.value]
  split
  · exact h
  · rename_i hnew
    exact (h.push .value).grow { Grows.refl _ with values := keeps_cons hnew _ } rfl

theorem Hinted.typedNull (h : s.Hinted) : (s.typedNull t).2.Hinted := by
  rw [Store.typedNull]
  split
  · exact h
  · rename_i hnew
    exact (h.push .null).grow { Grows.refl _ with typedNulls := keeps_cons hnew _ } rfl

theorem Hinted.settleAmbient (h : s.Hinted) : (s.settleAmbient t x).2.Hinted :=
  h.grow (s.settleAmbient_grows t x) (s.settleAmbient_untouched t x).1

theorem Hinted.enroll (h : s.Hinted) (c : Component) (args : List StandInRef) :
    (s.enroll c args).2.Hinted :=
  (h.push (.component c.kind)).grow { Grows.refl _ with components := List.prefix_append _ _ } rfl

theorem Hinted.complete (h : s.Hinted) (hhint : s.Hints t origin hint) :
    (s.complete t origin construction hint).2.Hinted := by
  have hforget := h.forgetCycle t
  rw [Store.complete]
  split
  · split
    · exact hforget
    · exact hforget.push (hhint.grow { Grows.refl s with })
  · exact h.push hhint

end Store

namespace Workshop

variable (w : Workshop) (batch : List Component)

/-! ### Fabrication -/

/-- What is fabricated with a hint that its origin allows for every type has a label made from it. A
more specific type that stands for the one asked for is fabricated with the same hint. -/
theorem fabrication_hinted :
    (∀ u t s, s.Sound → s.Hinted → (w.ambient batch u t s).2.Hinted) ∧
    (∀ u t origin hint s, s.Sound → (∀ t', s.Hints t' origin hint) → s.Hinted →
      (w.fabricate batch u t origin hint s).2.Hinted) ∧
    (∀ u params s, s.Sound → s.Hinted → (w.materialize batch u params s).2.Hinted) ∧
    (∀ u p s, s.Sound → s.Hinted → (w.supply batch u p s).2.Hinted) := by
  apply w.fabrication_induction batch
    (fun _ _ s out => s.Hinted → out.2.Hinted)
    (fun _ _ origin hint s out => (∀ t', s.Hints t' origin hint) → s.Hinted → out.2.Hinted)
    (fun _ _ s out => s.Hinted → out.2.Hinted)
    (fun _ _ s out => s.Hinted → out.2.Hinted)
  case registered =>
      intro u t s x hs hx h
      exact h
  case cutClass =>
      intro u s c hs hnew hfind hbusy h
      exact h.typedNull.grow { Store.Grows.refl _ with } rfl
  case enrolled =>
      intro u s c args hs hnew hfind hbusy hargs hstill ih h
      exact (ih h).enroll c args.1
  case known =>
      intro u t s x hs hnew hfind hx h
      exact h
  case plain =>
      intro u t s hs hnew hfind hambient hplain h
      exact h.value
  case settled =>
      intro u t s made hs hnew hfind hambient hplain hmade ih h
      exact (ih (fun _ => .ambient t.simpleName) h).settleAmbient
  case fabricatedPlain =>
      intro u t origin hint s hs hplain hhint h
      exact h.value
  case cutType =>
      intro u t origin hint s hs hplain hbusy hhint h
      exact (h.push (hhint t)).grow { Store.Grows.refl _ with } rfl
  case noRecipe =>
      intro u t origin hint s hs hplain hbusy hrecipe hhint h
      exact (h.push (hhint t)).grow { Store.Grows.refl _ with } rfl
  case unfabricable =>
      intro u t origin hint s hs hplain hbusy hrecipe hhint h
      exact (h.push (hhint t)).grow { Store.Grows.refl _ with } rfl
  case staticField =>
      intro u t origin hint s owner field hs hplain hbusy hrecipe hhint h
      exact (h.push (hhint t)).forgetCycle t
  case substituted =>
      intro u t origin hint s concrete made hs hplain hbusy hrecipe hmade ih hhint h
      exact (ih hhint h).forgetCycle t
  case completed =>
      intro u t origin hint s recipe args construction hs hplain hbusy hrecipe hbuilds hargs ih
        hhint h
      exact ((ih h).complete ((hhint t).grow (hargs hs).1.grows)).forgetCycle t
  case nil =>
      intro u s hs h
      exact h
  case cons =>
      intro u p ps s first rest hs hfirst hrest ihfirst ihrest h
      exact ihrest (ihfirst h)
  case object =>
      intro u p s out hs hshared ih
      exact ih
  case typedNull =>
      intro u t s hs h
      exact h.typedNull
  case value =>
      intro u t s hs h
      exact h.value

theorem register_hinted {s : Store} (hs : s.Sound) (c : Component) (h : s.Hinted) :
    (w.register batch c s).2.Hinted := by
  rw [register]
  split
  · exact h
  · have hargs := (w.fabrication_hinted batch).2.2.1 (Underway.enterClass {} c.name)
      (c.constructorParams.map .ofType) s hs h
    exact hargs.enroll c _

end Workshop

namespace Registry

variable {r : Registry} (hr : r.store.Sound) (h : r.store.Hinted)

/-! ### Operations -/

include h in
theorem declare_hinted (b : IdentifierBinding) : (r.declare b).2.store.Hinted := by
  rw [declare]
  split
  · exact h
  · rename_i hnew
    exact h.grow { Store.Grows.refl r.store with declared := keeps_cons hnew _ } rfl

include hr h in
theorem resolve_hinted (id : ResourceId) (t : TypeName) : (r.resolve id t).2.store.Hinted := by
  rw [resolve]
  split
  · exact h
  · rename_i hnew
    split
    · exact h.grow { Store.Grows.refl r.store with byIdentifier := keeps_cons hnew _ } rfl
    · have hhint : ∀ t', r.store.Hints t' (.identifier id)
          (((r.store.declared.lookup id).bind (·.name)).getD ("view" ++ toString id)) := by
        intro t'
        cases hname : (r.store.declared.lookup id).bind (·.name) with
        | none => exact .view id
        | some name => exact .named hname
      obtain ⟨hruns, -⟩ := (r.workshop.fabrication_obtains []).2.1 {} t (.identifier id)
        (((r.store.declared.lookup id).bind (·.name)).getD ("view" ++ toString id)) r.store hr
      have hmade := (r.workshop.fabrication_hinted []).2.1 {} t _ _ r.store hr hhint h
      have hstill := (congrArg (·.lookup id) hruns.sameLookups.byIdentifier).trans hnew
      exact hmade.grow { Store.Grows.refl _ with byIdentifier := keeps_cons hstill _ } rfl

include hr h in
theorem resolveDeclared_hinted (id : ResourceId) (fallback : TypeName) :
    (r.resolveDeclared id fallback).2.store.Hinted := by
  rw [resolveDeclared]
  split
  · exact h
  · rename_i hnew
    split
    · exact resolve_hinted hr h id _
    · have hpush : (r.store.push fallback (.unresolved (some id)) .degenerate
          ("missing" ++ toString id)).2.Hinted := h.push (.missing id)
      exact hpush.grow { Store.Grows.refl _ with byIdentifier := keeps_cons hnew _ } rfl

include h in
theorem unresolved_hinted (t : TypeName) : (r.unresolved t).2.store.Hinted := by
  rw [unresolved]
  split
  · exact h
  · rename_i hnew
    have hpush : (r.store.push t (.unresolved none) .degenerate
        ("unresolved" ++ t.simpleName)).2.Hinted := h.push .unresolved
    exact hpush.grow { Store.Grows.refl _ with unresolved := keeps_cons hnew _ } rfl

include hr h in
theorem ambient_hinted (t : TypeName) : (r.ambient t).2.store.Hinted :=
  (r.workshop.fabrication_hinted []).1 {} t r.store hr h

include hr h in
theorem argumentFor_hinted (t : TypeName) : (r.argumentFor t).2.store.Hinted := by
  rw [argumentFor]
  split
  · exact h.value
  · exact ambient_hinted hr h t

include hr h in
theorem systemService_hinted (name : String) : (r.systemService name).2.store.Hinted := by
  rw [systemService]
  split
  · exact h
  · rename_i hnew
    split
    · rename_i t _
      obtain ⟨hruns, -⟩ := (r.workshop.fabrication_obtains []).1 {} t r.store hr
      have hstill := (congrArg (·.lookup name) hruns.sameLookups.services).trans hnew
      exact (ambient_hinted hr h t).grow
        { Store.Grows.refl _ with services := keeps_cons hstill _ } rfl
    · have hpush : (r.store.push TypeName.object .ambient .degenerate
          ("service_" ++ name)).2.Hinted := h.push (.service name)
      exact hpush.grow { Store.Grows.refl _ with services := keeps_cons hnew _ } rfl

include hr h in
theorem registerComponents_hinted (cs : List Component) :
    (r.registerComponents cs).2.store.Hinted :=
  registerComponents_keeps hr (fun c _ hs => r.workshop.register_hinted cs hs c) h

include h in
theorem derived_hinted {parent : StandInRef} (hparent : r.store.Has parent) (step : AccessorStep) :
    (r.derived parent step).2.store.Hinted := by
  rw [derived]
  split
  · exact h
  · rename_i hnew
    have hpush : (r.store.push step.returns (.derived parent step.method)
        (.accessor parent step.method)
        (r.label parent ++ capitalized (getterSubject step.method))).2.Hinted :=
      h.push (.getter step.method hparent)
    exact hpush.grow { Store.Grows.refl _ with derived := keeps_cons hnew _ } rfl

theorem deriveChain_hinted (chain : List AccessorStep) {start : StandInRef} {r : Registry}
    (hr : r.store.Sound) (h : r.store.Hinted) (hstart : chain = [] ∨ r.store.Has start) :
    (r.deriveChain start chain).2.store.Hinted := by
  induction chain generalizing start r with
  | nil => exact h
  | cons step chain ih =>
      have hparent := hstart.resolve_left (List.cons_ne_nil step chain)
      have hnext := derived_gives hr start step
      exact ih hnext.sound (derived_hinted h hparent step) (Or.inr hnext.has)

include hr h in
theorem run_hinted {op : Operation} (hop : op.isAdmissible r = true) :
    (op.run r).2.store.Hinted := by
  cases op with
  | declare b => exact declare_hinted h b
  | resolve id t => exact resolve_hinted hr h id t
  | resolveDeclared id fallback => exact resolveDeclared_hinted hr h id fallback
  | unresolved t => exact unresolved_hinted h t
  | ambient t => exact ambient_hinted hr h t
  | systemService name => exact systemService_hinted hr h name
  | value t => exact h.value
  | argumentFor t => exact argumentFor_hinted hr h t
  | registerComponent c => exact r.workshop.register_hinted [] hr c h
  | registerComponents cs => exact registerComponents_hinted hr h cs
  | derived parent step => exact derived_hinted h (contains_iff.1 hop) step
  | deriveChain start chain =>
      exact deriveChain_hinted chain hr h (Operation.isAdmissible_deriveChain.1 hop)

/-- In a reachable registry every label is made from a hint of its kind. -/
theorem Reachable.hinted {r : Registry} (h : Reachable r) : r.store.Hinted := by
  induction h with
  | new catalog arrayLength => exact Store.hinted_empty
  | step op hr hop ih => exact run_hinted hr.sound ih hop

end Registry
end AppDriver
