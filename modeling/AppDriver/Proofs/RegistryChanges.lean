import AppDriver.Proofs.RegistryGrowth

/-! What an operation does to the store, as a run of single changes. Between them the registry only
remembers answers, so a property that such entries do not touch holds of every reachable registry
once every change keeps it. -/

namespace AppDriver

namespace Store

/-- Two stores that differ at most in what the registry itself remembers. -/
structure SameObjects (s s' : Store) : Prop where
  arena : s'.arena = s.arena
  ambients : s'.ambients = s.ambients
  values : s'.values = s.values
  typedNulls : s'.typedNulls = s.typedNulls
  services : Keeps s.services s'.services
  components : s'.components = s.components
  cycleBreaks : s'.cycleBreaks = s.cycleBreaks
  degradations : s'.degradations = s.degradations

theorem SameObjects.refl (s : Store) : s.SameObjects s :=
  ⟨rfl, rfl, rfl, rfl, .refl _, rfl, rfl, rfl⟩

/-- Adds a degenerate service of an unknown name and remembers it under this name. -/
def pushService (s : Store) (name subject : String) : StandInRef × Store :=
  let made := s.pushDegenerate TypeName.object .ambient ("service_" ++ name) subject .unknownService
  (made.1, { made.2 with services := (name, made.1) :: made.2.services })

/-- One change that an operation makes to a store: it remembers an answer, takes a stand-in from the
workshop, or adds one itself. -/
inductive Change (w : Workshop) : Store → Store → Prop
  | remember {s s' : Store} : s.SameObjects s' → s'.Sound → Change w s s'
  | fabricate (s : Store) (t : TypeName) (id : ResourceId) (hint : String) :
    Change w s (w.fabricate [] {} t (.identifier id) hint s).2
  | ambient (s : Store) (t : TypeName) : Change w s (w.ambient [] {} t s).2
  | value (s : Store) (t : TypeName) : Change w s (s.value w.arrayLength t).2
  | register (s : Store) (batch : List Component) (c : Component) :
    Change w s (w.register batch c s).2
  | missing (s : Store) (t : TypeName) (id : ResourceId) (subject : String) :
    Change w s (s.pushDegenerate t (.unresolved (some id)) ("missing" ++ toString id) subject
      .missingIdentifier).2
  | service {s : Store} (name subject : String) : s.services.lookup name = none →
    Change w s (s.pushService name subject).2
  | unresolved (s : Store) (t : TypeName) :
    Change w s (s.push t (.unresolved none) .degenerate ("unresolved" ++ t.simpleName)).2
  | derived (s : Store) (parent : StandInRef) (step : AccessorStep) (hint : String) :
    Change w s (s.push step.returns (.derived parent step.method) (.accessor parent step.method)
      hint).2

/-- Changes one after the other. -/
def Changes (w : Workshop) : Store → Store → Prop := Relation.ReflTransGen (Change w)

variable {w : Workshop} {s s' : Store}

theorem Change.sound (h : Change w s s') (hs : s.Sound) : s'.Sound := by
  cases h with
  | remember hsame hsound => exact hsound
  | fabricate t id hint =>
      exact ((w.fabrication_obtains []).2.1 {} t (.identifier id) hint s hs).1.sound hs
  | ambient t => exact ((w.fabrication_obtains []).1 {} t s hs).1.sound hs
  | value t => exact hs.value _ t
  | register batch c => exact (w.register_grows batch c hs).2.1
  | missing => exact { hs.push _ _ _ _ with }
  | service name subject hnew =>
      have hpush := hs.push TypeName.object .ambient .degenerate ("service_" ++ name)
      exact { hpush with services := fits_cons hpush.services name (s.push_has _ _ _ _) }
  | unresolved | derived => exact hs.push _ _ _ _

theorem Change.changes (h : Change w s s') : Changes w s s' := Relation.ReflTransGen.single h

/-- A change and what is remembered of it. -/
theorem Change.then_remember {made : Store} (h : Change w s made) (hsame : made.SameObjects s')
    (hs : s'.Sound) : Changes w s s' := h.changes.tail (.remember hsame hs)

/-- What every change keeps, many of them keep. -/
theorem Changes.keep {P : Store → Prop}
    (hchange : ∀ {s s' : Store}, Change w s s' → s.Sound → P s → P s') (h : Changes w s s')
    (hs : s.Sound) (hp : P s) : s'.Sound ∧ P s' := by
  induction h with
  | refl => exact ⟨hs, hp⟩
  | tail _ hlast ih => exact ⟨hlast.sound ih.1, hchange hlast ih.1 ih.2⟩

end Store

open Store (Change Changes)

/-! ### Operations -/

namespace Registry

variable {r : Registry} (hr : r.store.Sound)

include hr in
theorem declare_changes (b : IdentifierBinding) :
    Changes r.workshop r.store (r.declare b).2.store := by
  have hsound := (declare_settles hr b).sound
  unfold declare at hsound ⊢
  cases hknown : r.store.declared.lookup b.id with
  | some d => exact .refl
  | none =>
      simp only [hknown] at hsound ⊢
      exact .single (.remember { Store.SameObjects.refl _ with } hsound)

include hr in
theorem resolve_changes (id : ResourceId) (t : TypeName) :
    Changes r.workshop r.store (r.resolve id t).2.store := by
  have hsound := (resolve_gives hr id t).sound
  unfold resolve at hsound ⊢
  cases hknown : r.findViewById? id with
  | some x => exact .refl
  | none =>
      cases hinstance : r.store.component? t with
      | some x =>
          simp only [hknown, hinstance] at hsound ⊢
          exact .single (.remember { Store.SameObjects.refl _ with } hsound)
      | none =>
          simp only [hknown, hinstance] at hsound ⊢
          exact (Change.fabricate r.store t id _).then_remember { Store.SameObjects.refl _ with } hsound

include hr in
theorem resolveDeclared_changes (id : ResourceId) (fallback : TypeName) :
    Changes r.workshop r.store (r.resolveDeclared id fallback).2.store := by
  have hsound := (resolveDeclared_gives hr id fallback).sound
  unfold resolveDeclared at hsound ⊢
  cases hknown : r.findViewById? id with
  | some x => exact .refl
  | none =>
      cases hdeclared : r.declaredType? id with
      | some t => exact resolve_changes hr id t
      | none =>
          simp only [hknown, hdeclared] at hsound ⊢
          exact (Change.missing r.store fallback id _).then_remember { Store.SameObjects.refl _ with } hsound

include hr in
theorem unresolved_changes (t : TypeName) :
    Changes r.workshop r.store (r.unresolved t).2.store := by
  have hsound := (unresolved_gives hr t).sound
  unfold unresolved at hsound ⊢
  cases hknown : r.store.unresolved.lookup t with
  | some x => exact .refl
  | none =>
      simp only [hknown] at hsound ⊢
      exact (Change.unresolved r.store t).then_remember { Store.SameObjects.refl _ with } hsound

theorem ambient_changes (t : TypeName) : Changes r.workshop r.store (r.ambient t).2.store :=
  (Change.ambient r.store t).changes

theorem value_changes (t : TypeName) : Changes r.workshop r.store (r.value t).2.store :=
  (Change.value r.store t).changes

theorem argumentFor_changes (t : TypeName) :
    Changes r.workshop r.store (r.argumentFor t).2.store := by
  rw [argumentFor]
  split
  · exact value_changes t
  · exact ambient_changes t

include hr in
theorem systemService_changes (name : String) :
    Changes r.workshop r.store (r.systemService name).2.store := by
  have hsound := (systemService_gives hr name).sound
  unfold systemService at hsound ⊢
  cases hknown : r.store.services.lookup name with
  | some x => exact .refl
  | none =>
      cases htype : r.catalog.serviceType? name with
      | some t =>
          simp only [hknown, htype] at hsound ⊢
          have hnew : (r.ambient t).2.store.services.lookup name = none := by
            rw [← hknown]
            exact congrArg (List.lookup name)
              ((r.workshop.fabrication_obtains []).1 {} t r.store hr).1.sameLookups.services
          exact (Change.ambient r.store t).then_remember
            { Store.SameObjects.refl _ with services := keeps_cons hnew _ } hsound
      | none => exact (Change.service name _ hknown).changes

theorem registerComponents_changes (cs : List Component) :
    Changes r.workshop r.store (r.registerComponents cs).2.store :=
  threadMap_rel (R := Changes r.workshop) (fun _ => .refl) Relation.ReflTransGen.trans
    (f := r.workshop.register cs) cs (fun c _ s => (Change.register s cs c).changes) r.store

include hr in
theorem derived_changes (parent : StandInRef) (step : AccessorStep) :
    Changes r.workshop r.store (r.derived parent step).2.store := by
  have hsound := (derived_gives hr parent step).sound
  unfold derived at hsound ⊢
  cases hknown : r.store.derived.lookup (parent, step.method) with
  | some x => exact .refl
  | none =>
      simp only [hknown] at hsound ⊢
      exact (Change.derived r.store parent step _).then_remember { Store.SameObjects.refl _ with } hsound

theorem deriveChain_changes (chain : List AccessorStep) (start : StandInRef) {r : Registry}
    (hr : r.store.Sound) : Changes r.workshop r.store (r.deriveChain start chain).2.store := by
  induction chain generalizing start r with
  | nil => exact .refl
  | cons step chain ih =>
      have hnext := derived_gives hr start step
      have hrest := ih (r.derived start step).1 hnext.sound
      rw [hnext.workshop] at hrest
      exact (derived_changes hr start step).trans hrest

include hr in
theorem run_changes (op : Operation) : Changes r.workshop r.store (op.run r).2.store := by
  cases op with
  | declare b => exact declare_changes hr b
  | resolve id t => exact resolve_changes hr id t
  | resolveDeclared id fallback => exact resolveDeclared_changes hr id fallback
  | unresolved t => exact unresolved_changes hr t
  | ambient t => exact ambient_changes t
  | systemService name => exact systemService_changes hr name
  | value t => exact value_changes t
  | argumentFor t => exact argumentFor_changes t
  | registerComponent c => exact (Change.register r.store [] c).changes
  | registerComponents cs => exact registerComponents_changes cs
  | derived parent step => exact derived_changes hr parent step
  | deriveChain start chain => exact deriveChain_changes chain start hr

/-- What the empty store has over every catalog and every change over a catalog keeps, the store of a
reachable registry has over its catalog. -/
theorem Reachable.of_catalog_changes {P : FrameworkCatalog → Store → Prop} (hempty : ∀ c, P c {})
    (hchange : ∀ {w : Workshop} {s s' : Store}, Change w s s' → s.Sound → P w.catalog s →
      P w.catalog s') (h : Reachable r) : P r.catalog r.store := by
  induction h with
  | new catalog arrayLength => exact hempty catalog
  | @step r op hr _ ih =>
      rw [show (op.run r).2.catalog = r.catalog from
        congrArg Workshop.catalog (run_evolves hr.sound op).workshop]
      exact ((run_changes hr.sound op).keep hchange hr.sound ih).2

/-- What the empty store has and every change keeps, the store of a reachable registry has. -/
theorem Reachable.of_changes {P : Store → Prop} (hempty : P {})
    (hchange : ∀ {w : Workshop} {s s' : Store}, Change w s s' → s.Sound → P s → P s')
    (h : Reachable r) : P r.store :=
  h.of_catalog_changes (P := fun _ => P) (fun _ => hempty) hchange

end Registry
end AppDriver
