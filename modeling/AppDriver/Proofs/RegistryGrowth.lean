import AppDriver.Proofs.FabricationRuns
import AppDriver.Proofs.Threading
import AppDriver.StandIn.Operation

/-! How a registry grows. Every operation keeps the workshop and leaves a sound store that is grown
from the one before, so both hold along every run. Only the registering operations add to the list
of components. -/

namespace AppDriver

open Store (Runs Effect)

namespace Workshop

variable (w : Workshop) (batch : List Component) {s : Store}

/-- A registered component answers with what was returned for it. -/
theorem register_grows (c : Component) (hs : s.Sound) :
    s.Grows (w.register batch c s).2 ∧ (w.register batch c s).2.Sound ∧
      (w.register batch c s).2.component? c.name = some (w.register batch c s).1 := by
  rw [register]
  split
  · rename_i hregistered
    exact ⟨.refl s, hs, hregistered⟩
  · rename_i hnew
    obtain ⟨hruns, -⟩ := (w.fabrication_obtains batch).2.2.1 (Underway.enterClass {} c.name)
      (c.constructorParams.map .ofType) s hs
    have hbusy : c.name ∈ (Underway.enterClass {} c.name).classes := List.mem_cons_self
    have hstill := hruns.component?_kept (.inl hbusy)
    rw [hnew] at hstill
    exact ⟨hruns.grows.trans (Store.enroll_grows _ c _), (hruns.sound hs).enroll c _,
      Store.component?_enroll hstill _⟩

/-- Only the component itself and classes of the batch are registered with it. -/
theorem register_component?_kept (c : Component) (hs : s.Sound) {name : TypeName}
    (hc : c.name ≠ name) (hbatch : ∀ b ∈ batch, b.name ≠ name) :
    (w.register batch c s).2.component? name = s.component? name := by
  rw [register]
  split
  · rfl
  · obtain ⟨hruns, -⟩ := (w.fabrication_obtains batch).2.2.1 (Underway.enterClass {} c.name)
      (c.constructorParams.map .ofType) s hs
    exact (Store.component?_append hc rfl).trans (hruns.component?_kept (.inr hbatch))

end Workshop

namespace Registry

theorem contains_iff {r : Registry} {x : StandInRef} : r.contains x = true ↔ r.store.Has x :=
  decide_eq_true_iff

theorem Operation.isAdmissible_deriveChain {r : Registry} {start : StandInRef}
    {chain : List AccessorStep} : (Operation.deriveChain start chain).isAdmissible r = true ↔
      chain = [] ∨ r.store.Has start := by
  rw [isAdmissible, Bool.or_eq_true, List.isEmpty_iff, contains_iff]

/-- A reference to a stand-in of the registry has its label. -/
theorem exists_get? {r : Registry} {x : StandInRef} (hx : r.store.Has x) :
    ∃ y, r.get? x = some y ∧ r.label x = y.label := by
  have hy : r.get? x = some r.store.arena[x.index] := List.getElem?_eq_getElem hx
  refine ⟨_, hy, ?_⟩
  rw [label, Store.label, show r.store.get? x = some r.store.arena[x.index] from hy]
  rfl

/-- One registry is left by operations on another, both being sound. -/
structure Evolves (r r' : Registry) : Prop where
  workshop : r'.workshop = r.workshop
  grows : r.store.Grows r'.store
  sound : r'.store.Sound

/-- No component is registered on the way. -/
structure Settles (r r' : Registry) : Prop extends Evolves r r' where
  components : r'.store.components = r.store.components

/-- What an operation answers exists afterwards. -/
structure Gives (r : Registry) (out : StandInRef × Registry) : Prop extends Settles r out.2 where
  has : out.2.store.Has out.1

theorem Evolves.refl {r : Registry} (hr : r.store.Sound) : r.Evolves r := ⟨rfl, .refl _, hr⟩

theorem Evolves.trans {a b c : Registry} (h : a.Evolves b) (h' : b.Evolves c) : a.Evolves c :=
  ⟨h'.workshop.trans h.workshop, h.grows.trans h'.grows, h'.sound⟩

theorem Settles.refl {r : Registry} (hr : r.store.Sound) : r.Settles r := ⟨.refl hr, rfl⟩

theorem Settles.trans {a b c : Registry} (h : a.Settles b) (h' : b.Settles c) : a.Settles c :=
  ⟨h.toEvolves.trans h'.toEvolves, h'.components.trans h.components⟩

theorem Settles.component? {r r' : Registry} (h : r.Settles r') (t : TypeName) :
    r'.component? t = r.component? t := by
  rw [Registry.component?, Store.component?, h.components]
  rfl

theorem settles_of_runs {r : Registry} (hr : r.store.Sound) {n : Nat} {busy : List TypeName}
    {s : Store} (h : Runs n [] busy r.store s) : r.Settles { r with store := s } :=
  ⟨⟨rfl, h.grows, h.sound hr⟩, h.components⟩

variable {r : Registry} (hr : r.store.Sound)

/-! ### Identifiers -/

include hr in
theorem declare_settles (b : IdentifierBinding) : r.Settles (r.declare b).2 := by
  rw [declare]
  split
  · exact .refl hr
  · rename_i hnew
    exact ⟨⟨rfl, { Store.Grows.refl r.store with declared := keeps_cons hnew _ }, { hr with }⟩, rfl⟩

include hr in
theorem bindIdentifier_settles {id : ResourceId} (hnew : r.findViewById? id = none)
    {x : StandInRef} (hx : r.store.Has x) : r.Settles (r.bindIdentifier id x) where
  workshop := rfl
  grows := { Store.Grows.refl r.store with byIdentifier := keeps_cons hnew x }
  sound := { hr with byIdentifier := Store.fits_cons hr.byIdentifier id hx }
  components := rfl

include hr in
theorem resolve_gives (id : ResourceId) (t : TypeName) : r.Gives (r.resolve id t) := by
  rw [resolve]
  split
  · rename_i x hknown
    exact ⟨.refl hr, hr.byIdentifier.lookup hknown⟩
  · rename_i hnew
    split
    · rename_i x hx
      exact ⟨bindIdentifier_settles hr hnew (hr.has_component hx), hr.has_component hx⟩
    · obtain ⟨hruns, hholds⟩ := (r.workshop.fabrication_obtains []).2.1 {} t (.identifier id)
        (((r.store.declared.lookup id).bind (·.name)).getD ("view" ++ toString id)) r.store hr
      have hmade := settles_of_runs hr hruns
      have hstill : findViewById? { r with store := (r.workshop.fabricate [] {} t (.identifier id)
          (((r.store.declared.lookup id).bind (·.name)).getD ("view" ++ toString id))
          r.store).2 } id = none := by
        rw [findViewById?, hruns.sameLookups.byIdentifier]
        exact hnew
      exact ⟨hmade.trans (bindIdentifier_settles hmade.sound hstill hholds.has), hholds.has⟩

include hr in
theorem resolveDeclared_gives (id : ResourceId) (fallback : TypeName) :
    r.Gives (r.resolveDeclared id fallback) := by
  rw [resolveDeclared]
  split
  · rename_i x hknown
    exact ⟨.refl hr, hr.byIdentifier.lookup hknown⟩
  · rename_i hnew
    split
    · exact resolve_gives hr id _
    · have hmade : r.Settles { r with store := (r.store.pushDegenerate fallback
          (.unresolved (some id)) ("missing" ++ toString id) ("R.id " ++ toString id)
          .missingIdentifier).2 } :=
        ⟨⟨rfl, { r.store.push_grows fallback _ _ _ with }, { hr.push fallback _ _ _ with }⟩, rfl⟩
      have hhas := r.store.push_has fallback (.unresolved (some id)) .degenerate
        ("missing" ++ toString id)
      exact ⟨hmade.trans (bindIdentifier_settles hmade.sound hnew hhas), hhas⟩

include hr in
theorem unresolved_gives (t : TypeName) : r.Gives (r.unresolved t) := by
  rw [unresolved]
  split
  · rename_i x hknown
    exact ⟨.refl hr, hr.unresolved.lookup hknown⟩
  · rename_i hnew
    have hpush := hr.push t (.unresolved none) .degenerate ("unresolved" ++ t.simpleName)
    have hhas := r.store.push_has t (.unresolved none) .degenerate ("unresolved" ++ t.simpleName)
    refine ⟨⟨⟨rfl, ?_, ?_⟩, rfl⟩, hhas⟩
    · exact { r.store.push_grows t _ _ _ with unresolved := keeps_cons hnew _ }
    · exact { hpush with unresolved := Store.fits_cons hpush.unresolved t hhas }

/-! ### Types -/

include hr in
theorem ambient_gives (t : TypeName) : r.Gives (r.ambient t) := by
  obtain ⟨hruns, hhas⟩ := (r.workshop.fabrication_obtains []).1 {} t r.store hr
  exact ⟨settles_of_runs hr hruns, hhas⟩

include hr in
theorem value_gives (t : TypeName) : r.Gives (r.value t) where
  workshop := rfl
  grows := r.store.value_grows _ t
  sound := hr.value _ t
  components := by
    have hvalue : Effect r.workshop.arrayLength [] [] r.store _ := .value r.store t
    exact hvalue.runs.components
  has := (hr.value _ t).has_value (r.store.lookup_value _ t)

include hr in
theorem argumentFor_gives (t : TypeName) : r.Gives (r.argumentFor t) := by
  rw [argumentFor]
  split
  · exact value_gives hr t
  · exact ambient_gives hr t

include hr in
theorem systemService_gives (name : String) : r.Gives (r.systemService name) := by
  have hinsert : ∀ made : StandInRef × Registry, r.Gives made →
      made.2.store.services = r.store.services → r.store.services.lookup name = none →
      r.Gives (made.2.withStore
        (made.1, { made.2.store with services := (name, made.1) :: made.2.store.services })) := by
    intro made hmade hsame hnew
    rw [← hsame] at hnew
    refine ⟨⟨⟨hmade.workshop, ?_, ?_⟩, hmade.components⟩, hmade.has⟩
    · exact hmade.grows.trans { Store.Grows.refl _ with services := keeps_cons hnew made.1 }
    · exact { hmade.sound with
        services := Store.fits_cons hmade.sound.services name hmade.has }
  rw [systemService]
  split
  · rename_i x hknown
    exact ⟨.refl hr, hr.services.lookup hknown⟩
  · rename_i hnew
    refine hinsert _ ?_ ?_ hnew
    · split
      · exact ambient_gives hr _
      · exact ⟨⟨⟨rfl, { r.store.push_grows _ _ _ _ with }, { hr.push _ _ _ _ with }⟩, rfl⟩,
          r.store.push_has _ _ _ _⟩
    · split
      · exact ((r.workshop.fabrication_obtains []).1 {} _ r.store hr).1.sameLookups.services
      · rfl

/-! ### Components and getters -/

include hr in
theorem registerComponent_evolves (c : Component) : r.Evolves (r.registerComponent c).2 := by
  obtain ⟨hgrows, hsound, -⟩ := r.workshop.register_grows [] c hr
  exact ⟨rfl, hgrows, hsound⟩

include hr in
/-- Components are registered one after the other, each in a sound store: what holds between the
stores before and after each of them holds of all of them together. -/
theorem registerComponents_rel {R : Store → Store → Prop} (hrefl : ∀ s, R s s)
    (htrans : ∀ {a b c}, R a b → R b c → R a c) {cs : List Component}
    (hstep : ∀ c ∈ cs, ∀ s, s.Sound → R s (r.workshop.register cs c s).2) :
    (r.registerComponents cs).2.store.Sound ∧ R r.store (r.registerComponents cs).2.store :=
  threadMap_rel (R := fun s s' : Store => s.Sound → s'.Sound ∧ R s s')
    (fun s hs => ⟨hs, hrefl s⟩)
    (fun h h' hs => ⟨(h' (h hs).1).1, htrans (h hs).2 (h' (h hs).1).2⟩)
    (f := r.workshop.register cs) cs
    (fun c hc s hs => ⟨(r.workshop.register_grows cs c hs).2.1, hstep c hc s hs⟩) r.store hr

include hr in
/-- What the registration of each component keeps is kept by that of all of them. -/
theorem registerComponents_keeps {P : Store → Prop} {cs : List Component}
    (hstep : ∀ c s, s.Sound → P s → P (r.workshop.register cs c s).2) (h : P r.store) :
    P (r.registerComponents cs).2.store :=
  (registerComponents_rel (R := fun s s' => P s → P s') hr (fun _ h => h)
    (fun h h' hs => h' (h hs)) fun c _ s hs => hstep c s hs).2 h

include hr in
theorem registerComponents_evolves (cs : List Component) :
    r.Evolves (r.registerComponents cs).2 := by
  obtain ⟨hsound, hgrows⟩ := registerComponents_rel hr Store.Grows.refl Store.Grows.trans
    fun c _ _ hs => (r.workshop.register_grows cs c hs).1
  exact ⟨rfl, hgrows, hsound⟩

include hr in
theorem derived_gives (parent : StandInRef) (step : AccessorStep) :
    r.Gives (r.derived parent step) := by
  rw [derived]
  split
  · rename_i x hknown
    exact ⟨.refl hr, hr.derived.lookup hknown⟩
  · rename_i hnew
    have hpush := hr.push step.returns (.derived parent step.method)
      (.accessor parent step.method)
      (r.label parent ++ capitalized (getterSubject step.method))
    have hhas := r.store.push_has step.returns (.derived parent step.method)
      (.accessor parent step.method)
      (r.label parent ++ capitalized (getterSubject step.method))
    refine ⟨⟨⟨rfl, ?_, ?_⟩, rfl⟩, hhas⟩
    · exact { r.store.push_grows step.returns _ _ _ with derived := keeps_cons hnew _ }
    · exact { hpush with derived := Store.fits_cons hpush.derived _ hhas }

theorem deriveChain_settles (chain : List AccessorStep) (start : StandInRef) {r : Registry}
    (hr : r.store.Sound) : r.Settles (r.deriveChain start chain).2 := by
  induction chain generalizing start r with
  | nil => exact .refl hr
  | cons step chain ih =>
      have hnext := (derived_gives hr start step).toSettles
      exact hnext.trans (ih _ hnext.sound)

/-! ### Runs -/

include hr in
/-- Only the two registering operations register components. -/
theorem run_settles_or_registers (op : Operation) : r.Settles (op.run r).2 ∨
    (∃ c, op = .registerComponent c) ∨ ∃ cs, op = .registerComponents cs := by
  cases op with
  | declare b => exact .inl (declare_settles hr b)
  | resolve id t => exact .inl (resolve_gives hr id t).toSettles
  | resolveDeclared id fallback => exact .inl (resolveDeclared_gives hr id fallback).toSettles
  | unresolved t => exact .inl (unresolved_gives hr t).toSettles
  | ambient t => exact .inl (ambient_gives hr t).toSettles
  | systemService name => exact .inl (systemService_gives hr name).toSettles
  | value t => exact .inl (value_gives hr t).toSettles
  | argumentFor t => exact .inl (argumentFor_gives hr t).toSettles
  | registerComponent c => exact .inr (.inl ⟨c, rfl⟩)
  | registerComponents cs => exact .inr (.inr ⟨cs, rfl⟩)
  | derived parent step => exact .inl (derived_gives hr parent step).toSettles
  | deriveChain start chain => exact .inl (deriveChain_settles chain start hr)

include hr in
theorem run_evolves (op : Operation) : r.Evolves (op.run r).2 := by
  rcases run_settles_or_registers hr op with h | ⟨c, rfl⟩ | ⟨cs, rfl⟩
  · exact h.toEvolves
  · exact registerComponent_evolves hr c
  · exact registerComponents_evolves hr cs

/-- Whether an operation registers a component of this name. -/
def Operation.registers (t : TypeName) : Operation → Bool
  | .registerComponent c => c.name == t
  | .registerComponents cs => cs.any (·.name == t)
  | _ => false

include hr in
/-- An operation that does not register a class leaves its instance. -/
theorem component?_run {op : Operation} {t : TypeName} (hop : op.registers t = false) :
    (op.run r).2.component? t = r.component? t := by
  rcases run_settles_or_registers hr op with h | ⟨c, rfl⟩ | ⟨cs, rfl⟩
  · exact h.component? t
  · exact r.workshop.register_component?_kept [] c hr (beq_eq_false_iff_ne.1 hop)
      fun b hb => by cases hb
  · have hbatch : ∀ b ∈ cs, b.name ≠ t := fun b hb heq =>
      List.any_eq_false.1 hop b hb (beq_iff_eq.2 heq)
    have hrun := registerComponents_rel
      (R := fun s s' : Store => s'.component? t = s.component? t) hr (fun _ => rfl)
      (fun h h' => h'.trans h)
      fun c hc _ hs => r.workshop.register_component?_kept cs c hs (hbatch c hc) hbatch
    exact hrun.2

theorem Reachable.sound {r : Registry} (h : Reachable r) : r.store.Sound := by
  induction h with
  | new catalog arrayLength => exact Store.sound_empty
  | step op _ _ ih => exact (run_evolves ih op).sound

/-- A finite run of admissible operations leads from one registry to the other. -/
def Leads : Registry → Registry → Prop :=
  Relation.ReflTransGen fun r r' =>
    ∃ op : Operation, op.isAdmissible r = true ∧ r' = (op.run r).2

theorem Leads.reachable {r late : Registry} (h : Leads r late) (hr : Reachable r) :
    Reachable late := by
  induction h with
  | refl => exact hr
  | tail _ hlast ih =>
      obtain ⟨op, hop, rfl⟩ := hlast
      exact ih.step op hop

/-- A run that does not register a class leaves its instance. -/
theorem component?_of_run {r late : Registry} (hr : r.store.Sound) {t : TypeName}
    (h : Relation.ReflTransGen (fun r r' => ∃ op : Operation,
      op.registers t = false ∧ r' = (op.run r).2) r late) :
    late.store.Sound ∧ late.component? t = r.component? t := by
  induction h with
  | refl => exact ⟨hr, rfl⟩
  | tail _ hlast ih =>
      obtain ⟨op, hop, rfl⟩ := hlast
      exact ⟨(run_evolves ih.1 op).sound, (component?_run ih.1 hop).trans ih.2⟩

theorem Leads.evolves {r late : Registry} (h : Leads r late) (hr : r.store.Sound) :
    r.Evolves late := by
  induction h with
  | refl => exact .refl hr
  | tail _ hlast ih =>
      obtain ⟨op, -, rfl⟩ := hlast
      exact ih.trans (run_evolves ih.sound op)

end Registry
end AppDriver
