import AppDriver.Proofs.Filing

/-! Registries in order. Every operation with references that exist leaves the arena in order and
all of it on file, and the tables traced, so both hold of every registry that a run reaches. It
follows that identifiers share no view and that the order of the arena is an order in which the
stand-ins can be allocated. -/

namespace AppDriver

/-- The identifier that a stand-in of this origin was made for. -/
def Origin.madeFor? : Origin → Option ResourceId
  | .identifier id => some id
  | .unresolved id => id
  | _ => none

namespace Store

variable {s s' : Store} {x : StandInRef} {y : StandIn} {origin made : Origin} {id : ResourceId}

/-- A store in which the arena and the tables say the same. -/
structure Orderly (s : Store) : Prop extends s.Filed [], s.Traced

theorem orderly_empty : Orderly {} := by
  constructor <;> constructor <;> simp [get?]

theorem onFile_of_madeFor (h : s.OnFile x y) (hfor : y.origin.madeFor? = some id) :
    s.byIdentifier.lookup id = some x := by
  unfold OnFile at h
  split at h <;> rename_i horigin <;> rw [horigin] at hfor <;> cases hfor
  · exact h
  · exact h

theorem onFile_of_lookup (h : s.byIdentifier.lookup id = some x)
    (hfor : y.origin.madeFor? = some id) : s.OnFile x y := by
  unfold OnFile
  split <;> rename_i horigin <;> rw [horigin] at hfor <;> cases hfor
  · exact h
  · exact h

/-- What was made for an identifier is filed when it is bound to it. -/
theorem orderly_bind (hfiled : s.Filed [(x, origin)]) (htraced : s.Traced)
    (hnew : s.byIdentifier.lookup id = none) (hfor : origin.madeFor? = some id)
    (hmade : s.originAt? x = some made) (hanswers : made.Answers id) :
    Orderly { s with byIdentifier := (id, x) :: s.byIdentifier } := by
  have hgrows : s.Grows { s with byIdentifier := (id, x) :: s.byIdentifier } :=
    { Grows.refl s with byIdentifier := keeps_cons hnew x }
  constructor
  · apply (hfiled.grow hgrows rfl).settle
    intro y _ horigin
    exact onFile_of_lookup List.lookup_cons_self (horigin ▸ hfor)
  · refine { htraced with views := ?_ }
    intro e he
    rcases List.mem_cons.1 he with rfl | he
    · exact ⟨made, hmade, hanswers⟩
    · exact htraced.views e he

theorem Orderly.of_runs (h : s.Orderly) {n : Nat} {batch : List Component} {busy : List TypeName}
    (hruns : Runs n batch busy s s') (hfiled : s.Filed [] → s'.Filed []) : s'.Orderly :=
  ⟨hfiled h.toFiled, hruns.traced h.toTraced⟩

end Store

namespace Workshop

variable (w : Workshop) (batch : List Component) {s : Store} (hs : s.Sound)

include hs in
theorem register_orderly (c : Component) (h : s.Orderly) : (w.register batch c s).2.Orderly := by
  rw [register]
  split
  · exact h
  · rename_i hnew
    obtain ⟨hruns, hargs⟩ := (w.fabrication_obtains batch).2.2.1 (Underway.enterClass {} c.name)
      (c.constructorParams.map .ofType) s hs
    have hfiled := (w.fabrication_files batch).2.2.1 (Underway.enterClass {} c.name)
      (c.constructorParams.map .ofType) s hs h.toFiled
    have htraced := hruns.traced h.toTraced
    have hstill := hruns.component?_kept (.inl List.mem_cons_self)
    rw [hnew] at hstill
    have henroll : Store.Effect w.arrayLength [c] [] _ _ :=
      .enroll List.mem_cons_self List.not_mem_nil hstill hargs
    exact ⟨hfiled.enroll hstill hargs, henroll.traced htraced⟩

end Workshop

open Store (Orderly)

namespace Registry

variable {r : Registry} (hr : r.store.Sound) (h : r.store.Orderly)

/-! ### Operations -/

include h in
theorem declare_orderly (b : IdentifierBinding) : (r.declare b).2.store.Orderly := by
  rw [declare]
  split
  · exact h
  · rename_i hnew
    have hgrows : r.store.Grows
        { r.store with declared := (b.id, ⟨b.declaredType, b.name⟩) :: r.store.declared } :=
      { Store.Grows.refl r.store with declared := keeps_cons hnew _ }
    exact ⟨h.toFiled.grow hgrows rfl, { h.toTraced with }⟩

include hr h in
theorem resolve_orderly (id : ResourceId) (t : TypeName) : (r.resolve id t).2.store.Orderly := by
  rw [resolve]
  split
  · exact h
  · rename_i hnew
    split
    · rename_i x hx
      obtain ⟨e, he, rfl⟩ := Option.map_eq_some_iff.1 hx
      obtain ⟨y, hy, -, horigin⟩ := h.instances e (List.mem_of_find?_eq_some he)
      have hmade : r.store.originAt? e.2 = some (.component e.1.kind) := by
        rw [Store.originAt?, hy, Option.map_some, horigin]
      have hfiled : r.store.Filed [(e.2, .identifier id)] := h.loosen
      exact Store.orderly_bind hfiled h.toTraced hnew rfl hmade
        (Or.inr (Or.inr (Or.inl ⟨_, rfl⟩)))
    · generalize ((r.store.declared.lookup id).bind (·.name)).getD ("view" ++ toString id) = hint
      obtain ⟨hruns, -⟩ := (r.workshop.fabrication_obtains []).2.1 {} t (.identifier id) hint
        r.store hr
      obtain ⟨hfiled, hmade⟩ := (r.workshop.fabrication_files []).2.1 {} t (.identifier id) hint
        r.store hr
      have hstill : (r.workshop.fabricate [] {} t (.identifier id) hint
          r.store).2.byIdentifier.lookup id = none := by
        rw [hruns.sameLookups.byIdentifier]
        exact hnew
      obtain ⟨made, horigin, hanswers⟩ : ∃ made : Origin,
          (r.workshop.fabricate [] {} t (.identifier id) hint r.store).2.originAt?
            (r.workshop.fabricate [] {} t (.identifier id) hint r.store).1 = some made ∧
          made.Answers id := by
        rcases hmade (by simp) h.toTraced with horigin | horigin
        · exact ⟨_, horigin, Or.inl rfl⟩
        · exact ⟨_, horigin, Or.inr (Or.inr (Or.inr rfl))⟩
      exact Store.orderly_bind (hfiled h.toFiled) (hruns.traced h.toTraced) hstill rfl horigin
        hanswers

include hr h in
theorem resolveDeclared_orderly (id : ResourceId) (fallback : TypeName) :
    (r.resolveDeclared id fallback).2.store.Orderly := by
  rw [resolveDeclared]
  split
  · exact h
  · rename_i hnew
    split
    · exact resolve_orderly hr h id _
    · have horigin := r.store.originAt?_push fallback (.unresolved (some id)) .degenerate
        ("missing" ++ toString id)
      exact Store.orderly_bind (h.pushDegenerate _ _) { h.toTraced.push with } hnew rfl horigin
        (Or.inr (Or.inl rfl))

include h in
theorem unresolved_orderly (t : TypeName) : (r.unresolved t).2.store.Orderly := by
  rw [unresolved]
  split
  · exact h
  · rename_i hnew
    refine ⟨h.push_enter t (.unresolved none) .degenerate _ (fun d hd => by cases hd)
      { Store.Grows.refl _ with unresolved := keeps_cons hnew _ } rfl ?_,
      { h.toTraced.push with }⟩
    intro y htype horigin
    simp only [Store.OnFile, horigin, htype]
    exact List.lookup_cons_self

include hr h in
theorem ambient_orderly (t : TypeName) : (r.ambient t).2.store.Orderly := by
  obtain ⟨hruns, -⟩ := (r.workshop.fabrication_obtains []).1 {} t r.store hr
  exact h.of_runs hruns ((r.workshop.fabrication_files []).1 {} t r.store hr)

include h in
theorem value_orderly (t : TypeName) : (r.value t).2.store.Orderly := by
  have hvalue : Store.Effect r.workshop.arrayLength [] [] r.store _ := .value r.store t
  exact ⟨h.toFiled.value, hvalue.traced h.toTraced⟩

include hr h in
theorem systemService_orderly (name : String) : (r.systemService name).2.store.Orderly := by
  have henter : ∀ made : StandInRef × Registry, made.2.store.Orderly →
      made.2.store.services.lookup name = none →
      Orderly { made.2.store with services := (name, made.1) :: made.2.store.services } := by
    intro made hmade hnew
    have hgrows : made.2.store.Grows
        { made.2.store with services := (name, made.1) :: made.2.store.services } :=
      { Store.Grows.refl _ with services := keeps_cons hnew _ }
    exact ⟨hmade.toFiled.grow hgrows rfl, { hmade.toTraced with }⟩
  rw [systemService]
  split
  · exact h
  · rename_i hnew
    split
    · rename_i t _
      obtain ⟨hruns, -⟩ := (r.workshop.fabrication_obtains []).1 {} t r.store hr
      apply henter _ (ambient_orderly hr h t)
      exact (congrArg (·.lookup name) hruns.sameLookups.services).trans hnew
    · exact henter _ ⟨(h.pushDegenerate _ _).settle_ambient, { h.toTraced.push with }⟩ hnew

include hr h in
theorem registerComponents_orderly (cs : List Component) :
    (r.registerComponents cs).2.store.Orderly :=
  registerComponents_keeps hr (fun c _ hs => r.workshop.register_orderly cs hs c) h

include h in
theorem derived_orderly {parent : StandInRef} (hparent : r.store.Has parent) (step : AccessorStep) :
    (r.derived parent step).2.store.Orderly := by
  rw [derived]
  split
  · exact h
  · rename_i hnew
    refine ⟨h.push_enter step.returns (.derived parent step.method)
      (.accessor parent step.method) _ ?_
      { Store.Grows.refl _ with derived := keeps_cons hnew _ } rfl ?_, { h.toTraced.push with }⟩
    · intro d hd
      rw [List.mem_singleton.1 hd]
      exact hparent
    · intro y _ horigin
      simp only [Store.OnFile, horigin]
      exact ⟨List.lookup_cons_self, hparent⟩

theorem deriveChain_orderly (chain : List AccessorStep) {start : StandInRef} {r : Registry}
    (hr : r.store.Sound) (h : r.store.Orderly) (hstart : chain = [] ∨ r.store.Has start) :
    (r.deriveChain start chain).2.store.Orderly := by
  induction chain generalizing start r with
  | nil => exact h
  | cons step chain ih =>
      have hparent := hstart.resolve_left (List.cons_ne_nil step chain)
      have hnext := derived_gives hr start step
      exact ih hnext.sound (derived_orderly h hparent step) (Or.inr hnext.has)

include hr h in
theorem run_orderly {op : Operation} (hop : op.isAdmissible r = true) :
    (op.run r).2.store.Orderly := by
  cases op with
  | declare b => exact declare_orderly h b
  | resolve id t => exact resolve_orderly hr h id t
  | resolveDeclared id fallback => exact resolveDeclared_orderly hr h id fallback
  | unresolved t => exact unresolved_orderly h t
  | ambient t => exact ambient_orderly hr h t
  | systemService name => exact systemService_orderly hr h name
  | value t => exact value_orderly h t
  | argumentFor t =>
      rw [Operation.run, argumentFor]
      split
      · exact value_orderly h t
      · exact ambient_orderly hr h t
  | registerComponent c => exact r.workshop.register_orderly [] hr c h
  | registerComponents cs => exact registerComponents_orderly hr h cs
  | derived parent step => exact derived_orderly h (contains_iff.1 hop) step
  | deriveChain start chain =>
      exact deriveChain_orderly chain hr h (Operation.isAdmissible_deriveChain.1 hop)

theorem Reachable.orderly {r : Registry} (h : Reachable r) : r.store.Orderly := by
  induction h with
  | new catalog arrayLength => exact Store.orderly_empty
  | step op hr hop ih => exact run_orderly hr.sound ih hop

/-! ### Views of identifiers -/

theorem Reachable.onFile (h : Reachable r) {x : StandInRef} {y : StandIn}
    (hy : r.get? x = some y) : r.store.OnFile x y :=
  (h.orderly.onFile x y hy).resolve_right List.not_mem_nil

theorem Reachable.findViewById?_of_madeFor (h : Reachable r) {x : StandInRef} {y : StandIn}
    {id : ResourceId} (hy : r.get? x = some y) (hfor : y.origin.madeFor? = some id) :
    r.findViewById? id = some x :=
  Store.onFile_of_madeFor (h.onFile hy) hfor

/-- What a getter returns is remembered under the call and comes after the stand-in called. -/
theorem Reachable.lookup_of_derived (h : Reachable r) {x parent : StandInRef} {y : StandIn}
    {getter : String} (hy : r.get? x = some y) (horigin : y.origin = .derived parent getter) :
    r.store.derived.lookup (parent, getter) = some x ∧ parent.index < x.index := by
  have hfile := h.onFile hy
  rwa [Store.OnFile, horigin] at hfile

theorem Reachable.origin_of_findViewById? (h : Reachable r) {x : StandInRef} {id : ResourceId}
    (hx : r.findViewById? id = some x) : ∃ y, r.get? x = some y ∧ y.origin.Answers id := by
  obtain ⟨origin, horigin, hanswers⟩ := h.orderly.views (id, x) (Workshop.mem_of_lookup hx)
  obtain ⟨y, hy, rfl⟩ := Option.map_eq_some_iff.1 horigin
  exact ⟨y, hy, hanswers⟩

/-- **Identifiers share no view.** The view of an identifier was made for this identifier, or is a
component or a plain value; what was made for an identifier is its view, so there is at most one
such stand-in for each. Two identifiers with one view therefore denote a component or a value. -/
theorem identifiers_share_no_view (h : Reachable r) :
    (∀ id x, r.findViewById? id = some x → ∃ y, r.get? x = some y ∧
      (y.origin = .identifier id ∨ y.origin = .unresolved (some id) ∨
        (∃ kind, y.origin = .component kind) ∨ y.origin = .value)) ∧
    (∀ id x y, r.get? x = some y →
      (y.origin = .identifier id ∨ y.origin = .unresolved (some id)) →
      r.findViewById? id = some x ∧
        ∀ x' y', r.get? x' = some y' →
          (y'.origin = .identifier id ∨ y'.origin = .unresolved (some id)) → x' = x) ∧
    (∀ id id' x, r.findViewById? id = some x → r.findViewById? id' = some x → id ≠ id' →
      ∃ y, r.get? x = some y ∧ ((∃ kind, y.origin = .component kind) ∨ y.origin = .value)) := by
  have hmade : ∀ id x y, r.get? x = some y →
      (y.origin = .identifier id ∨ y.origin = .unresolved (some id)) →
      r.findViewById? id = some x := by
    rintro id x y hy (horigin | horigin) <;>
      exact h.findViewById?_of_madeFor hy (by rw [horigin]; rfl)
  refine ⟨fun id x hx => h.origin_of_findViewById? hx, ?_, ?_⟩
  · intro id x y hy horigin
    refine ⟨hmade id x y hy horigin, fun x' y' hy' horigin' => ?_⟩
    have hboth := (hmade id x' y' hy' horigin').symm.trans (hmade id x y hy horigin)
    exact Option.some.inj hboth
  · intro id id' x hx hx' hne
    obtain ⟨y, hy, hanswers⟩ := h.origin_of_findViewById? hx
    obtain ⟨y', hy', hanswers'⟩ := h.origin_of_findViewById? hx'
    obtain rfl : y = y' := Option.some.inj (hy.symm.trans hy')
    refine ⟨y, hy, ?_⟩
    rcases hanswers with horigin | horigin | hother
    · simp only [Origin.Answers, horigin] at hanswers'
      simp [hne] at hanswers'
    · simp only [Origin.Answers, horigin] at hanswers'
      simp [hne] at hanswers'
    · exact hother

/-- A panel that is looked up under two identifiers. -/
def panelRegistry : Registry :=
  let registered := ((new {}).registerComponent { name := ⟨"app.Panel"⟩, kind := .activity }).2
  ((registered.resolve 1 ⟨"app.Panel"⟩).2.resolve 2 ⟨"app.Panel"⟩).2

theorem panelRegistry_reachable : Reachable panelRegistry :=
  .step (.resolve 2 ⟨"app.Panel"⟩)
    (.step (.resolve 1 ⟨"app.Panel"⟩)
      (.step (.registerComponent { name := ⟨"app.Panel"⟩, kind := .activity }) (.new {} 1) rfl)
      rfl)
    rfl

/-- The view that the two identifiers share is the panel itself. -/
theorem shared_view_is_panel : Reachable panelRegistry ∧
    panelRegistry.findViewById? 1 = some ⟨0⟩ ∧ panelRegistry.findViewById? 2 = some ⟨0⟩ ∧
    ∃ y, panelRegistry.get? ⟨0⟩ = some y ∧
      ((∃ kind, y.origin = .component kind) ∨ y.origin = .value) := by
  have hfirst : panelRegistry.findViewById? 1 = some ⟨0⟩ := by decide +kernel
  have hsecond : panelRegistry.findViewById? 2 = some ⟨0⟩ := by decide +kernel
  exact ⟨panelRegistry_reachable, hfirst, hsecond,
    (identifiers_share_no_view panelRegistry_reachable).2.2 1 2 ⟨0⟩ hfirst hsecond (by decide)⟩

/-! ### The order of the arena -/

/-- **Allocation order.** A stand-in is numbered by its place in the arena, what it is built from
and whose getter returns it comes before it, and it stays in its place as it is in every later
registry. References are unbounded here, so the order does not end at any number of stand-ins. -/
theorem arena_is_allocation_order (h : Reachable r) :
    (∀ (i : Nat) (y : StandIn), r.standIns[i]? = some y → y.id.index = i ∧
      (∀ d ∈ y.construction.dependencies, d.index < i) ∧
      ∀ parent getter, y.origin = .derived parent getter → parent.index < i) ∧
    ∀ late, Leads r late → r.standIns <+: late.standIns := by
  constructor
  · intro i y hy
    have hget : r.store.get? ⟨i⟩ = some y := hy
    obtain ⟨hid, hreads⟩ := h.orderly.placed ⟨i⟩ y hget
    refine ⟨congrArg StandInRef.index hid, hreads, fun parent getter horigin => ?_⟩
    have hfile := (h.orderly.onFile ⟨i⟩ y hget).resolve_right List.not_mem_nil
    simp only [Store.OnFile, horigin] at hfile
    exact hfile.2
  · intro late hlead
    exact (hlead.evolves h.sound).grows.arena

/-- Two components, each of which needs the other one to be constructed. -/
def knot : List Component :=
  [{ name := ⟨"app.Left"⟩, kind := .plainListener, constructorParams := [⟨"app.Right"⟩] },
   { name := ⟨"app.Right"⟩, kind := .plainListener, constructorParams := [⟨"app.Left"⟩] }]

def knotRegistry : Registry := ((new {}).registerComponents knot).2

theorem knotRegistry_reachable : Reachable knotRegistry :=
  .step (.registerComponents knot) (.new {} 1) rfl

/-- The right one is constructed with what stands in for the left one, which comes before it. -/
theorem knot_in_order : Reachable knotRegistry ∧
    ∃ y, knotRegistry.standIns[1]? = some y ∧ y.construction.dependencies = [⟨0⟩] ∧
      ∀ d ∈ y.construction.dependencies, d.index < 1 := by
  obtain ⟨y, hy, hreads⟩ : ∃ y, knotRegistry.standIns[1]? = some y ∧
      y.construction.dependencies = [⟨0⟩] :=
    ⟨⟨⟨1⟩, ⟨"app.Right"⟩, .component .plainListener, .constructor [⟨0⟩], "right"⟩,
      by decide +kernel, rfl⟩
  exact ⟨knotRegistry_reachable, y, hy, hreads,
    ((arena_is_allocation_order knotRegistry_reachable).1 1 y hy).2.1⟩

end Registry
end AppDriver
