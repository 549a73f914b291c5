import AppDriver.Proofs.FactsRoundTrip
import AppDriver.Proofs.RegisteredViews
import AppDriver.Proofs.ServiceAliases

/-! The table of resolved identifiers. Only a lookup by an identifier enters one, and only where it
has not been entered before, so each has one entry. What synthesis looks up are the identifiers that
are declared, those that callbacks are registered on, and those whose views are declared as
arguments: it resolves no identifier that its document does not mention. -/

namespace AppDriver

namespace Registry

variable {r : Registry} (hr : r.store.Sound)

/-! ### What a lookup enters -/

include hr in
/-- A lookup of an identifier that is not resolved yet enters its answer. -/
theorem resolve_byIdentifier {id : ResourceId} (hnew : r.findViewById? id = none) (t : TypeName) :
    (r.resolve id t).2.store.byIdentifier = (id, (r.resolve id t).1) :: r.store.byIdentifier := by
  rw [resolve, hnew]
  dsimp only
  split
  · rfl
  · obtain ⟨hruns, -⟩ := (r.workshop.fabrication_obtains []).2.1 {} t (.identifier id)
      (((r.store.declared.lookup id).bind (·.name)).getD ("view" ++ toString id)) r.store hr
    exact congrArg (List.cons _) hruns.sameLookups.byIdentifier

include hr in
theorem resolveDeclared_byIdentifier {id : ResourceId} (hnew : r.findViewById? id = none)
    (fallback : TypeName) :
    (r.resolveDeclared id fallback).2.store.byIdentifier =
      (id, (r.resolveDeclared id fallback).1) :: r.store.byIdentifier := by
  rw [resolveDeclared, hnew]
  dsimp only
  split
  · exact resolve_byIdentifier hr hnew _
  · rfl

/-! ### Operations that enter nothing -/

include hr in
theorem ambient_sameLookups (t : TypeName) : r.store.SameLookups (r.ambient t).2.store :=
  ((r.workshop.fabrication_obtains []).1 {} t r.store hr).1.sameLookups

theorem value_sameLookups (r : Registry) (t : TypeName) :
    r.store.SameLookups (r.value t).2.store := by
  have hvalue : Store.Effect r.workshop.arrayLength [] [] r.store _ := .value r.store t
  exact hvalue.runs.sameLookups

theorem unresolved_byIdentifier (r : Registry) (t : TypeName) :
    (r.unresolved t).2.store.byIdentifier = r.store.byIdentifier := by
  rw [unresolved]
  split <;> rfl

theorem declare_byIdentifier (r : Registry) (b : IdentifierBinding) :
    (r.declare b).2.store.byIdentifier = r.store.byIdentifier := by
  rw [declare]
  split <;> rfl

include hr in
/-- A lookup of a service leaves the identifiers, declared and resolved. -/
theorem systemService_identifiers (name : String) :
    (r.systemService name).2.store.declared = r.store.declared ∧
      (r.systemService name).2.store.byIdentifier = r.store.byIdentifier := by
  rw [systemService]
  split
  · exact ⟨rfl, rfl⟩
  · split
    · rename_i t _
      have hsame := ambient_sameLookups hr t
      exact ⟨hsame.declared, hsame.byIdentifier⟩
    · exact ⟨rfl, rfl⟩

theorem deriveChain_byIdentifier (chain : List AccessorStep) (start : StandInRef) (r : Registry) :
    (r.deriveChain start chain).2.store.byIdentifier = r.store.byIdentifier := by
  induction chain generalizing start r with
  | nil => rfl
  | cons step chain ih =>
      refine (ih _ _).trans ?_
      rw [derived]
      split <;> rfl

include hr in
theorem registerComponents_sameLookups (cs : List Component) :
    r.store.SameLookups (r.registerComponents cs).2.store := by
  have hregister : ∀ c s, Store.Sound s → s.SameLookups (r.workshop.register cs c s).2 := by
    intro c s hs
    rw [Workshop.register]
    split
    · exact .refl s
    · obtain ⟨hruns, -⟩ := (r.workshop.fabrication_obtains cs).2.2.1
        (Underway.enterClass {} c.name) (c.constructorParams.map .ofType) s hs
      exact hruns.sameLookups.trans ⟨rfl, rfl, rfl, rfl, rfl⟩
  exact (registerComponents_rel hr .refl .trans fun c _ s hs => hregister c s hs).2

/-! ### Tables with one entry for each identifier -/

/-- Whether only identifiers with a property are resolved, and each of them is entered once. -/
structure ResolvesOnly (P : ResourceId → Prop) (r : Registry) : Prop where
  sound : r.store.Sound
  only : ∀ e ∈ r.store.byIdentifier, P e.1
  once : ∀ e ∈ r.store.byIdentifier, r.findViewById? e.1 = some e.2

variable {P : ResourceId → Prop}

theorem ResolvesOnly.of_found (h : r.ResolvesOnly P) {id : ResourceId} {x : StandInRef}
    (hx : r.findViewById? id = some x) : P id := h.only (id, x) (Workshop.mem_of_lookup hx)

theorem ResolvesOnly.imp (h : r.ResolvesOnly P) {Q : ResourceId → Prop}
    (himp : ∀ id, P id → Q id) : r.ResolvesOnly Q :=
  ⟨h.sound, fun e he => himp e.1 (h.only e he), h.once⟩

theorem ResolvesOnly.keep (h : r.ResolvesOnly P) {r' : Registry} (hr' : r'.store.Sound)
    (htable : r'.store.byIdentifier = r.store.byIdentifier) : r'.ResolvesOnly P where
  sound := hr'
  only := htable ▸ h.only
  once := by
    rw [htable]
    exact fun e he => (congrArg (·.lookup e.1) htable).trans (h.once e he)

theorem ResolvesOnly.resolveDeclared (h : r.ResolvesOnly P) {id : ResourceId} (hid : P id)
    (fallback : TypeName) : (r.resolveDeclared id fallback).2.ResolvesOnly P := by
  cases hknown : r.findViewById? id with
  | some x => rwa [resolveDeclared_of_known hknown]
  | none =>
      have htable := resolveDeclared_byIdentifier h.sound hknown fallback
      refine ⟨(resolveDeclared_gives h.sound id fallback).sound, ?_, ?_⟩
      · rw [htable]
        exact List.forall_mem_cons.2 ⟨hid, h.only⟩
      · rw [htable]
        refine List.forall_mem_cons.2 ⟨r.findViewById?_resolveDeclared id fallback, fun e he => ?_⟩
        rw [findViewById?, htable]
        exact keeps_cons hknown _ e.1 e.2 (h.once e he)

end Registry

/-! ### Arguments -/

/-- The identifier whose view a source of an argument starts from. -/
def ArgumentSource.view? : ArgumentSource → Option ResourceId
  | .identifier id | .accessor id _ => some id
  | .component _ => none

variable {P : ResourceId → Prop}

theorem ArgumentSource.bound_resolvesOnly {r : Registry} (h : r.ResolvesOnly P)
    {source : ArgumentSource} (hview : ∀ id ∈ source.view?, P id) (param : TypeName) :
    (source.bound param r).2.ResolvesOnly P := by
  cases source with
  | identifier id => exact h.resolveDeclared (hview id rfl) param
  | accessor id chain =>
      have hentered := h.resolveDeclared (hview id rfl) TypeName.view
      exact hentered.keep (Registry.deriveChain_settles chain _ hentered.sound).sound
        (Registry.deriveChain_byIdentifier chain _ _)
  | component name =>
      rw [bound]
      split
      · exact h
      · exact h.keep (Registry.ambient_gives h.sound name).sound
          (Registry.ambient_sameLookups h.sound name).byIdentifier

namespace CallbackTarget

/-- Whether the view and the declared sources of a target are of identifiers with a property. -/
structure LooksUpOnly (P : ResourceId → Prop) (t : CallbackTarget) : Prop where
  view : ∀ id ∈ t.view, P id
  sources : ∀ b ∈ t.bindings, ∀ id ∈ b.source.view?, P id

variable {t : CallbackTarget} {s : Progress}

theorem candidatesByType_resolvesOnly (h : s.registry.ResolvesOnly P) (fanout index : Nat)
    (param : TypeName) :
    (t.candidatesByType fanout index param s).2.registry.ResolvesOnly P := by
  rw [candidatesByType]
  split
  · exact h.keep (Registry.value_gives h.sound param).sound
      (s.registry.value_sameLookups param).byIdentifier
  · dsimp only
    split
    · exact h.keep (Registry.ambient_gives h.sound param).sound
        (Registry.ambient_sameLookups h.sound param).byIdentifier
    · split <;> exact h

theorem candidates_resolvesOnly (ht : t.LooksUpOnly P) (h : s.registry.ResolvesOnly P)
    (fanout : Nat) (slot : TypeName × Nat) :
    (t.candidates fanout slot s).2.registry.ResolvesOnly P := by
  rw [candidates]
  dsimp only
  split
  · rename_i b hb
    exact ArgumentSource.bound_resolvesOnly h (ht.sources b (List.mem_of_find?_eq_some hb)) _
  · split
    · exact candidatesByType_resolvesOnly h _ _ _
    · rename_i id hid
      have hview : t.view = some id := by
        rw [viewAt?] at hid
        split at hid
        · exact hid
        · cases hid
      have hentered := h.resolveDeclared (ht.view id hview) slot.1
      split
      · exact hentered
      · exact candidatesByType_resolvesOnly hentered _ _ _

theorem tuples_resolvesOnly (ht : t.LooksUpOnly P) (h : s.registry.ResolvesOnly P)
    (fanout : Nat) : (t.tuples fanout s).2.registry.ResolvesOnly P := by
  rw [tuples_registry]
  exact threadMap_invariant (P := fun s : Progress => s.registry.ResolvesOnly P)
    (fun slot _ h => candidates_resolvesOnly ht h _ slot) _ h

end CallbackTarget

/-! ### Syntheses -/

namespace Synthesizer

section Procedure

variable {y : Synthesizer} {handlers : List HandlerBinding} {components : List Component}
  {registry : Registry} {findings : List Finding}

theorem targets_resolvesOnly {ts : List CallbackTarget} (hts : ∀ t ∈ ts, t.LooksUpOnly P)
    (c : Component) (receiver : StandInRef) {s : Progress} (h : s.registry.ResolvesOnly P) :
    (threadFlatMap (y.calls c receiver) ts s).2.registry.ResolvesOnly P :=
  threadMap_keeps (P := fun s : Progress => s.registry.ResolvesOnly P) (f := y.calls c receiver)
    ts (fun t ht _ h => CallbackTarget.tuples_resolvesOnly (hts t ht) h _) h

/-- Synthesis resolves no other identifiers than those that are declared and those that the targets
of the driven components look up. -/
theorem procedure_resolvesOnly (h : registry.ResolvesOnly P)
    (hdeclared : ∀ e ∈ registry.store.declared, P e.1)
    (htargets : ∀ c ∈ y.driven components, ∀ t ∈ y.scheduled handlers c, t.LooksUpOnly P) :
    (y.procedure components handlers registry findings).registry.ResolvesOnly P := by
  have hsame := Registry.registerComponents_sameLookups h.sound (y.driven components)
  have hregistered := h.keep
    (Registry.registerComponents_evolves h.sound (y.driven components)).sound hsame.byIdentifier
  have hviews := threadMap_keeps (P := fun r : Registry => r.ResolvesOnly P)
    (f := fun id r => r.resolveDeclared id TypeName.view)
    (registry.registerComponents (y.driven components)).2.declaredIdentifiers
    (fun id hid r hr => by
      rw [Registry.declaredIdentifiers, (sorted_perm _ _).mem_iff, hsame.declared] at hid
      obtain ⟨e, he, rfl⟩ := List.mem_map.1 hid
      exact hr.resolveDeclared (hdeclared e he) _)
    hregistered
  have hopening : (y.opening handlers components registry findings).registry.ResolvesOnly P :=
    hviews.keep (Registry.unresolved_gives hviews.sound TypeName.view).sound
      (Registry.unresolved_byIdentifier _ _)
  have hinstance : ∀ d ∈ y.instances components registry, ∀ t ∈ y.scheduled handlers d.1,
      t.LooksUpOnly P := fun d hd => htargets d.1 ((y.mem_driven_iff registry).2 ⟨d, hd, rfl⟩)
  have hordered := threadMap_keeps (P := fun s : Progress => s.registry.ResolvesOnly P)
    (f := y.orderedSection handlers) (y.instances components registry)
    (fun d hd s hs => targets_resolvesOnly (hinstance d hd) d.1 d.2 hs) hopening
  exact threadMap_keeps (P := fun s : Progress => s.registry.ResolvesOnly P)
    (f := fun (e : Reentry) => threadFlatMap (y.calls e.component e.receiver) e.targets)
    ((y.instances components registry).map (y.reentry handlers))
    (fun e he s hs => by
      obtain ⟨d, hd, rfl⟩ := List.mem_map.1 he
      exact targets_resolvesOnly
        (fun t ht => hinstance d hd t (y.mem_scheduled_of_reentry handlers ht)) _ _ hs)
    hordered

end Procedure
end Synthesizer

/-! ### Documents -/

/-- Whether a document mentions an identifier: it declares the identifier or a handler on it, or a
component registers a listener on it or takes an argument from its view. -/
inductive Facts.Mentions (d : Facts) : ResourceId → Prop where
  | declared {b : IdentifierBinding} : b ∈ d.identifiers → d.Mentions b.id
  | handler {b : HandlerBinding} : b ∈ d.handlers → d.Mentions b.identifier
  | listener {c : Component} {l : ListenerImpl} {id : ResourceId} : c ∈ d.components →
    l ∈ c.listeners → id ∈ l.registeredOn → d.Mentions id
  | argument {c : Component} {b : ParamBinding} {id : ResourceId} : c ∈ d.components →
    b ∈ c.declaredBindings → b.source.view? = some id → d.Mentions id

theorem Facts.Representable.mentioned {d : Facts} (h : d.Representable) {id : ResourceId}
    (hid : d.Mentions id) : id < Nat.pow 2 32 := by
  cases hid with
  | declared hb => exact h.identifiers _ hb
  | handler hb => exact h.handlers _ hb
  | listener hc hl hid => exact ((h.components _ hc).1 _ hl).1 id hid
  | @argument c b id hc hb hview =>
      obtain ⟨hlisteners, hbindings⟩ := h.components c hc
      have hsource : b.source.Representable := by
        rcases List.mem_append.1 hb with hb | hb
        · exact (hbindings b hb).2
        · obtain ⟨l, hl, hb⟩ := List.mem_flatMap.1 hb
          exact ((hlisteners l hl).2 b hb).2
      cases hform : b.source with
      | component name =>
          rw [hform] at hview
          cases hview
      | identifier id' | accessor id' chain =>
          rw [hform] at hview hsource
          cases hview
          exact hsource

namespace Registry

theorem mem_declared_withBindings {catalog : FrameworkCatalog} {bindings : List IdentifierBinding}
    {e : ResourceId × DeclaredIdentifier}
    (he : e ∈ (withBindings catalog bindings).store.declared) :
    ∃ b ∈ bindings, b.id = e.1 := by
  refine withBindings_keeps
    (P := fun r : Registry => e ∈ r.store.declared → ∃ b ∈ bindings, b.id = e.1) ?_
    (fun hnew => (List.not_mem_nil hnew).elim) he
  intro b hb r ih he
  rw [declare] at he
  split at he
  · exact ih he
  · rcases List.mem_cons.1 he with rfl | hold
    · exact ⟨b, hb, rfl⟩
    · exact ih hold

theorem byIdentifier_withBindings (catalog : FrameworkCatalog)
    (bindings : List IdentifierBinding) :
    (withBindings catalog bindings).store.byIdentifier = [] :=
  withBindings_keeps (P := fun r : Registry => r.store.byIdentifier = [])
    (fun b _ r hr => (r.declare_byIdentifier b).trans hr) rfl

end Registry

namespace Synthesizer

variable (y : Synthesizer) (d : Facts)

/-- Where its services have been looked up, the identifiers of a document are declared as in the
document, and none is resolved. -/
theorem servicesRegistry_identifiers :
    (y.servicesRegistry d).store.declared =
        (Registry.withBindings y.catalog d.identifiers).store.declared ∧
      (y.servicesRegistry d).store.byIdentifier = [] := by
  have hlookups := threadMap_invariant
    (P := fun r : Registry => r.store.Sound ∧
      r.store.declared = (Registry.withBindings y.catalog d.identifiers).store.declared ∧
      r.store.byIdentifier = [])
    (f := fun name r => r.systemService name)
    (fun name r hr => by
      obtain ⟨hdeclared, hresolved⟩ := Registry.systemService_identifiers hr.1 name
      exact ⟨(Registry.systemService_gives hr.1 name).sound, hdeclared.trans hr.2.1,
        hresolved.trans hr.2.2⟩)
    d.services
    (s := y.registryFor d.identifiers)
    ⟨Registry.withBindings_sound y.catalog d.identifiers, rfl,
      Registry.byIdentifier_withBindings y.catalog d.identifiers⟩
  exact hlookups.2

variable {d}

theorem scheduled_looksUpOnly {c : Component} (hc : c ∈ d.components) {t : CallbackTarget}
    (ht : t ∈ y.scheduled d.handlers c) : t.LooksUpOnly d.Mentions := by
  have hbindings : ∀ b ∈ c.declaredBindings, ∀ id ∈ b.source.view?, d.Mentions id :=
    fun b hb id hid => .argument hc hb hid
  rcases Component.mem_schedule.1 ht with ⟨o, -, rfl⟩ | hcallback
  · refine ⟨fun id hid => (by cases hid), fun b hb => ?_⟩
    exact hbindings b (List.mem_append_left _ (List.mem_filter.1 hb).1)
  · have hdiscovered := Component.discovered_of_mem_callbackTargets hcallback
    refine ⟨fun id hid => ?_,
      fun b hb => hbindings b (Component.bindings_of_discovered hdiscovered hb)⟩
    rcases Component.discovered_cases hdiscovered with
      ⟨l, hl, htarget, -⟩ | ⟨b, hb, -, -, -, hview⟩ | ⟨name, -, -, -, -, hview⟩
    · obtain ⟨m, -, hmem⟩ := List.mem_flatMap.1 htarget
      obtain ⟨view, hview, rfl⟩ := List.mem_map.1 hmem
      obtain rfl : view = some id := hid
      rw [Component.registrations] at hview
      split at hview
      · cases List.mem_singleton.1 hview
      · obtain ⟨id', hid', heq⟩ := List.mem_map.1 hview
        cases heq
        exact .listener hc hl hid'
    · rw [hview] at hid
      cases hid
      exact .handler hb
    · rw [hview] at hid
      cases hid

variable (d)

/-- **Resolved identifiers.** The procedure for a document resolves only identifiers that the
document mentions, and has one stand-in for each. -/
theorem resolved_mentioned : (y.synthesizeFacts d).registry.ResolvesOnly d.Mentions := by
  obtain ⟨hdeclared, hnone⟩ := y.servicesRegistry_identifiers d
  have hstart : (y.servicesRegistry d).ResolvesOnly d.Mentions := by
    refine ⟨(y.servicesRegistry_shares d).sound, ?_, ?_⟩ <;>
      rw [hnone] <;> exact fun e he => by cases he
  refine procedure_resolvesOnly hstart ?_ fun c hc t ht => ?_
  · intro e (he : e ∈ (y.servicesRegistry d).store.declared)
    rw [hdeclared] at he
    obtain ⟨b, hb, hid⟩ := Registry.mem_declared_withBindings he
    exact hid ▸ .declared hb
  · exact y.scheduled_looksUpOnly (List.mem_of_find?_eq_some (y.mem_driven.1 hc)) ht

end Synthesizer
end AppDriver
