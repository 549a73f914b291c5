import AppDriver.Proofs.ComponentInstances

/-! System services and their types. A service is looked up as the shared object of its type, and
while no component is registered the two stay the same. The services of an app are allocated before
its components, and the instance of a component class is what its type answers with from then on: a
service whose type is such a class is another object than the one of its type. -/

namespace AppDriver

namespace Registry

variable {r : Registry} {name : String} {t : TypeName}

/-! ### Looking up a service -/

theorem remembered?_systemService (hr : r.store.Sound) (hnew : r.store.services.lookup name = none)
    (ht : r.catalog.serviceType? name = some t) :
    (r.systemService name).2.remembered? (.ambient t) = some (r.systemService name).1 := by
  have hshared := remembered?_ambient hr t
  rw [systemService, hnew]
  dsimp only
  rw [ht]
  exact hshared

theorem lookup_systemService_ne (hr : r.store.Sound) {name' : String} (hne : name' ≠ name) :
    (r.systemService name).2.store.services.lookup name' = r.store.services.lookup name' := by
  have hbeq : (name' == name) = false := beq_eq_false_iff_ne.2 hne
  rw [systemService]
  split
  · rfl
  · simp only [withStore, List.lookup_cons, hbeq]
    split
    · rename_i t' _
      obtain ⟨hruns, -⟩ := (r.workshop.fabrication_obtains []).1 {} t' r.store hr
      rw [ambient, withStore, hruns.sameLookups.services]
    · rfl

/-- A registry without components in which every service that has been looked up is the shared
object of its type. -/
structure SharesServices (catalog : FrameworkCatalog) (r : Registry) : Prop where
  sound : r.store.Sound
  catalog_eq : r.catalog = catalog
  components : r.store.components = []
  shared : ∀ name x t, r.store.services.lookup name = some x →
    catalog.serviceType? name = some t → r.remembered? (.ambient t) = some x

variable {catalog : FrameworkCatalog}

/-- Where no service is looked up, the services stay shared. -/
theorem SharesServices.settled (h : r.SharesServices catalog) {r' : Registry}
    (hsettles : r.Settles r') (hservices : r'.store.services = r.store.services) :
    r'.SharesServices catalog where
  sound := hsettles.sound
  catalog_eq := (congrArg Workshop.catalog hsettles.workshop).trans h.catalog_eq
  components := hsettles.components.trans h.components
  shared := by
    intro name x t hx ht
    rw [hservices] at hx
    exact hsettles.remembered? (h.shared name x t hx ht)

theorem SharesServices.systemService (h : r.SharesServices catalog) (name : String) :
    (r.systemService name).2.SharesServices catalog := by
  have hsettles := (systemService_gives h.sound name).toSettles
  refine ⟨hsettles.sound, (congrArg Workshop.catalog hsettles.workshop).trans h.catalog_eq,
    hsettles.components.trans h.components, ?_⟩
  intro name' x t hx ht
  by_cases hname : name' = name
  · subst hname
    cases hknown : r.store.services.lookup name' with
    | some x' =>
        rw [systemService_of_known hknown] at hx ⊢
        exact h.shared name' x t hx ht
    | none =>
        have hrecorded := r.lookup_systemService name'
        rw [hx] at hrecorded
        obtain rfl := Option.some.inj hrecorded
        exact remembered?_systemService h.sound hknown (by rw [h.catalog_eq, ht])
  · rw [lookup_systemService_ne h.sound hname] at hx
    exact hsettles.remembered? (h.shared name' x t hx ht)

/-- In a new registry nothing has been looked up. -/
theorem sharesServices_withBindings (catalog : FrameworkCatalog)
    (bindings : List IdentifierBinding) : (withBindings catalog bindings).SharesServices catalog := by
  refine withBindings_keeps (P := fun r : Registry => r.SharesServices catalog) ?_ ?_
  · intro b _ r hr
    have hservices : (r.declare b).2.store.services = r.store.services := by
      rw [declare]
      split <;> rfl
    exact hr.settled (declare_settles hr.sound b) hservices
  · refine ⟨Store.sound_empty, rfl, rfl, ?_⟩
    intro name x t hx
    cases hx

end Registry

namespace Synthesizer

variable (y : Synthesizer) (d : Facts)

/-- The registry in which the services of a document are allocated, before its components are. -/
def servicesRegistry : Registry :=
  (threadMap (fun name r => r.systemService name) d.services (y.registryFor d.identifiers)).2

theorem servicesRegistry_shares : (y.servicesRegistry d).SharesServices y.catalog := by
  have hnew := Registry.sharesServices_withBindings y.catalog d.identifiers
  have hstart : (y.registryFor d.identifiers).SharesServices y.catalog :=
    ⟨hnew.sound, hnew.catalog_eq, hnew.components, hnew.shared⟩
  exact threadMap_invariant (P := fun r : Registry => r.SharesServices y.catalog)
    (fun name _ hr => hr.systemService name) d.services hstart

variable {d} {name : String}

theorem exists_service (hname : name ∈ d.services) :
    ∃ x, (y.servicesRegistry d).store.services.lookup name = some x := by
  have hanswers := threadMap_answers
    (R := fun r r' : Registry => r.store.Sound → r.Settles r')
    (fun r hr => .refl hr) (fun h h' hr => (h hr).trans (h' (h hr).sound))
    (f := fun name (r : Registry) => r.systemService name)
    (fun name r hr => (Registry.systemService_gives hr name).toSettles)
    d.services (y.registryFor d.identifiers)
  obtain ⟨x, -, r, hr, rfl, hlast⟩ := forall₂_left hanswers hname
  have hsound := (hr (Registry.withBindings_sound y.catalog d.identifiers)).sound
  have hlate := hlast (Registry.systemService_gives hsound name).sound
  exact ⟨_, hlate.grows.services name _ (r.lookup_systemService name)⟩

/-- A class that a document declares is registered, with an instance that is made after the
services. -/
theorem exists_instance {t : TypeName} (ht : ∃ c ∈ d.components, c.name = t) :
    ∃ x, (y.synthesizeFacts d).registry.component? t = some x ∧
      (y.servicesRegistry d).store.arena.length ≤ x.index := by
  obtain ⟨c, hc, rfl⟩ := ht
  obtain ⟨c', hc'⟩ := Option.isSome_iff_exists.1
    (List.find?_isSome.2 ⟨c, hc, beq_self_eq_true c.name⟩ :
      (d.components.find? (·.name == c.name)).isSome = true)
  have hname : c'.name = c.name := by simpa using List.find?_some hc'
  have hdriven : c' ∈ y.driven d.components := y.mem_driven.2 (by rw [hname, hc'])
  obtain ⟨driven, hd, rfl⟩ := (y.mem_driven_iff (y.servicesRegistry d)).1 hdriven
  have hshares := y.servicesRegistry_shares d
  have hinstance : (y.synthesizeFacts d).registry.component? driven.1.name = some driven.2 :=
    component?_of_instance hshares.sound hd
  have horigin : (y.servicesRegistry d).store.arena.length ≤ driven.2.index ∧
      (y.synthesizeFacts d).registry.store.originAt? driven.2 =
        some (.component driven.1.kind) :=
    origin_of_instance hshares.sound hshares.components hd
  rw [hname] at hinstance
  exact ⟨driven.2, hinstance, horigin.1⟩

variable (d) in
theorem servicesRegistry_evolves :
    (y.servicesRegistry d).Evolves (y.synthesizeFacts d).registry := by
  have hsound := (y.servicesRegistry_shares d).sound
  have hregistered := Registry.registerComponents_evolves hsound (y.driven d.components)
  have hsettles : ((y.servicesRegistry d).registerComponents (y.driven d.components)).2.Settles
      (y.synthesizeFacts d).registry := registered_settles hsound
  exact hregistered.trans hsettles.toEvolves

theorem component?_of_undeclared {t : TypeName} (ht : ∀ c ∈ d.components, c.name ≠ t) :
    (y.synthesizeFacts d).registry.component? t = none := by
  have hshares := y.servicesRegistry_shares d
  have hsettles : ((y.servicesRegistry d).registerComponents (y.driven d.components)).2.Settles
      (y.synthesizeFacts d).registry := registered_settles hshares.sound
  rw [hsettles.component?]
  have hnew : (y.servicesRegistry d).component? t = none := by
    rw [Registry.component?, Store.component?, hshares.components]
    rfl
  rcases hfound : ((y.servicesRegistry d).registerComponents (y.driven d.components)).2.component? t
    with _ | x
  · rfl
  · obtain ⟨c, hc, hname, -⟩ :=
      (Registry.registerComponents_enrolls hshares.sound (y.driven d.components)).fresh hnew hfound
    have hmem := List.mem_of_find?_eq_some (y.mem_driven.1 hc)
    exact (ht c hmem hname).elim

/-- **System services.** In the registry of a document, a service that the document looks up and
whose type is known is the shared object of its type exactly if the type is no component class of
the document. -/
theorem service_shared_iff (d : Facts) {name : String} (hname : name ∈ d.services) {t : TypeName}
    (ht : y.catalog.serviceType? name = some t) :
    ((y.synthesizeFacts d).registry.systemService name).1 =
        ((y.synthesizeFacts d).registry.ambient t).1 ↔
      ∀ c ∈ d.components, c.name ≠ t := by
  have hshares := y.servicesRegistry_shares d
  have hevolves := y.servicesRegistry_evolves d
  obtain ⟨x, hx⟩ := y.exists_service hname
  have hservice := Registry.systemService_of_known (hevolves.grows.services name x hx)
  rw [hservice]
  constructor
  · intro hsame c hc hclass
    obtain ⟨made, hinstance, hfresh⟩ := y.exists_instance ⟨c, hc, hclass⟩
    have hambient : (y.synthesizeFacts d).registry.remembered? (.ambient t) = some made := by
      rw [Registry.remembered?, hinstance]
    rw [Registry.ambient_of_known hambient] at hsame
    have hold : x.index < (y.servicesRegistry d).store.arena.length :=
      hshares.sound.services.lookup hx
    have hindex : x.index = made.index := congrArg StandInRef.index hsame
    omega
  · intro hclass
    have hshared := hshares.shared name x t hx ht
    have hkept : (y.synthesizeFacts d).registry.component? t =
        (y.servicesRegistry d).component? t := by
      rw [y.component?_of_undeclared hclass, Registry.component?, Store.component?,
        hshares.components]
      rfl
    rw [Registry.ambient_of_known (hevolves.remembered?_ambient hshared hkept)]

/-- An app that looks up its accounts. -/
def accountFacts : Facts :=
  { components := [{ name := ⟨"app.Main"⟩, kind := .activity }], services := ["account"] }

/-- The accounts that are looked up by name are the ones of their type. -/
theorem accounts_shared :
    "account" ∈ accountFacts.services ∧
      (Synthesizer.catalog {}).serviceType? "account" =
        some ⟨"android.accounts.AccountManager"⟩ ∧
      ((synthesizeFacts {} accountFacts).registry.systemService "account").1 =
        ((synthesizeFacts {} accountFacts).registry.ambient ⟨"android.accounts.AccountManager"⟩).1 := by
  have hname : "account" ∈ accountFacts.services := List.mem_singleton.2 rfl
  have ht : (Synthesizer.catalog {}).serviceType? "account" =
      some ⟨"android.accounts.AccountManager"⟩ := by decide +kernel
  have hclass : ∀ c ∈ accountFacts.components, c.name ≠ ⟨"android.accounts.AccountManager"⟩ := by
    decide +kernel
  exact ⟨hname, ht, (service_shared_iff {} accountFacts hname ht).2 hclass⟩

/-- A configuration with a service whose type is a class of the app. -/
def sessionConfig : HarnessConfig := HarnessConfig.set {} (.service "session" "app.Session")

def sessionSynthesizer : Synthesizer :=
  { config := { source := sessionConfig, fabrication := sessionConfig.fabricationInEffect } }

/-- An app that declares the class of the service and looks the service up. -/
def sessionFacts : Facts :=
  { components := [{ name := ⟨"app.Session"⟩, kind := .plainListener }], services := ["session"] }

/-- The session that is looked up by name is not the one of its type: it was made before the
component, whose instance the type answers with. -/
theorem session_not_shared :
    sessionConfig.build = .ok sessionSynthesizer.config ∧ "session" ∈ sessionFacts.services ∧
      sessionSynthesizer.catalog.serviceType? "session" = some ⟨"app.Session"⟩ ∧
      ((sessionSynthesizer.synthesizeFacts sessionFacts).registry.systemService "session").1 ≠
        ((sessionSynthesizer.synthesizeFacts sessionFacts).registry.ambient ⟨"app.Session"⟩).1 := by
  decide +kernel

end Synthesizer
end AppDriver
