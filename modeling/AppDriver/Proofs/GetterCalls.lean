import AppDriver.Proofs.FiledRegistries
import AppDriver.Proofs.HandleStability
import AppDriver.Proofs.LabelledStores

/-! Getter calls. A stand-in that a getter returns has the call as its origin, so it is known from
the stand-in which call it answers. It is remembered under this call alone: the operations that do
not follow getters answer with stand-ins of other origins. -/

namespace AppDriver

/-- The getter call that a stand-in of an origin answers, if it answers one. -/
def Origin.call? : Origin → Option (StandInRef × String)
  | .derived parent method => some (parent, method)
  | _ => none

/-- The getter call of a key, if it is that of one. -/
def Registry.Key.call? : Registry.Key → Option (StandInRef × String)
  | .getter parent method => some (parent, method)
  | _ => none

theorem Origin.Answers.call? {origin : Origin} {id : ResourceId} (h : origin.Answers id) :
    origin.call? = none := by
  rcases h with rfl | rfl | ⟨kind, rfl⟩ | rfl <;> rfl

namespace Store

variable {s s' : Store} {x : StandInRef} {call : Option (StandInRef × String)}

/-- The getter call that a stand-in answers, if it answers one. -/
def callAt? (s : Store) (x : StandInRef) : Option (Option (StandInRef × String)) :=
  (s.originAt? x).map (·.call?)

theorem callAt?_of_originAt? {origin : Origin} (h : s.originAt? x = some origin) :
    s.callAt? x = some origin.call? := by
  rw [callAt?, h, Option.map_some]

theorem callAt?_extend (harena : s.arena <+: s'.arena) (h : s.callAt? x = some call) :
    s'.callAt? x = some call := by
  obtain ⟨origin, horigin, rfl⟩ := Option.map_eq_some_iff.1 h
  exact callAt?_of_originAt? (originAt?_extend harena horigin)

/-- Whether the tables of unknown identifiers, of services and of getters keep apart what getters
return: the last of them alone has it, each under its own call. -/
structure Apart (s : Store) : Prop where
  unresolved : ∀ e ∈ s.unresolved, s.callAt? e.2 = some none
  services : ∀ e ∈ s.services, s.callAt? e.2 = some none
  derived : ∀ e ∈ s.derived, s.originAt? e.2 = some (.derived e.1.1 e.1.2)

theorem apart_empty : Apart {} := by
  constructor <;> simp

theorem Apart.keep (h : s.Apart) (harena : s.arena <+: s'.arena)
    (hunresolved : s'.unresolved = s.unresolved) (hservices : s'.services = s.services)
    (hderived : s'.derived = s.derived) : s'.Apart := by
  constructor
  · rw [hunresolved]
    exact fun e he => callAt?_extend harena (h.unresolved e he)
  · rw [hservices]
    exact fun e he => callAt?_extend harena (h.services e he)
  · rw [hderived]
    exact fun e he => originAt?_extend harena (h.derived e he)

theorem Apart.of_runs (h : s.Apart) {n : Nat} {batch : List Component} {busy : List TypeName}
    (hruns : Runs n batch busy s s') : s'.Apart :=
  h.keep hruns.grows.arena hruns.sameLookups.unresolved hruns.sameLookups.services
    hruns.sameLookups.derived

theorem Apart.push (h : s.Apart) (t : TypeName) (origin : Origin) (construction : Construction)
    (hint : String) : (s.push t origin construction hint).2.Apart :=
  h.keep (s.push_arena t origin construction hint) rfl rfl rfl

end Store

namespace Workshop

theorem register_apart (w : Workshop) (batch : List Component) {s : Store} (hs : s.Sound)
    (c : Component) (h : s.Apart) : (w.register batch c s).2.Apart := by
  rw [register]
  split
  · exact h
  · obtain ⟨hruns, -⟩ := (w.fabrication_obtains batch).2.2.1 (Underway.enterClass {} c.name)
      (c.constructorParams.map .ofType) s hs
    exact (h.of_runs hruns).keep (Store.enroll_grows _ c _).arena rfl rfl rfl

end Workshop

namespace Registry

variable {r : Registry} {x : StandInRef}

/-! ### What no getter returns -/

theorem Reachable.callAt?_component (h : Reachable r) {name : TypeName}
    (hx : r.component? name = some x) : r.store.callAt? x = some none := by
  obtain ⟨e, he, rfl⟩ := Option.map_eq_some_iff.1 hx
  obtain ⟨y, hy, -, horigin⟩ := h.orderly.instances e (List.mem_of_find?_eq_some he)
  rw [Store.callAt?, Store.originAt?, hy, Option.map_some, horigin]
  rfl

theorem Reachable.callAt?_value (h : Reachable r) {t : TypeName}
    (hx : r.store.values.lookup t = some x) : r.store.callAt? x = some none :=
  Store.callAt?_of_originAt? (h.orderly.values (t, x) (Workshop.mem_of_lookup hx))

theorem Reachable.callAt?_view (h : Reachable r) {id : ResourceId}
    (hx : r.findViewById? id = some x) : r.store.callAt? x = some none := by
  obtain ⟨origin, horigin, hanswers⟩ := h.orderly.views (id, x) (Workshop.mem_of_lookup hx)
  rw [Store.callAt?_of_originAt? horigin, hanswers.call?]

theorem Reachable.callAt?_shared (h : Reachable r) {t : TypeName}
    (hx : r.remembered? (.ambient t) = some x) : r.store.callAt? x = some none := by
  rw [remembered?] at hx
  cases hinstance : r.component? t with
  | some z =>
      rw [hinstance] at hx
      cases hx
      exact h.callAt?_component hinstance
  | none =>
      rw [hinstance] at hx
      cases hshared : r.lookupAmbient? t with
      | some z =>
          rw [hshared] at hx
          cases hx
          rcases h.labelled.shared (t, x) (Workshop.mem_of_lookup hshared) with hobject | hobject
          · exact Store.callAt?_of_originAt? hobject
          · exact Store.callAt?_of_originAt? hobject
      | none =>
          simp only [hshared, Option.ite_none_right_eq_some] at hx
          exact h.callAt?_value hx.2

/-! ### Operations -/

section Operations

variable (hr : r.store.Sound) (h : r.store.Apart)

include h in
theorem declare_apart (b : IdentifierBinding) : (r.declare b).2.store.Apart := by
  rw [declare]
  split
  · exact h
  · exact { h with }

include hr h in
theorem resolve_apart (id : ResourceId) (t : TypeName) : (r.resolve id t).2.store.Apart := by
  rw [resolve]
  split
  · exact h
  · split
    · exact { h with }
    · obtain ⟨hruns, -⟩ := (r.workshop.fabrication_obtains []).2.1 {} t (.identifier id)
        (((r.store.declared.lookup id).bind (·.name)).getD ("view" ++ toString id)) r.store hr
      exact { h.of_runs hruns with }

include hr h in
theorem resolveDeclared_apart (id : ResourceId) (fallback : TypeName) :
    (r.resolveDeclared id fallback).2.store.Apart := by
  rw [resolveDeclared]
  split
  · exact h
  · split
    · exact resolve_apart hr h id _
    · exact { h.push fallback (.unresolved (some id)) .degenerate ("missing" ++ toString id) with }

include h in
theorem unresolved_apart (t : TypeName) : (r.unresolved t).2.store.Apart := by
  rw [unresolved]
  split
  · exact h
  · have hpush := h.push t (.unresolved none) .degenerate ("unresolved" ++ t.simpleName)
    refine { hpush with unresolved := fun e he => ?_ }
    rcases List.mem_cons.1 he with rfl | hold
    · exact Store.callAt?_of_originAt? (r.store.originAt?_push t (.unresolved none) _ _)
    · exact hpush.unresolved e hold

include hr h in
theorem ambient_apart (t : TypeName) : (r.ambient t).2.store.Apart :=
  h.of_runs ((r.workshop.fabrication_obtains []).1 {} t r.store hr).1

include h in
theorem value_apart (t : TypeName) : (r.value t).2.store.Apart := by
  have hvalue : Store.Effect r.workshop.arrayLength [] [] r.store _ := .value r.store t
  exact h.of_runs hvalue.runs

include h in
/-- A service is the shared object of its type, or one of its own. -/
theorem systemService_apart (hreach : Reachable r) (name : String) :
    (r.systemService name).2.store.Apart := by
  have henter : ∀ made : StandInRef × Registry, made.2.store.Apart →
      made.2.store.callAt? made.1 = some none →
      Store.Apart { made.2.store with services := (name, made.1) :: made.2.store.services } := by
    intro made hmade hnone
    refine { hmade with services := fun e he => ?_ }
    rcases List.mem_cons.1 he with rfl | hold
    · exact hnone
    · exact hmade.services e hold
  rw [systemService]
  split
  · exact h
  · split
    · rename_i t _
      exact henter _ (ambient_apart hreach.sound h t)
        ((hreach.step (.ambient t) rfl).callAt?_shared (remembered?_ambient hreach.sound t))
    · have hpush := h.push TypeName.object .ambient .degenerate ("service_" ++ name)
      exact henter _ { hpush with }
        (Store.callAt?_of_originAt? (r.store.originAt?_push TypeName.object .ambient _ _))

include h in
theorem derived_apart (parent : StandInRef) (step : AccessorStep) :
    (r.derived parent step).2.store.Apart := by
  rw [derived]
  split
  · exact h
  · have hpush := h.push step.returns (.derived parent step.method)
      (.accessor parent step.method) (r.label parent ++ capitalized (getterSubject step.method))
    refine { hpush with derived := fun e he => ?_ }
    rcases List.mem_cons.1 he with rfl | hold
    · exact r.store.originAt?_push step.returns (.derived parent step.method) _ _
    · exact hpush.derived e hold

theorem deriveChain_apart (chain : List AccessorStep) (start : StandInRef) {r : Registry}
    (h : r.store.Apart) : (r.deriveChain start chain).2.store.Apart := by
  induction chain generalizing start r with
  | nil => exact h
  | cons step chain ih => exact ih _ (derived_apart h start step)

end Operations

theorem Reachable.apart (h : Reachable r) : r.store.Apart := by
  induction h with
  | new catalog arrayLength => exact Store.apart_empty
  | @step r op hreach hop ih =>
      have hr := hreach.sound
      cases op with
      | declare b => exact declare_apart ih b
      | resolve id t => exact resolve_apart hr ih id t
      | resolveDeclared id fallback => exact resolveDeclared_apart hr ih id fallback
      | unresolved t => exact unresolved_apart ih t
      | ambient t => exact ambient_apart hr ih t
      | systemService name => exact systemService_apart ih hreach name
      | value t => exact value_apart ih t
      | argumentFor t =>
          rw [Operation.run, argumentFor]
          split
          · exact value_apart ih t
          · exact ambient_apart hr ih t
      | registerComponent c => exact r.workshop.register_apart [] hr c ih
      | registerComponents cs =>
          exact registerComponents_keeps hr (fun c _ hs => r.workshop.register_apart cs hs c) ih
      | derived parent step => exact derived_apart ih parent step
      | deriveChain start chain => exact deriveChain_apart chain start ih

/-- What is remembered under a key answers the getter call of the key, and none if it has none. -/
theorem Reachable.callAt?_remembered (h : Reachable r) {k : Key} (hx : r.remembered? k = some x) :
    r.store.callAt? x = some k.call? := by
  cases k with
  | identifier id => exact h.callAt?_view hx
  | unresolved t => exact h.apart.unresolved (t, x) (Workshop.mem_of_lookup hx)
  | value t => exact h.callAt?_value hx
  | service name => exact h.apart.services (name, x) (Workshop.mem_of_lookup hx)
  | getter parent method =>
      exact Store.callAt?_of_originAt? (h.apart.derived _ (Workshop.mem_of_lookup hx))
  | component name => exact h.callAt?_component hx
  | ambient t => exact h.callAt?_shared hx

/-! ### Answers -/

/-- The stand-ins that an answer names. -/
def Answer.refs : Answer → List StandInRef
  | .agrees _ => []
  | .standIn x => [x]
  | .standIns xs => xs

/-- Whether an operation follows getters. -/
def Operation.followsGetters : Operation → Bool
  | .derived _ _ | .deriveChain _ _ => true
  | _ => false

theorem Operation.isAdmissible_of_not_followsGetters {op : Operation}
    (hop : op.followsGetters = false) (r : Registry) : op.isAdmissible r = true := by
  cases op with
  | derived | deriveChain => cases hop
  | _ => rfl

theorem Operation.call?_of_key? {op : Operation} (hop : op.followsGetters = false) {k : Key}
    (hk : op.key? = some k) : k.call? = none := by
  cases op with
  | derived | deriveChain => cases hop
  | declare | registerComponents => cases hk
  | argumentFor t =>
      cases hk
      split <;> rfl
  | _ =>
      cases hk
      rfl

/-- What is answered without following a getter, no getter returns. -/
theorem Reachable.callAt?_answer (h : Reachable r) {op : Operation}
    (hop : op.followsGetters = false) (hx : x ∈ (op.run r).1.refs) :
    (op.run r).2.store.callAt? x = some none := by
  have hlast : Reachable (op.run r).2 :=
    h.step op (Operation.isAdmissible_of_not_followsGetters hop r)
  cases hk : op.key? with
  | some k =>
      obtain ⟨z, hz, hremembered⟩ := remembered?_run h.sound hk
      rw [hz] at hx
      obtain rfl := List.mem_singleton.1 hx
      rw [hlast.callAt?_remembered hremembered, Operation.call?_of_key? hop hk]
  | none =>
      cases op with
      | declare => cases hx
      | registerComponents cs =>
          obtain ⟨c, -, hc⟩ := forall₂_left (registerComponents_answers h.sound cs).flip hx
          exact hlast.callAt?_component hc
      | deriveChain => cases hop
      | _ => cases hk

end Registry
end AppDriver
