import AppDriver.Proofs.RegistryGrowth
import AppDriver.StandIn.Android

/-! Handles are stable. An operation that asks for one stand-in asks for it under a key, and once it
has been answered the registry remembers the answer: every later operation with the same key answers
the same and changes nothing. The shared object of a type is the one exception, since the instance of
a component takes its place when the class is registered. -/

namespace AppDriver.Registry

/-- What a registry remembers an answer under. -/
inductive Key where
  | identifier (id : ResourceId)
  | unresolved (type : TypeName)
  | value (type : TypeName)
  | service (name : String)
  | getter (parent : StandInRef) (method : String)
  | component (name : TypeName)
  | ambient (type : TypeName)
deriving DecidableEq, Repr

/-- The key of an operation that asks for a single stand-in. The end of a chain of getters is
remembered under the key of its last getter. -/
def Operation.key? : Operation → Option Key
  | .resolve id _ | .resolveDeclared id _ => some (.identifier id)
  | .unresolved t => some (.unresolved t)
  | .ambient t => some (.ambient t)
  | .systemService name => some (.service name)
  | .value t => some (.value t)
  | .argumentFor t => some (if t.isPlainValue then .value t else .ambient t)
  | .registerComponent c => some (.component c.name)
  | .derived parent step => some (.getter parent step.method)
  | .declare _ | .registerComponents _ | .deriveChain _ _ => none

/-- The answer that a registry remembers. -/
def remembered? (r : Registry) : Key → Option StandInRef
  | .identifier id => r.findViewById? id
  | .unresolved t => r.store.unresolved.lookup t
  | .value t => r.store.values.lookup t
  | .service name => r.store.services.lookup name
  | .getter parent method => r.store.derived.lookup (parent, method)
  | .component name => r.component? name
  | .ambient t =>
    match r.component? t with
    | some x => some x
    | none =>
      match r.lookupAmbient? t with
      | some x => some x
      | none => if t.isPlainValue then r.store.values.lookup t else none

/-! ### A remembered answer -/

section Remembered

variable {r : Registry} {x : StandInRef}

theorem resolve_of_known {id : ResourceId} (hx : r.findViewById? id = some x) (t : TypeName) :
    r.resolve id t = (x, r) := by
  rw [resolve, hx]

theorem resolveDeclared_of_known {id : ResourceId} (hx : r.findViewById? id = some x)
    (fallback : TypeName) : r.resolveDeclared id fallback = (x, r) := by
  rw [resolveDeclared, hx]

theorem unresolved_of_known {t : TypeName} (hx : r.store.unresolved.lookup t = some x) :
    r.unresolved t = (x, r) := by
  rw [unresolved, hx]

theorem value_of_known {t : TypeName} (hx : r.store.values.lookup t = some x) :
    r.value t = (x, r) := by
  rw [value, Store.value, hx]
  rfl

theorem ambient_of_known {t : TypeName} (hx : r.remembered? (.ambient t) = some x) :
    r.ambient t = (x, r) := by
  rw [ambient, Workshop.ambient_eq]
  rw [remembered?, component?, lookupAmbient?] at hx
  cases hcomponent : r.store.component? t with
  | some y =>
      rw [hcomponent] at hx
      cases hx
      rfl
  | none =>
      rw [hcomponent] at hx
      cases hambient : r.store.ambients.lookup t with
      | some y =>
          rw [hambient] at hx
          cases hx
          rfl
      | none =>
          simp only [hambient, Option.ite_none_right_eq_some] at hx
          obtain ⟨hplain, hvalue⟩ := hx
          have hknown := value_of_known hvalue
          rw [value] at hknown
          simpa [hplain] using hknown

theorem argumentFor_of_known {t : TypeName}
    (hx : r.remembered? (if t.isPlainValue then .value t else .ambient t) = some x) :
    r.argumentFor t = (x, r) := by
  rw [argumentFor]
  split at hx <;> rename_i hplain
  · rw [if_pos hplain]
    exact value_of_known hx
  · rw [if_neg hplain]
    exact ambient_of_known hx

theorem systemService_of_known {name : String} (hx : r.store.services.lookup name = some x) :
    r.systemService name = (x, r) := by
  rw [systemService, hx]

theorem registerComponent_of_known {c : Component} (hx : r.component? c.name = some x) :
    r.registerComponent c = (x, r) := by
  rw [component?] at hx
  rw [registerComponent, Workshop.register, hx]
  rfl

theorem derived_of_known {parent : StandInRef} {step : AccessorStep}
    (hx : r.store.derived.lookup (parent, step.method) = some x) :
    r.derived parent step = (x, r) := by
  rw [derived, hx]

/-- What is remembered is answered, and nothing changes. -/
theorem run_of_remembered {op : Operation} {k : Key} (hk : op.key? = some k)
    (hx : r.remembered? k = some x) : op.run r = (.standIn x, r) := by
  cases op with
  | declare | registerComponents | deriveChain => cases hk
  | resolve id t => cases hk; rw [Operation.run, resolve_of_known hx]
  | resolveDeclared id fallback => cases hk; rw [Operation.run, resolveDeclared_of_known hx]
  | unresolved t => cases hk; rw [Operation.run, unresolved_of_known hx]
  | ambient t => cases hk; rw [Operation.run, ambient_of_known hx]
  | systemService name => cases hk; rw [Operation.run, systemService_of_known hx]
  | value t => cases hk; rw [Operation.run, value_of_known hx]
  | argumentFor t => cases hk; rw [Operation.run, argumentFor_of_known hx]
  | registerComponent c => cases hk; rw [Operation.run, registerComponent_of_known hx]
  | derived parent step => cases hk; rw [Operation.run, derived_of_known hx]

end Remembered

/-! ### Every answer is remembered -/

section Answered

variable {r : Registry}

theorem findViewById?_resolve (r : Registry) (id : ResourceId) (t : TypeName) :
    (r.resolve id t).2.findViewById? id = some (r.resolve id t).1 := by
  rw [resolve]
  split
  · assumption
  · split <;> exact List.lookup_cons_self

theorem findViewById?_resolveDeclared (r : Registry) (id : ResourceId) (fallback : TypeName) :
    (r.resolveDeclared id fallback).2.findViewById? id =
      some (r.resolveDeclared id fallback).1 := by
  rw [resolveDeclared]
  split
  · assumption
  · split
    · exact r.findViewById?_resolve id _
    · exact List.lookup_cons_self

theorem lookup_unresolved (r : Registry) (t : TypeName) :
    (r.unresolved t).2.store.unresolved.lookup t = some (r.unresolved t).1 := by
  rw [unresolved]
  split
  · assumption
  · exact List.lookup_cons_self

theorem lookup_systemService (r : Registry) (name : String) :
    (r.systemService name).2.store.services.lookup name = some (r.systemService name).1 := by
  rw [systemService]
  split
  · assumption
  · exact List.lookup_cons_self

theorem lookup_derived (r : Registry) (parent : StandInRef) (step : AccessorStep) :
    (r.derived parent step).2.store.derived.lookup (parent, step.method) =
      some (r.derived parent step).1 := by
  rw [derived]
  split
  · assumption
  · exact List.lookup_cons_self

/-- The shared object of a type is remembered as the instance of the class, as the shared object or
as the value of the type. -/
theorem remembered?_ambient (hr : r.store.Sound) (t : TypeName) :
    (r.ambient t).2.remembered? (.ambient t) = some (r.ambient t).1 := by
  obtain ⟨hruns, -⟩ := (r.workshop.fabrication_obtains []).1 {} t r.store hr
  have hcomponent : (r.ambient t).2.component? t = r.store.component? t := by
    rw [component?, ambient, withStore, Store.component?, hruns.components]
    rfl
  rw [remembered?, hcomponent, lookupAmbient?, ambient, withStore, Workshop.ambient_eq]
  cases hinstance : r.store.component? t with
  | some y => rfl
  | none =>
      cases hambient : r.store.ambients.lookup t with
      | some y => simp [hambient]
      | none =>
          by_cases hplain : t.isPlainValue = true
          · have hsame : (r.store.value r.workshop.arrayLength t).2.ambients = r.store.ambients := by
              rw [Store.value]
              split <;> rfl
            simp [hplain, hsame, hambient, Store.lookup_value]
          · simp [hplain, Store.lookup_settleAmbient]

/-- What is answered under a key is remembered under it. -/
theorem remembered?_run (hr : r.store.Sound) {op : Operation} {k : Key} (hk : op.key? = some k) :
    ∃ x, (op.run r).1 = .standIn x ∧ (op.run r).2.remembered? k = some x := by
  cases op with
  | declare | registerComponents | deriveChain => cases hk
  | resolve id t => cases hk; exact ⟨_, rfl, r.findViewById?_resolve id t⟩
  | resolveDeclared id fallback => cases hk; exact ⟨_, rfl, r.findViewById?_resolveDeclared id _⟩
  | unresolved t => cases hk; exact ⟨_, rfl, r.lookup_unresolved t⟩
  | ambient t => cases hk; exact ⟨_, rfl, remembered?_ambient hr t⟩
  | systemService name => cases hk; exact ⟨_, rfl, r.lookup_systemService name⟩
  | value t => cases hk; exact ⟨_, rfl, r.store.lookup_value _ t⟩
  | argumentFor t =>
      cases hk
      refine ⟨_, rfl, ?_⟩
      rw [Operation.run, argumentFor]
      split
      · exact r.store.lookup_value _ t
      · exact remembered?_ambient hr t
  | registerComponent c =>
      cases hk
      exact ⟨_, rfl, (r.workshop.register_grows [] c hr).2.2⟩
  | derived parent step => cases hk; exact ⟨_, rfl, r.lookup_derived parent step⟩

end Answered

/-! ### Answers over whole runs -/

/-- The shared object of a type stays while no component of this class is registered. -/
theorem Evolves.remembered?_ambient {r late : Registry} (h : r.Evolves late) {t : TypeName}
    {x : StandInRef} (hx : r.remembered? (.ambient t) = some x)
    (hcomponent : late.component? t = r.component? t) :
    late.remembered? (.ambient t) = some x := by
  rw [Registry.remembered?] at hx ⊢
  rw [hcomponent]
  cases hinstance : r.component? t with
  | some y =>
      rw [hinstance] at hx
      exact hx
  | none =>
      rw [hinstance] at hx
      cases hshared : r.lookupAmbient? t with
      | some y =>
          rw [hshared] at hx
          have hlate : late.lookupAmbient? t = some y := h.grows.ambients t y hshared
          simpa only [hlate] using hx
      | none =>
          simp only [hshared, Option.ite_none_right_eq_some] at hx
          obtain ⟨hplain, hvalue⟩ := hx
          have hkept := h.grows.values t x hvalue
          cases hlate : late.lookupAmbient? t with
          | some y =>
              -- An object shared later as one of a plain type is the value of the type.
              have hagree := h.sound.plainAmbients t y (Workshop.mem_of_lookup hlate) hplain
              rw [hkept] at hagree
              exact hagree.symm
          | none => simpa [hplain] using hkept

/-- What is remembered stays remembered. -/
theorem Evolves.remembered? {r late : Registry} (h : r.Evolves late) {k : Key} {x : StandInRef}
    (hx : r.remembered? k = some x)
    (hambient : ∀ t, k = .ambient t → late.component? t = r.component? t) :
    late.remembered? k = some x := by
  cases k with
  | identifier id => exact h.grows.byIdentifier id x hx
  | unresolved t => exact h.grows.unresolved t x hx
  | value t => exact h.grows.values t x hx
  | service name => exact h.grows.services name x hx
  | getter parent method => exact h.grows.derived (parent, method) x hx
  | component name => exact h.grows.component? hx
  | ambient t => exact h.remembered?_ambient hx (hambient t rfl)

theorem Settles.remembered? {r late : Registry} (h : r.Settles late) {k : Key} {x : StandInRef}
    (hx : r.remembered? k = some x) : late.remembered? k = some x :=
  h.toEvolves.remembered? hx fun t _ => h.component? t

/-- **Handle stability.** At any point of any run, an operation with a key answers with a stand-in,
and at every later point every operation with the same key answers the same and leaves the registry
as it is; a resolved identifier is then also found. The shared object of a type is answered until a
component of this class is registered in between, which no other operation does. -/
theorem handle_stable {r : Registry} (hr : Reachable r) {op : Operation}
    (hop : op.isAdmissible r = true) {k : Key} (hk : op.key? = some k) :
    ∃ x, (op.run r).1 = .standIn x ∧ ∀ late, Leads (op.run r).2 late →
      (∀ t, k = .ambient t → late.component? t = (op.run r).2.component? t) →
      (∀ op' : Operation, op'.key? = some k → op'.run late = (.standIn x, late)) ∧
        ∀ id, k = .identifier id → late.findViewById? id = some x := by
  obtain ⟨x, hx, hremembered⟩ := remembered?_run hr.sound hk
  refine ⟨x, hx, fun late hlate hambient => ?_⟩
  have hsound : (op.run r).2.store.Sound := (Reachable.step op hr hop).sound
  have hkept := (hlate.evolves hsound).remembered? hremembered hambient
  refine ⟨fun op' hk' => run_of_remembered hk' hkept, ?_⟩
  rintro id rfl
  exact hkept

/-- The shared view is still the answer after an identifier has been resolved, also where a view is
asked for as an argument. -/
theorem view_stable :
    ∃ x, ((new .android).ambient TypeName.view).1 = x ∧
      (Operation.argumentFor TypeName.view).run
          (((new .android).ambient TypeName.view).2.resolve 7 TypeName.view).2 =
        (.standIn x, (((new .android).ambient TypeName.view).2.resolve 7 TypeName.view).2) := by
  have hplain : TypeName.view.isPlainValue = false := by decide +kernel
  have hkey : (Operation.argumentFor TypeName.view).key? = some (.ambient TypeName.view) := by
    rw [Operation.key?, hplain]
    rfl
  have hnew : Reachable (new .android) := Reachable.new .android 1
  have hshared := (Reachable.step (.ambient TypeName.view) hnew rfl).sound
  obtain ⟨x, hx, hlater⟩ := handle_stable hnew
    (show (Operation.ambient TypeName.view).isAdmissible _ = true from rfl) rfl
  obtain ⟨hsame, -⟩ := hlater _
    (Relation.ReflTransGen.single ⟨.resolve 7 TypeName.view, rfl, rfl⟩)
    fun t _ => (component?_of_run hshared
      (Relation.ReflTransGen.single ⟨.resolve 7 TypeName.view, rfl, rfl⟩)).2
  exact ⟨x, Answer.standIn.inj hx, hsame _ hkey⟩

end AppDriver.Registry
