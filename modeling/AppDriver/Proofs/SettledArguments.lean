import AppDriver.Driver.Arguments
import AppDriver.Proofs.HandleStability

/-! Arguments are settled. What a declared source or the type of a parameter gives is remembered by
the registry, so the argument tuples of a target are the same at every later state, and making them
again makes no stand-in. -/

namespace AppDriver

open Registry (Settles)

/-! ### Declared sources -/

/-- The end of a chain of getters, as far as it has been followed before. -/
def Registry.follow? (r : Registry) (start : StandInRef) : List AccessorStep → Option StandInRef
  | [] => some start
  | step :: chain =>
    (r.store.derived.lookup (start, step.method)).bind fun next => r.follow? next chain

namespace Registry

theorem follow?_deriveChain (chain : List AccessorStep) (start : StandInRef) {r : Registry}
    (hr : r.store.Sound) :
    (r.deriveChain start chain).2.follow? start chain = some (r.deriveChain start chain).1 := by
  induction chain generalizing start r with
  | nil => rfl
  | cons step chain ih =>
      have hsound := (derived_gives hr start step).sound
      have hkept := (deriveChain_settles chain (r.derived start step).1 hsound).grows.derived
        (start, step.method) _ (r.lookup_derived start step)
      rw [deriveChain, follow?, hkept]
      exact ih _ hsound

theorem deriveChain_of_follow? {chain : List AccessorStep} {start x : StandInRef} {r : Registry}
    (h : r.follow? start chain = some x) : r.deriveChain start chain = (x, r) := by
  induction chain generalizing start with
  | nil =>
      cases h
      rfl
  | cons step chain ih =>
      obtain ⟨next, hnext, hrest⟩ := Option.bind_eq_some_iff.1 h
      rw [deriveChain, derived_of_known hnext]
      exact ih hrest

theorem Evolves.follow? {r late : Registry} (h : r.Evolves late) {chain : List AccessorStep}
    {start x : StandInRef} (hx : r.follow? start chain = some x) :
    late.follow? start chain = some x := by
  induction chain generalizing start with
  | nil => exact hx
  | cons step chain ih =>
      obtain ⟨next, hnext, hrest⟩ := Option.bind_eq_some_iff.1 hx
      rw [Registry.follow?, h.grows.derived _ next hnext]
      exact ih hrest

/-- A view that has been resolved is resolved the same later on, and it is the same stand-in. -/
theorem resolveDeclared_settled {r late : Registry} (hr : r.store.Sound) {id : ResourceId}
    {t : TypeName} (hlate : (r.resolveDeclared id t).2.Settles late) :
    late.resolveDeclared id t = ((r.resolveDeclared id t).1, late) ∧
      late.get? (r.resolveDeclared id t).1 =
        (r.resolveDeclared id t).2.get? (r.resolveDeclared id t).1 := by
  have hfound := hlate.grows.byIdentifier id _ (r.findViewById?_resolveDeclared id t)
  exact ⟨resolveDeclared_of_known hfound t, hlate.grows.get? (resolveDeclared_gives hr id t).has⟩

/-- Whether an identifier denotes no component: its stand-in, if it has one, is none. -/
def DenotesNoComponent (r : Registry) (id : ResourceId) : Prop :=
  ∀ view ∈ r.findViewById? id, ∀ s ∈ r.get? view, s.isComponent = false

instance (r : Registry) (id : ResourceId) : Decidable (r.DenotesNoComponent id) :=
  inferInstanceAs (Decidable (∀ view ∈ r.findViewById? id, ∀ s ∈ r.get? view,
    s.isComponent = false))

end Registry

namespace ArgumentSource

/-- The stand-in that a source denotes in a registry: that of the identifier, the end of the chain of
getters, or the instance of the component class. -/
def denotes? (source : ArgumentSource) (r : Registry) : Option StandInRef :=
  match source with
  | .identifier id => r.findViewById? id
  | .accessor id chain => (r.findViewById? id).bind fun view => r.follow? view chain
  | .component name => r.remembered? (.ambient name)

variable {source : ArgumentSource} {r late : Registry}

theorem bound_settles (hr : r.store.Sound) (source : ArgumentSource) (param : TypeName) :
    r.Settles (source.bound param r).2 := by
  cases source with
  | identifier id => exact (Registry.resolveDeclared_gives hr id param).toSettles
  | accessor id chain =>
      have hview := (Registry.resolveDeclared_gives hr id TypeName.view).toSettles
      exact hview.trans (Registry.deriveChain_settles chain _ hview.sound)
  | component name =>
      rw [bound]
      split
      · exact .refl hr
      · exact (Registry.ambient_gives hr name).toSettles

/-- What a source gives is what it denotes afterwards. -/
theorem denotes?_bound (hr : r.store.Sound) (source : ArgumentSource) (param : TypeName) :
    source.denotes? (source.bound param r).2 = some (source.bound param r).1 := by
  cases source with
  | identifier id => exact r.findViewById?_resolveDeclared id param
  | accessor id chain =>
      have hview := (Registry.resolveDeclared_gives hr id TypeName.view).toSettles
      have hkept := (Registry.deriveChain_settles chain (r.resolveDeclared id TypeName.view).1
        hview.sound).grows.byIdentifier id _ (r.findViewById?_resolveDeclared id TypeName.view)
      rw [denotes?, bound, Registry.findViewById?, hkept]
      exact Registry.follow?_deriveChain chain _ hview.sound
  | component name =>
      rw [bound]
      split
      · rename_i x hx
        rw [denotes?, Registry.remembered?, hx]
      · exact Registry.remembered?_ambient hr name

/-- What a source denotes is what it gives, and nothing changes. -/
theorem bound_of_denotes? {x : StandInRef} (h : source.denotes? r = some x) (param : TypeName) :
    source.bound param r = (x, r) := by
  cases source with
  | identifier id => exact Registry.resolveDeclared_of_known h param
  | accessor id chain =>
      obtain ⟨view, hview, hchain⟩ := Option.bind_eq_some_iff.1 h
      rw [bound, Registry.resolveDeclared_of_known hview]
      exact Registry.deriveChain_of_follow? hchain
  | component name =>
      rw [bound]
      split
      · rename_i y hy
        rw [denotes?, Registry.remembered?, hy] at h
        cases h
        rfl
      · exact Registry.ambient_of_known h

theorem denotes?_settled (hlate : r.Settles late) {x : StandInRef}
    (h : source.denotes? r = some x) : source.denotes? late = some x := by
  cases source with
  | identifier id => exact hlate.grows.byIdentifier id x h
  | accessor id chain =>
      obtain ⟨view, hview, hchain⟩ := Option.bind_eq_some_iff.1 h
      have hkept : late.findViewById? id = some view := hlate.grows.byIdentifier id view hview
      rw [denotes?, hkept]
      exact hlate.toEvolves.follow? hchain
  | component name =>
      have hx : r.remembered? (.ambient name) = some x := h
      exact hlate.remembered? hx

end ArgumentSource

namespace CallbackTarget

variable (t : CallbackTarget) {fanout : Nat} {s late : Progress}

/-! ### Values of one parameter -/

theorem candidatesByType_settles (hs : s.registry.store.Sound) (fanout index : Nat)
    (param : TypeName) :
    s.registry.Settles (t.candidatesByType fanout index param s).2.registry := by
  rw [candidatesByType]
  split
  · exact (Registry.value_gives hs param).toSettles
  · dsimp only
    split
    · exact (Registry.ambient_gives hs param).toSettles
    · split <;> exact .refl hs

/-- A declared source is the only value of its parameter. -/
theorem candidates_of_binding {k : Nat} {b : ParamBinding} (hb : t.bindingAt? k = some b)
    (fanout : Nat) (param : TypeName) (s : Progress) :
    t.candidates fanout (param, k) s =
      ([(b.source.bound param s.registry).1],
        { s with registry := (b.source.bound param s.registry).2 }) := by
  rw [candidates]
  dsimp only
  rw [hb]
  rfl

theorem candidates_settles (hs : s.registry.store.Sound) (fanout : Nat) (slot : TypeName × Nat) :
    s.registry.Settles (t.candidates fanout slot s).2.registry := by
  rw [candidates]
  dsimp only
  split
  · exact ArgumentSource.bound_settles hs _ _
  · split
    · exact t.candidatesByType_settles hs fanout _ _
    · rename_i id _
      have hview := (Registry.resolveDeclared_gives hs id slot.1).toSettles
      split
      · exact hview
      · rename_i c _
        have hreported := t.candidatesByType_settles
          (s := (s.withRegistry (s.registry.resolveDeclared id slot.1)).2.report
            (.componentIdentifier id t.method c.typeName)) hview.sound fanout slot.2 slot.1
        exact hview.trans hreported

theorem candidatesByType_settled (hs : s.registry.store.Sound) {index : Nat} {param : TypeName}
    (hlate : (t.candidatesByType fanout index param s).2.registry.Settles late.registry) :
    (t.candidatesByType fanout index param late).1 =
        (t.candidatesByType fanout index param s).1 ∧
      (t.candidatesByType fanout index param late).2.registry = late.registry := by
  have hcomponents : late.registry.assignableTo param = s.registry.assignableTo param := by
    rw [Registry.assignableTo, Registry.assignableTo, hlate.components,
      (t.candidatesByType_settles hs fanout index param).components]
  revert hlate
  rw [candidatesByType, candidatesByType, hcomponents]
  split
  · intro hlate
    have hkept := hlate.grows.values param _ (s.registry.store.lookup_value _ param)
    rw [Registry.value_of_known hkept]
    exact ⟨rfl, rfl⟩
  · dsimp only
    split
    · intro hlate
      have hkept := hlate.remembered? (Registry.remembered?_ambient hs param)
      rw [Registry.ambient_of_known hkept]
      exact ⟨rfl, rfl⟩
    · intro _
      split <;> exact ⟨rfl, rfl⟩

/-- The values of a parameter are the same at every later state. A view that is a component stays
one, since stand-ins are never changed. -/
theorem candidates_settled (hs : s.registry.store.Sound) {slot : TypeName × Nat}
    (hlate : (t.candidates fanout slot s).2.registry.Settles late.registry) :
    (t.candidates fanout slot late).1 = (t.candidates fanout slot s).1 ∧
      (t.candidates fanout slot late).2.registry = late.registry := by
  revert hlate
  rw [candidates, candidates]
  dsimp only
  cases hbinding : t.bindingAt? slot.2 with
  | some b =>
      intro hlate
      have hkept := ArgumentSource.denotes?_settled hlate
        (ArgumentSource.denotes?_bound hs b.source slot.1)
      dsimp only
      rw [ArgumentSource.bound_of_denotes? hkept]
      exact ⟨rfl, rfl⟩
  | none =>
      cases hview : t.viewAt? slot.2 with
      | none => exact fun hlate => t.candidatesByType_settled hs hlate
      | some id =>
          -- Whether the view is a component decides what else is asked for.
          have hmade := Registry.resolveDeclared_gives hs id slot.1
          dsimp only [Progress.withRegistry]
          cases hkind : ((s.registry.resolveDeclared id slot.1).2.get?
              (s.registry.resolveDeclared id slot.1).1).filter (·.isComponent) with
          | none =>
              intro hlate
              obtain ⟨hsame, hget⟩ := Registry.resolveDeclared_settled hs hlate
              rw [hsame]
              dsimp only
              rw [hget, hkind]
              exact ⟨rfl, rfl⟩
          | some c =>
              intro hlate
              have hreported := t.candidatesByType_settles
                (s := (s.withRegistry (s.registry.resolveDeclared id slot.1)).2.report
                  (.componentIdentifier id t.method c.typeName)) hmade.sound fanout slot.2 slot.1
              obtain ⟨hsame, hget⟩ := Registry.resolveDeclared_settled hs (hreported.trans hlate)
              rw [hsame]
              dsimp only
              rw [hget, hkind]
              exact t.candidatesByType_settled hmade.sound hlate

/-! ### Argument tuples -/

/-- The values of all parameters, and the state that making them leaves. -/
def slotValues (fanout : Nat) (s : Progress) : List (List StandInRef) × Progress :=
  threadMap (t.candidates (max fanout 1)) t.method.params.zipIdx s

/-- The registry of a later state is reached without registering a component. -/
def Later (s late : Progress) : Prop :=
  s.registry.store.Sound → s.registry.Settles late.registry

theorem Later.refl (s : Progress) : Later s s := fun hs => .refl hs

theorem Later.trans {a b c : Progress} (h : Later a b) (h' : Later b c) : Later a c :=
  fun ha => (h ha).trans (h' (h ha).sound)

theorem slotValues_later (fanout : Nat) (s : Progress) : Later s (t.slotValues fanout s).2 :=
  threadMap_rel Later.refl Later.trans _ (fun slot _ _ ha => t.candidates_settles ha _ slot) s

theorem tuples_registry (fanout : Nat) (s : Progress) :
    (t.tuples fanout s).2.registry = (t.slotValues fanout s).2.registry := by
  rw [tuples]
  dsimp only
  split <;> rfl

theorem tuples_later (fanout : Nat) (s : Progress) : Later s (t.tuples fanout s).2 := by
  intro hs
  rw [tuples_registry]
  exact t.slotValues_later fanout s hs

/-- The values of each parameter are made at a state in between. -/
theorem slotValues_answers (fanout : Nat) (s : Progress) :
    List.Forall₂ (fun slot values => ∃ u, Later s u ∧
        values = (t.candidates (max fanout 1) slot u).1 ∧
        Later (t.candidates (max fanout 1) slot u).2 (t.slotValues fanout s).2)
      t.method.params.zipIdx (t.slotValues fanout s).1 :=
  threadMap_answers Later.refl Later.trans (fun slot _ ha => t.candidates_settles ha _ slot) _ s

/-- The argument tuples of a target are the same at every later state, and making them again makes no
stand-in. -/
theorem tuples_settled (hs : s.registry.store.Sound)
    (hlate : (t.tuples fanout s).2.registry.Settles late.registry) :
    (t.tuples fanout late).1 = (t.tuples fanout s).1 ∧
      (t.tuples fanout late).2.registry = late.registry := by
  rw [tuples_registry] at hlate
  have hsteps : List.Forall₂ (fun slot values => ∀ a : Progress, a.registry = late.registry →
      (t.candidates (max fanout 1) slot a).1 = values ∧
        (t.candidates (max fanout 1) slot a).2.registry = late.registry)
      t.method.params.zipIdx (t.slotValues fanout s).1 := by
    refine (t.slotValues_answers fanout s).imp fun slot values h a ha => ?_
    obtain ⟨u, hu, rfl, hlast⟩ := h
    have hsound := (hu hs).sound
    rw [← ha] at hlate ⊢
    exact t.candidates_settled hsound
      ((hlast (t.candidates_settles hsound _ slot).sound).trans hlate)
  obtain ⟨hvalues, hregistry⟩ := threadMap_settled hsteps (s := late) rfl
  refine ⟨?_, (t.tuples_registry fanout late).trans hregistry⟩
  rw [tuples, tuples]
  dsimp only
  rw [hvalues]
  rfl

/-- Every tuple over the given values extends one that was there by a value of each parameter. -/
theorem mem_product {fanout : Nat} {slots : List (TypeName × List StandInRef)}
    {tuples : List (List ArgBinding) × Bool} {args : List ArgBinding}
    (hargs : args ∈ (product fanout slots tuples).1) :
    ∃ first ∈ tuples.1, ∃ rest, args = first ++ rest ∧
      List.Forall₂ (fun slot arg => arg.param = slot.1 ∧ arg.value ∈ slot.2) slots rest := by
  induction slots generalizing tuples with
  | nil => exact ⟨args, hargs, [], (List.append_nil args).symm, .nil⟩
  | cons slot slots ih =>
      obtain ⟨param, values⟩ := slot
      obtain ⟨firsts, cut⟩ := tuples
      rw [product] at hargs
      obtain ⟨longer, hlonger, rest, rfl, hrest⟩ := ih hargs
      obtain ⟨first, hfirst, hvalue⟩ := List.mem_flatMap.1 (List.mem_of_mem_take hlonger)
      obtain ⟨value, hmem, rfl⟩ := List.mem_map.1 hvalue
      refine ⟨first, hfirst, ⟨param, value⟩ :: rest, ?_, .cons ⟨rfl, hmem⟩ hrest⟩
      rw [List.append_assoc]
      rfl

/-- A tuple has one argument for each parameter: of its type, and with one of its values. -/
theorem slots_of_mem_tuples {args : List ArgBinding} (hargs : args ∈ (t.tuples fanout s).1) :
    List.Forall₂ (fun slot arg => arg.param = slot.1 ∧ arg.value ∈ slot.2)
      (t.method.params.zip (t.slotValues fanout s).1) args := by
  obtain ⟨first, hfirst, rest, rfl, hrest⟩ := mem_product hargs
  obtain rfl := List.mem_singleton.1 hfirst
  exact hrest

/-- The argument of a parameter in a tuple is one of the values that are made for the parameter at
some state, from which the state that the tuples leave is settled. -/
theorem exists_candidate (hs : s.registry.store.Sound) {args : List ArgBinding}
    (hargs : args ∈ (t.tuples fanout s).1) {k : Nat} {param : TypeName}
    (hparam : t.method.params[k]? = some param) :
    ∃ arg u, args[k]? = some arg ∧ arg.param = param ∧ u.registry.store.Sound ∧
      arg.value ∈ (t.candidates (max fanout 1) (param, k) u).1 ∧
      (t.candidates (max fanout 1) (param, k) u).2.registry.Settles
        (t.tuples fanout s).2.registry := by
  have hslot : t.method.params.zipIdx[k]? = some (param, k) := by
    rw [List.getElem?_zipIdx, hparam]
    simp
  obtain ⟨values, hvalues, u, hu, rfl, hlast⟩ :=
    forall₂_getElem? (t.slotValues_answers fanout s) hslot
  have hpair : (t.method.params.zip (t.slotValues fanout s).1)[k]? =
      some (param, (t.candidates (max fanout 1) (param, k) u).1) :=
    List.getElem?_zip_eq_some.2 ⟨hparam, hvalues⟩
  obtain ⟨arg, harg, htype, hmem⟩ := forall₂_getElem? (t.slots_of_mem_tuples hargs) hpair
  have hsound := (hu hs).sound
  refine ⟨arg, u, harg, htype, hsound, hmem, ?_⟩
  rw [tuples_registry]
  exact hlast (t.candidates_settles hsound _ _).sound

/-- The declared source of a parameter gives its argument in every tuple. -/
theorem declared_value (hs : s.registry.store.Sound) {k : Nat} (hk : k < t.method.arity)
    {b : ParamBinding} (hb : t.bindingAt? k = some b) {args : List ArgBinding}
    (hargs : args ∈ (t.tuples fanout s).1)
    (hlate : (t.tuples fanout s).2.registry.Settles late.registry) :
    ∃ arg, args[k]? = some arg ∧ b.source.denotes? late.registry = some arg.value := by
  obtain ⟨arg, u, harg, -, hsound, hmem, hsettled⟩ :=
    t.exists_candidate hs hargs (List.getElem?_eq_getElem hk)
  refine ⟨arg, harg, ArgumentSource.denotes?_settled (hsettled.trans hlate) ?_⟩
  rw [candidates_of_binding t hb] at hmem ⊢
  rw [List.mem_singleton.1 hmem]
  exact ArgumentSource.denotes?_bound hsound b.source _

/-- The view identifier of a parameter without a declared source is resolved first. If it denotes no
component, its stand-in is the only value of the parameter. -/
theorem candidates_of_view (hs : s.registry.store.Sound) {k : Nat} (hb : t.bindingAt? k = none)
    {id : ResourceId} (hid : t.viewAt? k = some id) (fanout : Nat) (param : TypeName) :
    (s.registry.resolveDeclared id param).2.Settles (t.candidates fanout (param, k) s).2.registry ∧
      ((∀ c, (s.registry.resolveDeclared id param).2.get? (s.registry.resolveDeclared id param).1 =
          some c → c.isComponent = false) →
        (t.candidates fanout (param, k) s).1 = [(s.registry.resolveDeclared id param).1]) := by
  have hview := (Registry.resolveDeclared_gives hs id param).toSettles
  rw [candidates]
  dsimp only
  rw [hb, hid]
  dsimp only [Progress.withRegistry]
  cases hkind : ((s.registry.resolveDeclared id param).2.get?
      (s.registry.resolveDeclared id param).1).filter (·.isComponent) with
  | none => exact ⟨.refl hview.sound, fun _ => rfl⟩
  | some c =>
      have hreported := t.candidatesByType_settles
        (s := (s.withRegistry (s.registry.resolveDeclared id param)).2.report
          (.componentIdentifier id t.method c.typeName)) hview.sound fanout k param
      refine ⟨hreported, fun hnot => ?_⟩
      obtain ⟨hget, hcomponent⟩ := Option.filter_eq_some_iff.1 hkind
      rw [hnot c hget] at hcomponent
      cases hcomponent

/-- The view parameter is passed the stand-in of the target's identifier in every tuple, unless the
identifier denotes a component or the parameter has a declared source. -/
theorem view_value (hs : s.registry.store.Sound) {k : Nat} {param : TypeName}
    (hparam : t.method.params[k]? = some param) (hb : t.bindingAt? k = none) {id : ResourceId}
    (hid : t.viewAt? k = some id) {args : List ArgBinding} (hargs : args ∈ (t.tuples fanout s).1)
    (hlate : (t.tuples fanout s).2.registry.Settles late.registry)
    (hview : late.registry.DenotesNoComponent id) :
    ∃ arg, args[k]? = some arg ∧ arg.param = param ∧
      late.registry.findViewById? id = some arg.value := by
  obtain ⟨arg, u, harg, htype, hsound, hmem, hsettled⟩ := t.exists_candidate hs hargs hparam
  obtain ⟨hresolved, honly⟩ := t.candidates_of_view hsound hb hid (max fanout 1) param
  have hfinal := (hresolved.trans hsettled).trans hlate
  have hfound : late.registry.findViewById? id = some (u.registry.resolveDeclared id param).1 :=
    hfinal.grows.byIdentifier id _ (u.registry.findViewById?_resolveDeclared id param)
  obtain ⟨-, hget⟩ := Registry.resolveDeclared_settled hsound hfinal
  rw [honly fun c hc => hview _ hfound c (hget.trans hc), List.mem_singleton] at hmem
  exact ⟨arg, harg, htype, hmem ▸ hfound⟩

end CallbackTarget
end AppDriver
