import AppDriver.Proofs.HandleStability
import AppDriver.Proofs.SharedObjects

/-! Substituted types. Where the recipe of a type substitutes a more specific one that is made on its
own, the object made for the type becomes the shared one of both. An object that is shared for the
more specific type before is not taken for the other one, though: whether the two are the same is
decided when they are first asked for, and never changes. -/

namespace AppDriver

/-- Whether a parameter is made without a shared object. -/
def ParamSource.standsAlone : ParamSource → Bool
  | .context | .ambient _ => false
  | .degenerate _ | .value _ => true

/-- Whether a recipe makes its object without a shared one. -/
def Recipe.standsAlone : Recipe → Bool
  | .constructor params | .staticFactory _ _ params => params.all (·.standsAlone)
  | .staticField _ _ => true
  | .substitute _ | .unfabricable => false

/-! ### Making an object on its own -/

namespace Workshop

variable (w : Workshop) (batch : List Component)

theorem materialize_ambients {params : List ParamSource}
    (h : params.all (·.standsAlone) = true) (u : Underway) (s : Store) :
    (w.materialize batch u params s).2.ambients = s.ambients := by
  induction params generalizing s with
  | nil => rw [materialize]
  | cons p params ih =>
      rw [List.all_cons, Bool.and_eq_true] at h
      rw [materialize]
      dsimp only
      rw [ih h.2]
      cases p with
      | context | ambient => cases h.1
      | degenerate t =>
          rw [supply]
          exact (s.typedNull_untouched t).1
      | value t =>
          rw [supply]
          exact (s.value_untouched _ t).1

/-- What is made on its own shares nothing on the way. -/
theorem fabricate_ambients {c : TypeName} {recipe : Recipe}
    (hrecipe : w.catalog.recipeFor c = some recipe) (h : recipe.standsAlone = true) (u : Underway)
    (origin : Origin) (hint : String) (s : Store) :
    (w.fabricate batch u c origin hint s).2.ambients = s.ambients := by
  have hcompleted : ∀ params construction, params.all (·.standsAlone) = true →
      ((w.materialize batch (u.enterType c) params s).2.complete c origin construction
        hint).2.ambients = s.ambients := by
    intro params construction halone
    rw [Store.complete_ambients, w.materialize_ambients batch halone]
  rw [fabricate_eq]
  split
  · exact (s.value_untouched _ c).1
  · split
    · rfl
    · rw [hrecipe]
      cases recipe with
      | constructor params => exact hcompleted params _ h
      | staticFactory owner method params => exact hcompleted params _ h
      | staticField => rfl
      | substitute | unfabricable => cases h

end Workshop

namespace Store

variable {s : Store} {t c : TypeName} {x : StandInRef}

/-- What is settled for a type that had no object is shared for this type, and for its own one unless
that has an object then. -/
theorem settleAmbient_of_new (ht : s.ambients.lookup t = none) (htype : s.typeAt? x = some c) :
    (s.settleAmbient t x).1 = x ∧ (s.settleAmbient t x).2.ambients =
      match ((t, x) :: s.ambients).lookup c with
      | some _ => (t, x) :: s.ambients
      | none => (c, x) :: (t, x) :: s.ambients := by
  have hown : (get? { s with ambients := (t, x) :: s.ambients } x).map
      (fun y : StandIn => y.typeName) = some c := htype
  rw [settleAmbient, ht]
  dsimp only
  rw [hown]
  dsimp only
  cases ((t, x) :: s.ambients).lookup c <;> exact ⟨rfl, rfl⟩

theorem settleAmbient_both (ht : s.ambients.lookup t = none) (hc : s.ambients.lookup c = none)
    (htype : s.typeAt? x = some c) :
    (s.settleAmbient t x).1 = x ∧ (s.settleAmbient t x).2.ambients.lookup c = some x := by
  obtain ⟨hsame, hambients⟩ := settleAmbient_of_new ht htype
  refine ⟨hsame, ?_⟩
  rw [hambients]
  by_cases hown : c = t
  · subst hown
    rw [List.lookup_cons_self]
    exact List.lookup_cons_self
  · rw [List.lookup_cons, beq_eq_false_iff_ne.2 hown, hc]
    exact List.lookup_cons_self

/-- An object that is settled for its own type is settled for no other one. -/
theorem settleAmbient_own (hc : s.ambients.lookup c = none) (htype : s.typeAt? x = some c)
    (hne : t ≠ c) : (s.settleAmbient c x).2.ambients.lookup t = s.ambients.lookup t := by
  rw [(settleAmbient_of_new hc htype).2, List.lookup_cons_self]
  dsimp only
  rw [List.lookup_cons, beq_eq_false_iff_ne.2 hne]

end Store

namespace Registry

variable {r late : Registry} {t c : TypeName} {x : StandInRef}

/-! ### Shared objects of types that are no components -/

theorem Evolves.component?_none (h : r.Evolves late) (hnone : late.component? t = none) :
    r.component? t = none := by
  cases hfound : r.component? t with
  | none => rfl
  | some y =>
      have hkept : late.component? t = some y := h.grows.component? hfound
      rw [hnone] at hkept
      cases hkept

theorem ambient_of_lookup (hnone : r.component? t = none) (hx : r.lookupAmbient? t = some x) :
    r.ambient t = (x, r) := by
  apply ambient_of_known
  rw [remembered?, hnone]
  dsimp only
  rw [hx]

theorem lookupAmbient?_ambient (hr : r.store.Sound) (hnone : r.component? t = none)
    (hplain : t.isPlainValue = false) :
    (r.ambient t).2.lookupAmbient? t = some (r.ambient t).1 := by
  have hremembered := remembered?_ambient hr t
  rw [remembered?, (ambient_gives hr t).toSettles.component?, hnone] at hremembered
  dsimp only at hremembered
  cases hfound : (r.ambient t).2.lookupAmbient? t with
  | some y =>
      rw [hfound] at hremembered
      exact hremembered
  | none =>
      rw [hfound, hplain] at hremembered
      cases hremembered

theorem typeAt?_ambient_plain (hr : r.store.Sound) (hnone : r.component? t = none)
    (hplain : t.isPlainValue = true) :
    (r.ambient t).2.store.typeAt? (r.ambient t).1 = some t := by
  have hgives := ambient_gives hr t
  have hremembered := remembered?_ambient hr t
  rw [remembered?, hgives.toSettles.component?, hnone] at hremembered
  dsimp only at hremembered
  have hvalue : (r.ambient t).2.store.values.lookup t = some (r.ambient t).1 := by
    cases hfound : (r.ambient t).2.lookupAmbient? t with
    | some y =>
        rw [hfound] at hremembered
        obtain rfl := Option.some.inj hremembered
        exact hgives.sound.plainAmbients t _ (Workshop.mem_of_lookup hfound) hplain
    | none =>
        rw [hfound, hplain] at hremembered
        exact hremembered
  exact hgives.sound.values t _ (Workshop.mem_of_lookup hvalue)

theorem Reachable.typeAt?_of_lookup (hr : Reachable r)
    (hown : ∀ c', r.catalog.recipeFor c ≠ some (.substitute c'))
    (hx : r.lookupAmbient? c = some x) : r.store.typeAt? x = some c := by
  rcases hr.tidy.typed _ (Workshop.mem_of_lookup hx) with ⟨c', hc'⟩ | htype
  · exact (hown c' hc').elim
  · exact htype

/-- An object that was there is not what a type is shared as later, unless it is so already or is a
plain value. -/
theorem not_has_of_gained (hgains : r.store.Gains late.store)
    (hnone : r.lookupAmbient? t = none) (hx : late.lookupAmbient? t = some x)
    (htype : late.store.typeAt? x = some c) (hplain : c.isPlainValue = false) :
    ¬r.store.Has x := by
  intro hhas
  rcases hgains.ambients _ (Workshop.mem_of_lookup hx) with hold | hnew
  · have hne := List.lookup_eq_none_iff.1 hnone _ hold
    simp at hne
  · exact hnew.ne hhas htype hplain rfl

/-! ### The first request -/

theorem ambient_of_new (hnone : r.component? t = none) (hnew : r.lookupAmbient? t = none)
    (hplain : t.isPlainValue = false) :
    r.ambient t = r.withStore
      ((r.workshop.fabricate [] {} t .ambient ("ambient" ++ t.simpleName) r.store).2.settleAmbient t
        (r.workshop.fabricate [] {} t .ambient ("ambient" ++ t.simpleName) r.store).1) := by
  have hcomponent : r.store.component? t = none := hnone
  have hlookup : r.store.ambients.lookup t = none := hnew
  rw [ambient, Workshop.ambient_eq, hcomponent]
  simp [hlookup, hplain]

section Substituted

variable {own : Recipe} (hown : r.catalog.recipeFor c = some own)
  (halone : own.standsAlone = true)

include hown halone in
theorem not_substituted (c' : TypeName) : r.catalog.recipeFor c ≠ some (.substitute c') := by
  intro hsub
  rw [hown] at hsub
  cases hsub
  cases halone

include hown halone in
theorem typeAt?_fabricate (hr : r.store.Sound) (u : Underway) (origin : Origin) (hint : String) :
    (r.workshop.fabricate [] u c origin hint r.store).2.typeAt?
      (r.workshop.fabricate [] u c origin hint r.store).1 = some c := by
  rcases r.workshop.fabricate_typeAt? [] hr u c origin hint with ⟨c', hc'⟩ | htype
  · exact (not_substituted hown halone c' hc').elim
  · exact htype

variable (hr : r.store.Sound) (hsub : r.catalog.recipeFor t = some (.substitute c))

include hown halone hr hsub in
/-- Where neither type has a shared object, the one that is made for the substituted type becomes the
shared object of both. -/
theorem lookupAmbient?_concrete (hnone : r.component? t = none) (hplain : t.isPlainValue = false)
    (ht : r.lookupAmbient? t = none) (hc : r.lookupAmbient? c = none) :
    (r.ambient t).2.lookupAmbient? c = some (r.ambient t).1 := by
  let inner := r.workshop.fabricate [] (Underway.enterType {} t) c .ambient
    ("ambient" ++ t.simpleName) r.store
  have hmade : r.workshop.fabricate [] {} t .ambient ("ambient" ++ t.simpleName) r.store =
      (inner.1, inner.2.forgetCycle t) := by
    have hrecipe : r.workshop.catalog.recipeFor t = some (.substitute c) := hsub
    rw [Workshop.fabricate_eq, hrecipe]
    simp [hplain, inner]
  have hambients : (inner.2.forgetCycle t).ambients = r.store.ambients :=
    r.workshop.fabricate_ambients [] hown halone (Underway.enterType {} t) .ambient _ r.store
  have htype : (inner.2.forgetCycle t).typeAt? inner.1 = some c :=
    typeAt?_fabricate hown halone hr (Underway.enterType {} t) .ambient _
  obtain ⟨hsame, hboth⟩ := Store.settleAmbient_both (t := t) (by rw [hambients]; exact ht)
    (by rw [hambients]; exact hc) htype
  rw [ambient_of_new hnone ht hplain, hmade, lookupAmbient?, withStore]
  dsimp only
  rw [hboth, hsame]

include hown halone hr in
/-- The object that is made for the concrete type becomes the shared object of no other type. -/
theorem lookupAmbient?_ambient_ne (hnone : r.component? c = none) (hplain : c.isPlainValue = false)
    (hc : r.lookupAmbient? c = none) (hne : t ≠ c) :
    (r.ambient c).2.lookupAmbient? t = r.lookupAmbient? t := by
  have hambients := r.workshop.fabricate_ambients [] hown halone {} .ambient
    ("ambient" ++ c.simpleName) r.store
  have htype := typeAt?_fabricate hown halone hr {} .ambient ("ambient" ++ c.simpleName)
  rw [ambient_of_new hnone hc hplain, lookupAmbient?, withStore]
  dsimp only
  rw [Store.settleAmbient_own (by rw [hambients]; exact hc) htype hne, hambients]
  rfl

end Substituted

/-- If two types share one object of a later registry, they shared it before or none was shared for
either of them. -/
theorem both_or_neither (hlate : r.Evolves late) (hgains : r.store.Gains late.store)
    (hr : r.store.Sound) (ht : late.lookupAmbient? t = some x)
    (hc : late.lookupAmbient? c = some x) (htype : late.store.typeAt? x = some c)
    (hplain : c.isPlainValue = false) :
    (r.lookupAmbient? t = some x ∧ r.lookupAmbient? c = some x) ∨
      (r.lookupAmbient? t = none ∧ r.lookupAmbient? c = none) := by
  have hkept : ∀ {k : TypeName} {z : StandInRef}, r.lookupAmbient? k = some z →
      late.lookupAmbient? k = some x → z = x := by
    intro k z hz hx
    have hlater : late.lookupAmbient? k = some z := hlate.grows.ambients k z hz
    rw [hlater] at hx
    exact Option.some.inj hx
  cases hold : r.lookupAmbient? t with
  | some z =>
      obtain rfl := hkept hold ht
      have hhas : r.store.Has z := hr.ambients.lookup hold
      cases hold' : r.lookupAmbient? c with
      | some z' =>
          obtain rfl := hkept hold' hc
          exact Or.inl ⟨rfl, rfl⟩
      | none => exact (not_has_of_gained hgains hold' hc htype hplain hhas).elim
  | none =>
      cases hold' : r.lookupAmbient? c with
      | some z =>
          obtain rfl := hkept hold' hc
          have hhas : r.store.Has z := hr.ambients.lookup hold'
          exact (not_has_of_gained hgains hold ht htype hplain hhas).elim
      | none => exact Or.inr ⟨rfl, rfl⟩

/-! ### Both requests -/

theorem leads_ambient (r : Registry) (t : TypeName) : Leads r (r.ambient t).2 :=
  Relation.ReflTransGen.single ⟨.ambient t, rfl, rfl⟩

theorem Evolves.lookupAmbient? (h : r.Evolves late) (hx : r.lookupAmbient? t = some x) :
    late.lookupAmbient? t = some x := h.grows.ambients t x hx

/-- The shared object of one type is asked for in `r` and that of another type in `late`, with a run
in between. -/
structure Requests (r late : Registry) (first second : TypeName) : Prop where
  reached : Reachable late
  last : Reachable (late.ambient second).2
  between : r.Evolves late
  kept : (r.ambient first).2.Evolves (late.ambient second).2
  evolves : r.Evolves (late.ambient second).2
  gained : (r.ambient first).2.store.Gains (late.ambient second).2.store
  gains : r.store.Gains (late.ambient second).2.store

theorem requests {first second : TypeName} (hr : Reachable r)
    (hlead : Leads (r.ambient first).2 late) : Requests r late first second := by
  have hfirst : Reachable (r.ambient first).2 := hr.step (.ambient first) rfl
  have hmade : r.Evolves (r.ambient first).2 := (ambient_gives hr.sound first).toEvolves
  have hrest : Leads (r.ambient first).2 (late.ambient second).2 :=
    hlead.trans (leads_ambient late second)
  have hall : Leads r (late.ambient second).2 := (leads_ambient r first).trans hrest
  exact {
    reached := hlead.reachable hfirst
    last := hrest.reachable hfirst
    between := hmade.trans (hlead.evolves hfirst.sound)
    kept := hrest.evolves hfirst.sound
    evolves := hmade.trans (hrest.evolves hfirst.sound)
    gained := hrest.gains hfirst
    gains := hall.gains hr }

theorem ne_of_plain {s : Store} {z : StandInRef} (hx : s.typeAt? x = some t)
    (hvalue : t.isPlainValue = true) (hz : s.typeAt? z = some c) (hplain : c.isPlainValue = false) :
    x ≠ z := by
  rintro rfl
  rw [hx] at hz
  cases hz
  rw [hvalue] at hplain
  cases hplain

section Requests

variable {own : Recipe} (hr : Reachable r) (hsub : r.catalog.recipeFor t = some (.substitute c))
  (hplain : c.isPlainValue = false) (hown : r.catalog.recipeFor c = some own)
  (halone : own.standsAlone = true) (ht : late.component? t = none)
  (hc : late.component? c = none)

include hown halone in
theorem typeAt?_concrete (hlate : Reachable late) (h : r.Evolves late)
    (hx : late.lookupAmbient? c = some x) : late.store.typeAt? x = some c := by
  have hcatalog : late.catalog = r.catalog := congrArg Workshop.catalog h.workshop
  refine hlate.typeAt?_of_lookup ?_ hx
  rw [hcatalog]
  exact not_substituted hown halone

include hr hsub hplain hown halone ht hc in
theorem substituted_first (hlead : Leads (r.ambient t).2 late) :
    (late.ambient c).1 = (r.ambient t).1 ↔
      t.isPlainValue = false ∧ r.lookupAmbient? t = r.lookupAmbient? c := by
  have h : Requests r late t c := requests hr hlead
  have hnone : r.component? t = none := h.between.component?_none ht
  have hy := lookupAmbient?_ambient h.reached.sound hc hplain
  have htype := typeAt?_concrete hown halone h.last h.evolves hy
  cases hvalue : t.isPlainValue with
  | true =>
      -- A plain value is of a plain type, which the concrete one is not.
      have htype' := Store.typeAt?_extend h.kept.grows.arena
        (typeAt?_ambient_plain hr.sound hnone hvalue)
      exact iff_of_false (ne_of_plain htype' hvalue htype hplain).symm (by simp)
  | false =>
      have hx := h.kept.lookupAmbient? (lookupAmbient?_ambient hr.sound hnone hvalue)
      constructor
      · intro hsame
        rw [hsame] at hy htype
        rcases both_or_neither h.evolves h.gains hr.sound hx hy htype hplain with
          ⟨hold, hold'⟩ | ⟨hold, hold'⟩
        · exact ⟨rfl, hold.trans hold'.symm⟩
        · exact ⟨rfl, hold.trans hold'.symm⟩
      · rintro ⟨-, hagree⟩
        cases hold : r.lookupAmbient? t with
        | some z =>
            rw [hold] at hagree
            rw [h.evolves.lookupAmbient? hagree.symm] at hy
            rw [ambient_of_lookup hnone hold]
            exact (Option.some.inj hy).symm
        | none =>
            rw [hold] at hagree
            have hboth := lookupAmbient?_concrete hown halone hr.sound hsub hnone hvalue hold
              hagree.symm
            rw [h.kept.lookupAmbient? hboth] at hy
            exact (Option.some.inj hy).symm

include hr hsub hplain hown halone ht hc in
theorem concrete_first (hlead : Leads (r.ambient c).2 late) :
    (late.ambient t).1 = (r.ambient c).1 ↔ t.isPlainValue = false ∧
      ∃ x, r.lookupAmbient? t = some x ∧ r.lookupAmbient? c = some x := by
  have h : Requests r late c t := requests hr hlead
  have hnone : r.component? c = none := h.between.component?_none hc
  have hx := h.kept.lookupAmbient? (lookupAmbient?_ambient hr.sound hnone hplain)
  have htype := typeAt?_concrete hown halone h.last h.evolves hx
  cases hvalue : t.isPlainValue with
  | true =>
      have htype' := typeAt?_ambient_plain h.reached.sound ht hvalue
      exact iff_of_false (ne_of_plain htype' hvalue htype hplain) (by simp)
  | false =>
      have hy := lookupAmbient?_ambient h.reached.sound ht hvalue
      constructor
      · intro hsame
        rw [hsame] at hy
        rcases both_or_neither h.evolves h.gains hr.sound hy hx htype hplain with
          hboth | ⟨hold, hold'⟩
        · exact ⟨rfl, _, hboth⟩
        · -- The substituted type has no object yet when the concrete one gets its object.
          have hne : t ≠ c := by
            rintro rfl
            exact not_substituted hown halone _ hsub
          have hstill := lookupAmbient?_ambient_ne hown halone hr.sound hnone hplain hold' hne
          rw [hold] at hstill
          have hhas : (r.ambient c).2.store.Has (r.ambient c).1 := (ambient_gives hr.sound c).has
          exact (not_has_of_gained h.gained hstill hy htype hplain hhas).elim
      · rintro ⟨-, z, hold, hold'⟩
        rw [h.evolves.lookupAmbient? hold] at hy
        rw [ambient_of_lookup hnone hold']
        exact (Option.some.inj hy).symm

end Requests

/-- **Substituted types.** Let the recipe of a type substitute a concrete one that is made without a
shared object, neither of them a component class. If the substituted type is asked for first, both
have one shared object at every later time exactly if they had the same one before, or both none. If
the concrete type is asked for first, they have one exactly if they had the same one before: else the
object of the substituted type is made anew. -/
theorem substitute_shared_iff (hr : Reachable r)
    (hsub : r.catalog.recipeFor t = some (.substitute c)) (hplain : c.isPlainValue = false)
    {own : Recipe} (hown : r.catalog.recipeFor c = some own) (halone : own.standsAlone = true)
    (ht : late.component? t = none) (hc : late.component? c = none) :
    (Leads (r.ambient t).2 late → ((late.ambient c).1 = (r.ambient t).1 ↔
      t.isPlainValue = false ∧ r.lookupAmbient? t = r.lookupAmbient? c)) ∧
    (Leads (r.ambient c).2 late → ((late.ambient t).1 = (r.ambient c).1 ↔
      t.isPlainValue = false ∧
        ∃ x, r.lookupAmbient? t = some x ∧ r.lookupAmbient? c = some x)) :=
  ⟨substituted_first hr hsub hplain hown halone ht hc,
    concrete_first hr hsub hplain hown halone ht hc⟩

/-- A context that wraps another one; the recipe of the context substitutes it. -/
def wrapper : TypeName := ⟨"android.content.ContextWrapper"⟩

/-- Asked for after the context, the wrapper is the same object. -/
theorem context_shared :
    (((new .android).ambient TypeName.context).2.ambient wrapper).1 =
      ((new .android).ambient TypeName.context).1 := by
  have hr : Reachable (new .android) := Reachable.new .android 1
  have hsub : (new .android).catalog.recipeFor TypeName.context = some (.substitute wrapper) := by
    decide +kernel
  have hown : (new .android).catalog.recipeFor wrapper =
      some (.constructor [.degenerate TypeName.context]) := by decide +kernel
  have hnone : ∀ k, ((new .android).ambient TypeName.context).2.component? k = none := by
    have hempty : ((new .android).ambient TypeName.context).2.store.components = [] :=
      (ambient_gives hr.sound TypeName.context).components
    intro k
    rw [component?, Store.component?, hempty]
    rfl
  exact ((substitute_shared_iff hr hsub (by decide +kernel) hown rfl (hnone _) (hnone _)).1
    .refl).2 ⟨by decide +kernel, rfl⟩

/-- Asked for before the context, the wrapper is another object: the context is made anew. -/
theorem context_not_shared :
    Reachable (new .android) ∧
      (new .android).catalog.recipeFor TypeName.context = some (.substitute wrapper) ∧
      (new .android).catalog.recipeFor wrapper =
        some (.constructor [.degenerate TypeName.context]) ∧
      (((new .android).ambient wrapper).2.ambient TypeName.context).1 ≠
        ((new .android).ambient wrapper).1 :=
  ⟨Reachable.new .android 1, by decide +kernel⟩

end Registry
end AppDriver
