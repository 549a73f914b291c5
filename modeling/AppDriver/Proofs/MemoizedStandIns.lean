import AppDriver.Proofs.StrayStandIns
import AppDriver.Proofs.UniqueLabels

/-! Which stand-ins have a key. All of them, except that over certain catalogs a shared object can be
left without one. For every such type there is a run that leaves one: a batch of components each of
which needs the type that the first one stands for closes the cycle through whatever shared object
the recipe asks for. -/

namespace AppDriver

theorem ParamSource.ofType_of_not_plain {t : TypeName} (h : t.isPlainValue = false) :
    ParamSource.ofType t = .ambient t := by
  rw [ofType, h]
  rfl

/-- Each class of a batch is constructed with an object of a type, which is none of them. -/
structure AllNeed (t : TypeName) (batch : List Component) : Prop where
  object : t.isPlainValue = false
  other : ∀ c ∈ batch, c.name ≠ t
  params : ∀ c ∈ batch, c.constructorParams = [t]

theorem AllNeed.find? {t : TypeName} {batch : List Component} (h : AllNeed t batch) :
    batch.find? (·.name == t) = none := by
  rw [List.find?_eq_none]
  intro c hc hname
  exact h.other c hc (beq_iff_eq.1 hname)

namespace Store

/-- How a store looks while a type is being fabricated that a batch needs, and `k` is made in its
place: once a component is registered, the type has a shared object. -/
structure Entangled (t k : TypeName) (s : Store) : Prop where
  unregistered : s.component? t = none
  uncut : s.cycleBreaks.lookup k = none
  shared : s.components ≠ [] → s.ambients.lookup t ≠ none

theorem entangled_empty (t k : TypeName) : Entangled t k {} :=
  ⟨rfl, rfl, fun h => (h rfl).elim⟩

variable {s s' : Store} {t k : TypeName} {x : StandInRef}

theorem Entangled.keep (h : s.Entangled t k) (hcomponents : s'.components = s.components)
    (hambients : s'.ambients = s.ambients) (hbreaks : s'.cycleBreaks = s.cycleBreaks) :
    s'.Entangled t k := by
  obtain ⟨hunregistered, huncut, hshared⟩ := h
  refine ⟨?_, hbreaks ▸ huncut, ?_⟩
  · rw [component?, hcomponents]
    exact hunregistered
  · rw [hcomponents, hambients]
    exact hshared

/-- The cycle through the type is cut, and what cut it becomes its shared object. -/
theorem Entangled.cut (h : s.Entangled t k) (hne : k ≠ t) (origin : Origin) (hint : String) :
    ((s.cutCycle t origin hint).2.settleAmbient t (s.cutCycle t origin hint).1).2.Entangled t k := by
  have hshared := (s.cutCycle t origin hint).2.lookup_settleAmbient t (s.cutCycle t origin hint).1
  obtain ⟨ambients, heq⟩ :=
    (s.cutCycle t origin hint).2.settleAmbient_eq t (s.cutCycle t origin hint).1
  refine ⟨?_, ?_, fun _ => ?_⟩
  · rw [heq]
    exact h.unregistered
  · rw [heq, cutCycle]
    dsimp only
    rw [List.lookup_cons, beq_eq_false_iff_ne.2 hne]
    exact h.uncut
  · rw [hshared]
    exact Option.some_ne_none _

theorem settleAmbient_of_known (h : s.ambients.lookup t ≠ none) : (s.settleAmbient t x).2 = s := by
  rw [settleAmbient]
  cases hknown : s.ambients.lookup t with
  | some existing => rfl
  | none => exact (h hknown).elim

theorem component?_enroll_ne (s : Store) (c : Component) (args : List StandInRef) :
    (s.enroll c args).2.component? c.name ≠ none := by
  cases hinstance : s.component? c.name with
  | some x =>
      rw [(s.enroll_grows c args).component? hinstance]
      exact Option.some_ne_none x
  | none =>
      rw [component?_enroll hinstance]
      exact Option.some_ne_none _

/-- Where an origin names a key, the stand-in is the answer to it. -/
theorem memoized_of_onFile {y : StandIn} (h : s.OnFile x y) (hother : y.origin ≠ .ambient) :
    s.Memoized x y.origin := by
  rw [OnFile] at h
  cases horigin : y.origin with
  | ambient => exact (hother horigin).elim
  | identifier id =>
      rw [horigin] at h
      exact ⟨id, h⟩
  | unresolved id =>
      rw [horigin] at h
      cases id with
      | none => exact ⟨y.typeName, h⟩
      | some id => exact ⟨id, h⟩
  | component kind =>
      rw [horigin] at h
      exact ⟨y.typeName, h⟩
  | derived parent getter =>
      rw [horigin] at h
      exact ⟨(parent, getter), h.1⟩
  | value =>
      rw [horigin] at h
      exact ⟨y.typeName, h⟩

/-- A stand-in that was just added is no shared object. -/
theorem not_memoized_push (hs : s.Sound) (t : TypeName) (origin : Origin)
    (construction : Construction) (hint : String) :
    ¬(s.push t origin construction hint).2.Memoized (s.push t origin construction hint).1
      .ambient := by
  have hnew : ¬s.Has (s.push t origin construction hint).1 := Nat.lt_irrefl _
  rintro (⟨t', ht'⟩ | ⟨t', ht'⟩ | ⟨name, hname⟩)
  · exact hnew (hs.ambients.lookup ht')
  · exact hnew (hs.typedNulls.lookup ht')
  · exact hnew (hs.services.lookup hname)

end Store

namespace Workshop

variable {w : Workshop} {batch : List Component} {t k : TypeName} {u : Underway} {s : Store}

theorem supply_shared {p : ParamSource} (h : p.isShared = true) :
    w.supply batch u p s = w.ambient batch u p.typeName s := by
  cases p with
  | context | ambient => rw [supply]; rfl
  | degenerate | value => cases h

theorem materialize_one (w : Workshop) (batch : List Component) (u : Underway) (t : TypeName)
    (s : Store) : w.materialize batch u [.ambient t] s =
      ([(w.ambient batch u t s).1], (w.ambient batch u t s).2) := by
  rw [materialize, supply, materialize]

/-- The type is asked for while it is being fabricated. -/
theorem ambient_entangled (hbatch : AllNeed t batch) (hne : k ≠ t) (ht : t ∈ u.types)
    (h : s.Entangled t k) :
    (w.ambient batch u t s).2.Entangled t k ∧
      (w.ambient batch u t s).2.ambients.lookup t ≠ none := by
  rw [ambient_eq, h.unregistered, hbatch.find?]
  dsimp only
  cases hknown : s.ambients.lookup t with
  | some x => exact ⟨h, by rw [hknown]; exact Option.some_ne_none _⟩
  | none =>
      rw [fabricate_eq, List.contains_iff_mem.2 ht]
      simp only [hbatch.object, Bool.false_eq_true, if_false, if_true]
      refine ⟨h.cut hne _ _, ?_⟩
      rw [Store.lookup_settleAmbient]
      exact Option.some_ne_none _

/-- Whether a parameter that is a shared object is of the type or of a class of the batch that is not
being built. -/
def Closes (t : TypeName) (batch : List Component) (u : Underway) (p : ParamSource) : Prop :=
  p.isShared = true →
    p.typeName = t ∨ (∃ c ∈ batch, c.name = p.typeName) ∧ p.typeName ∉ u.classes

/-- What a parameter leaves. -/
structure Closed (t k : TypeName) (p : ParamSource) (s s' : Store) : Prop where
  entangled : s'.Entangled t k
  shared : p.isShared = true ∨ s.ambients.lookup t ≠ none → s'.ambients.lookup t ≠ none
  registered : p.isShared = true → p.typeName ≠ t → s'.component? p.typeName ≠ none

theorem Closed.of_untouched {s' : Store} {p : ParamSource} (h : s.Entangled t k)
    (halone : p.isShared = false) (hcomponents : s'.components = s.components)
    (hambients : s'.ambients = s.ambients) (hbreaks : s'.cycleBreaks = s.cycleBreaks) :
    Closed t k p s s' := by
  refine ⟨h.keep hcomponents hambients hbreaks, ?_, fun hshared => ?_⟩
  · rintro (hshared | hknown)
    · rw [halone] at hshared
      cases hshared
    · rwa [hambients]
  · rw [halone] at hshared
    cases hshared

/-- A class of the batch that is no component yet is registered, and its constructor asks for the
type. -/
theorem ambient_registers (hbatch : AllNeed t batch) (hne : k ≠ t) (ht : t ∈ u.types) {n : TypeName}
    (hclass : ∃ c ∈ batch, c.name = n) (hidle : n ∉ u.classes) (hnew : s.component? n = none)
    (h : s.Entangled t k) :
    (w.ambient batch u n s).2.Entangled t k ∧ (w.ambient batch u n s).2.ambients.lookup t ≠ none ∧
      (w.ambient batch u n s).2.component? n ≠ none := by
  obtain ⟨c, hc, hname⟩ := hclass
  rw [ambient_eq, hnew]
  cases hfind : batch.find? (·.name == n) with
  | none => exact (List.find?_eq_none.1 hfind c hc (beq_iff_eq.2 hname)).elim
  | some c' =>
      have hmem := List.mem_of_find?_eq_some hfind
      have hname' : c'.name = n := by simpa using List.find?_some hfind
      obtain ⟨hentangled, hknown⟩ := ambient_entangled (w := w) (u := u.enterClass n) hbatch hne ht h
      dsimp only
      rw [if_neg (mt List.contains_iff_mem.1 hidle), hbatch.params c' hmem, List.map_singleton,
        ParamSource.ofType_of_not_plain hbatch.object, materialize_one]
      refine ⟨⟨?_, hentangled.uncut, fun _ => hknown⟩, hknown, ?_⟩
      · exact (Store.component?_append (hbatch.other c' hmem) rfl).trans hentangled.unregistered
      · rw [← hname']
        exact Store.component?_enroll_ne _ c' _

/-- A shared object is the type itself, a component, or a class of the batch that becomes one. -/
theorem supply_closed (hbatch : AllNeed t batch) (hne : k ≠ t) (ht : t ∈ u.types)
    {p : ParamSource} (hp : Closes t batch u p) (h : s.Entangled t k) :
    Closed t k p s (w.supply batch u p s).2 := by
  cases hshared : p.isShared with
  | false =>
      cases p with
      | context | ambient => cases hshared
      | degenerate t' =>
          rw [supply]
          obtain ⟨hambients, hbreaks⟩ := s.typedNull_untouched t'
          have heffect : Store.Effect w.arrayLength [] [] s _ := .typedNull s t'
          exact .of_untouched h hshared heffect.runs.components hambients hbreaks
      | value t' =>
          rw [supply]
          obtain ⟨hambients, hbreaks⟩ := s.value_untouched w.arrayLength t'
          have heffect : Store.Effect w.arrayLength [] [] s _ := .value s t'
          exact .of_untouched h hshared heffect.runs.components hambients hbreaks
  | true =>
      rw [supply_shared hshared]
      by_cases hown : p.typeName = t
      · obtain ⟨hentangled, hknown⟩ := ambient_entangled (w := w) hbatch hne ht h
        rw [hown]
        exact ⟨hentangled, fun _ => hknown, fun _ hother => (hother hown).elim⟩
      · obtain ⟨hclass, hidle⟩ := (hp hshared).resolve_left hown
        cases hinstance : s.component? p.typeName with
        | some x =>
            have hcomponents : s.components ≠ [] := by
              intro hnil
              rw [Store.component?, hnil] at hinstance
              cases hinstance
            have hanswer : (w.ambient batch u p.typeName s).2 = s := by
              rw [ambient_eq, hinstance]
            rw [hanswer]
            exact ⟨h, fun _ => h.shared hcomponents, fun _ _ => by
              rw [hinstance]
              exact Option.some_ne_none _⟩
        | none =>
            obtain ⟨hentangled, hknown, hregistered⟩ :=
              ambient_registers (w := w) hbatch hne ht hclass hidle hinstance h
            exact ⟨hentangled, fun _ => hknown, fun _ _ => hregistered⟩

/-- All parameters together leave the type with a shared object if one of them is shared. -/
theorem materialize_closed (hbatch : AllNeed t batch) (hne : k ≠ t) (ht : t ∈ u.types)
    {params : List ParamSource} (hparams : ∀ p ∈ params, Closes t batch u p) (hs : s.Sound)
    (h : s.Entangled t k) :
    (w.materialize batch u params s).2.Entangled t k ∧
      ((∃ p ∈ params, p.isShared = true) ∨ s.ambients.lookup t ≠ none →
        (w.materialize batch u params s).2.ambients.lookup t ≠ none) ∧
      ∀ p ∈ params, p.isShared = true → p.typeName ≠ t →
        (w.materialize batch u params s).2.component? p.typeName ≠ none := by
  induction params generalizing s with
  | nil =>
      rw [materialize]
      exact ⟨h, fun hknown => hknown.resolve_left (by simp), by simp⟩
  | cons p ps ih =>
      rw [List.forall_mem_cons] at hparams
      have hfirst := supply_closed (w := w) hbatch hne ht hparams.1 h
      have hsound := ((w.fabrication_obtains batch).2.2.2 u p s hs).1.sound hs
      have hgrows := ((w.fabrication_obtains batch).2.2.1 u ps _ hsound).1.grows
      obtain ⟨hentangled, hshared, hregistered⟩ := ih hparams.2 hsound hfirst.entangled
      rw [materialize]
      refine ⟨hentangled, fun hknown => hshared ?_, ?_⟩
      · rcases hknown with ⟨p', hp', hp'shared⟩ | hknown
        · rcases List.mem_cons.1 hp' with rfl | hp'
          · exact .inr (hfirst.shared (.inl hp'shared))
          · exact .inl ⟨p', hp', hp'shared⟩
        · exact .inr (hfirst.shared (.inr hknown))
      · rw [List.forall_mem_cons]
        refine ⟨fun hp hother => ?_, hregistered⟩
        obtain ⟨x, hx⟩ := Option.ne_none_iff_exists'.1 (hfirst.registered hp hother)
        rw [hgrows.component? hx]
        exact Option.some_ne_none x

variable {recipe : Recipe}

/-- Following a recipe that needs a shared object adds a stand-in with what the parameters leave. -/
theorem fabricate_uncut (hplain : k.isPlainValue = false) (hidle : k ∉ u.types)
    (hrecipe : w.catalog.recipeFor k = some recipe) (hshares : ∃ p ∈ recipe.params, p.isShared = true)
    (huncut : (w.materialize batch (u.enterType k) recipe.params s).2.cycleBreaks.lookup k = none)
    (origin : Origin) (hint : String) :
    ∃ construction, w.fabricate batch u k origin hint s =
      (((w.materialize batch (u.enterType k) recipe.params s).2.push k origin construction hint).1,
        ((w.materialize batch (u.enterType k) recipe.params s).2.push k origin construction
          hint).2.forgetCycle k) := by
  obtain ⟨p, hp, -⟩ := hshares
  cases recipe with
  | constructor params =>
      refine ⟨.constructor (w.materialize batch (u.enterType k) params s).1, ?_⟩
      rw [fabricate_eq, hplain, hrecipe]
      simp only [Bool.false_eq_true, if_false, List.contains_iff_mem, hidle, Store.complete]
      rw [show (w.materialize batch (u.enterType k) params s).2.cycleBreaks.lookup k = none from
        huncut]
      rfl
  | staticFactory owner method params =>
      refine ⟨.staticFactory owner method (w.materialize batch (u.enterType k) params s).1, ?_⟩
      rw [fabricate_eq, hplain, hrecipe]
      simp only [Bool.false_eq_true, if_false, List.contains_iff_mem, hidle, Store.complete]
      rw [show (w.materialize batch (u.enterType k) params s).2.cycleBreaks.lookup k = none from
        huncut]
      rfl
  | staticField | substitute | unfabricable => cases hp

/-- The object that is made in place of the type is left without a key. -/
theorem ambient_strays (hbatch : AllNeed t batch) (hplain : k.isPlainValue = false)
    (hsub : w.catalog.recipeFor t = some (.substitute k))
    (hrecipe : w.catalog.recipeFor k = some recipe) (hshares : ∃ p ∈ recipe.params, p.isShared = true)
    (hu : u.types = []) (hparams : ∀ p ∈ recipe.params, Closes t batch u p) (hs : s.Sound)
    (h : s.Entangled t k) (hnew : s.ambients.lookup t = none) :
    (∃ x y, (w.ambient batch u t s).2.get? x = some y ∧ y.typeName = k ∧ y.origin = .ambient ∧
      ¬(w.ambient batch u t s).2.Memoized x .ambient) ∧
    ∀ p ∈ recipe.params, p.isShared = true → p.typeName ≠ t →
      (w.ambient batch u t s).2.component? p.typeName ≠ none := by
  have hne : k ≠ t := by
    rintro rfl
    rw [hsub] at hrecipe
    obtain rfl := Option.some.inj hrecipe
    obtain ⟨p, hp, -⟩ := hshares
    cases hp
  have hidle : k ∉ (u.enterType t).types := by
    simp [Underway.enterType, hu, hne]
  have hbusy : t ∈ ((u.enterType t).enterType k).types := by simp [Underway.enterType]
  obtain ⟨hentangled, hshared, hregistered⟩ := materialize_closed (w := w)
    (u := (u.enterType t).enterType k) hbatch hne hbusy hparams hs h
  have hsound := ((w.fabrication_obtains batch).2.2.1 ((u.enterType t).enterType k) recipe.params s
    hs).1.sound hs
  obtain ⟨construction, hmade⟩ := fabricate_uncut hplain hidle hrecipe hshares hentangled.uncut
    .ambient ("ambient" ++ t.simpleName)
  have hknown := hshared (.inl hshares)
  have hleft : (w.ambient batch u t s).2 =
      (((w.materialize batch ((u.enterType t).enterType k) recipe.params s).2.push k .ambient
        construction ("ambient" ++ t.simpleName)).2.forgetCycle k).forgetCycle t := by
    rw [ambient_eq, h.unregistered, hbatch.find?]
    dsimp only
    rw [hnew, fabricate_eq, hsub, hu]
    simp only [hbatch.object, Bool.false_eq_true, if_false, List.contains_nil]
    rw [hmade]
    exact Store.settleAmbient_of_known hknown
  rw [hleft]
  refine ⟨⟨_, _, Store.get?_push_new, rfl, rfl, ?_⟩, hregistered⟩
  exact Store.not_memoized_push hsound k .ambient construction _

/-- Components that are registered are not registered again. -/
theorem threadMap_registered {cs : List Component} (h : ∀ c ∈ cs, s.component? c.name ≠ none) :
    (threadMap (w.register batch) cs s).2 = s := by
  induction cs with
  | nil => rfl
  | cons c cs ih =>
      rw [List.forall_mem_cons] at h
      obtain ⟨x, hx⟩ := Option.ne_none_iff_exists'.1 h.1
      have hfirst : w.register batch c s = (x, s) := by rw [register, hx]
      rw [threadMap, hfirst]
      exact ih h.2

end Workshop

/-! ### Runs that leave a stand-in without a key -/

namespace Registry

/-- A component that is constructed with an object of a type. -/
def holder (t name : TypeName) : Component where
  name := name
  kind := .plainListener
  constructorParams := [t]

/-- The types of the shared objects that parameters ask for, but for one type. -/
def otherShared (t : TypeName) (params : List ParamSource) : List TypeName :=
  ((params.filter (·.isShared)).map (·.typeName)).filter (· != t)

theorem mem_otherShared {t t' : TypeName} {params : List ParamSource} :
    t' ∈ otherShared t params ↔ (∃ p ∈ params, p.isShared = true ∧ p.typeName = t') ∧ t' ≠ t := by
  simp [otherShared, and_assoc]

/-- A name that is none of these types. -/
def freshName (ts : List TypeName) : TypeName := ⟨Label.fresh (ts.map (·.text)) "app.Holder"⟩

theorem freshName_not_mem (ts : List TypeName) : freshName ts ∉ ts := fun h =>
  Label.fresh_not_mem (ts.map (·.text)) "app.Holder" (List.mem_map_of_mem (f := (·.text)) h)

/-- A holder of a type for each other shared object, and first one of a new name. -/
def holders (t : TypeName) (params : List ParamSource) : List Component :=
  holder t (freshName (t :: otherShared t params)) :: (otherShared t params).map (holder t)

theorem holders_need {t : TypeName} (hplain : t.isPlainValue = false) (params : List ParamSource) :
    AllNeed t (holders t params) := by
  refine ⟨hplain, ?_, ?_⟩
  · intro c hc
    rcases List.mem_cons.1 hc with rfl | hc
    · intro heq
      exact freshName_not_mem (t :: otherShared t params) (List.mem_cons.2 (.inl heq))
    · obtain ⟨name, hname, rfl⟩ := List.mem_map.1 hc
      exact (mem_otherShared.1 hname).2
  · intro c hc
    rcases List.mem_cons.1 hc with rfl | hc
    · rfl
    · obtain ⟨name, -, rfl⟩ := List.mem_map.1 hc
      rfl

/-- Every other shared object is held, by a component that is not the first one. -/
theorem holders_close {t : TypeName} {params : List ParamSource} :
    ∀ p ∈ params, Workshop.Closes t (holders t params)
      (Underway.enterClass {} (freshName (t :: otherShared t params))) p := by
  intro p hp hshared
  by_cases hown : p.typeName = t
  · exact .inl hown
  · have hname : p.typeName ∈ otherShared t params :=
      mem_otherShared.2 ⟨⟨p, hp, hshared, rfl⟩, hown⟩
    refine .inr ⟨⟨holder t p.typeName, List.mem_cons_of_mem _ (List.mem_map_of_mem hname), rfl⟩, ?_⟩
    intro hbusy
    have heq : p.typeName = freshName (t :: otherShared t params) := List.mem_singleton.1 hbusy
    exact freshName_not_mem (t :: otherShared t params) (heq ▸ List.mem_cons_of_mem t hname)

/-- Over a catalog in which objects of a type stray, some run leaves one without a key. -/
theorem exists_stray {c : FrameworkCatalog} {k : TypeName} (h : c.Strays k) :
    ∃ r, Reachable r ∧ r.catalog = c ∧ ∃ x y, r.get? x = some y ∧ y.typeName = k ∧
      y.origin = .ambient ∧ ¬r.store.Memoized x .ambient := by
  obtain ⟨hobject, ⟨t, hplain, hsub⟩, recipe, hrecipe, hshares⟩ := h
  let names := otherShared t recipe.params
  let first := holder t (freshName (t :: names))
  let batch := holders t recipe.params
  let u := Underway.enterClass {} first.name
  obtain ⟨⟨x, y, hy, htype, horigin, hstray⟩, hregistered⟩ := Workshop.ambient_strays
    (w := (new c).workshop) (u := u) (holders_need hplain recipe.params) hobject hsub hrecipe hshares
    rfl holders_close Store.sound_empty (Store.entangled_empty t k) rfl
  -- The first holder is enrolled last; all the others are registered by then.
  let asked := (new c).workshop.ambient batch u t {}
  have hfirst : (new c).workshop.register batch first {} = asked.2.enroll first [asked.1] := by
    rw [Workshop.register]
    change (Store.enroll _ _ _) = _
    rw [show first.constructorParams = [t] from rfl, List.map_singleton,
      ParamSource.ofType_of_not_plain hplain, Workshop.materialize_one]
  have hgrows := asked.2.enroll_grows first [asked.1]
  have hrest : ∀ c ∈ names.map (holder t), (asked.2.enroll first [asked.1]).2.component? c.name ≠
      none := by
    intro c hc
    obtain ⟨name, hname, rfl⟩ := List.mem_map.1 hc
    obtain ⟨⟨p, hp, hshared, rfl⟩, hother⟩ := mem_otherShared.1 hname
    obtain ⟨z, hz⟩ := Option.ne_none_iff_exists'.1 (hregistered p hp hshared hother)
    rw [show (holder t p.typeName).name = p.typeName from rfl, hgrows.component? hz]
    exact Option.some_ne_none z
  have hstore : ((new c).registerComponents batch).2.store = (asked.2.enroll first [asked.1]).2 := by
    change (threadMap ((new c).workshop.register batch) (first :: names.map (holder t)) {}).2 = _
    rw [threadMap, hfirst]
    exact Workshop.threadMap_registered hrest
  refine ⟨((new c).registerComponents batch).2, .step (.registerComponents batch) (.new c 1) rfl,
    rfl, x, y, ?_, htype, horigin, ?_⟩
  · rw [get?, hstore]
    exact hgrows.get?_some hy
  · rw [hstore]
    exact hstray

/-- **Stand-ins and their keys.** Over a catalog, every stand-in of a type is in every reachable
registry the answer to some key of the table that belongs to its origin, exactly if objects of the
type do not stray: no type that is no plain value is substituted by it, or its recipe takes no shared
object, or it is a plain value itself. -/
theorem memoized_iff (c : FrameworkCatalog) (k : TypeName) :
    (∀ r, Reachable r → r.catalog = c → ∀ x y, r.get? x = some y → y.typeName = k →
      r.store.Memoized x y.origin) ↔ ¬c.Strays k := by
  constructor
  · intro h hstrays
    obtain ⟨r, hr, hcatalog, x, y, hy, htype, horigin, hstray⟩ := exists_stray hstrays
    exact hstray (horigin ▸ h r hr hcatalog x y hy htype)
  · rintro hstray r hr rfl x y hy htype
    by_cases horigin : y.origin = .ambient
    · rw [horigin]
      exact (hr.allMemoized hstray x y hy horigin htype).resolve_right List.not_mem_nil
    · exact Store.memoized_of_onFile ((hr.orderly.onFile x y hy).resolve_right List.not_mem_nil)
        horigin

/-- A facade that is made as its core, which needs the facade. -/
def hollowCatalog : FrameworkCatalog where
  recipes := [(⟨"app.Facade"⟩, .substitute ⟨"app.Core"⟩),
    (⟨"app.Core"⟩, .constructor [.ambient ⟨"app.Facade"⟩])]

def hollowRegistry : Registry := ((new hollowCatalog).ambient ⟨"app.Facade"⟩).2

/-- The facade is answered with what cut the cycle, and the core that was made for it has no key. -/
theorem core_not_memoized : Reachable hollowRegistry ∧
    ∃ x y, hollowRegistry.get? x = some y ∧ ¬hollowRegistry.store.Memoized x y.origin := by
  refine ⟨.step (.ambient ⟨"app.Facade"⟩) (.new hollowCatalog 1) rfl, ⟨1⟩,
    ⟨⟨1⟩, ⟨"app.Core"⟩, .ambient, .constructor [⟨0⟩], "ambientFacade_2"⟩, by decide +kernel, ?_⟩
  have hambients : hollowRegistry.store.ambients = [(⟨"app.Facade"⟩, ⟨0⟩)] := by decide +kernel
  have hnulls : hollowRegistry.store.typedNulls = [] := by decide +kernel
  have hservices : hollowRegistry.store.services = [] := by decide +kernel
  rintro (⟨t, ht⟩ | ⟨t, ht⟩ | ⟨name, hname⟩)
  · rw [hambients] at ht
    cases Workshop.mem_of_lookup ht with
    | tail _ hmem => cases hmem
  · rw [hnulls] at ht
    cases ht
  · rw [hservices] at hname
    cases hname

end Registry
end AppDriver
