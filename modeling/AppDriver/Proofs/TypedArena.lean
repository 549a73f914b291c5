import AppDriver.Proofs.Filing
import AppDriver.Proofs.RegistryChanges

/-! Types in the arena. Whatever answers a request for a type is of this type or of one that
substitutions lead to, whether it is a component, a typed null, a plain value, an object that is
shared already or one that cut a cycle. It follows that what a recipe builds has arguments that fit
its parameters, one for each. -/

namespace AppDriver

/-- Substitutions lead from the one type to the other, so that an object of the second can be made
where the first is asked for. -/
def FrameworkCatalog.MadeAs (c : FrameworkCatalog) : TypeName → TypeName → Prop :=
  Relation.ReflTransGen fun t t' => c.recipeFor t = some (.substitute t')

/-- Whether it calls a constructor or a static method. -/
def Construction.isCall : Construction → Bool
  | .constructor _ | .staticFactory _ _ _ => true
  | _ => false

theorem ParamSource.ofType_typeName (t : TypeName) : (ParamSource.ofType t).typeName = t := by
  rw [ofType]
  split <;> rfl

theorem ParamSource.map_ofType_typeName (ts : List TypeName) :
    (ts.map ParamSource.ofType).map (·.typeName) = ts := by
  rw [List.map_map]
  exact List.map_id'' ofType_typeName ts

namespace Store

variable {c : FrameworkCatalog} {s s' : Store} {t : TypeName} {x : StandInRef} {origin : Origin}
  {construction : Construction} {hint : String} {n : Nat}

/-- Whether a stand-in can be passed where a type is asked for. -/
def Serves (c : FrameworkCatalog) (s : Store) (t : TypeName) (x : StandInRef) : Prop :=
  ∃ t', s.typeAt? x = some t' ∧ c.MadeAs t t'

theorem serves_own (h : s.typeAt? x = some t) : s.Serves c t x := ⟨t, h, .refl⟩

theorem Serves.later (h : s.Serves c t x) (harena : s.arena <+: s'.arena) : s'.Serves c t x := by
  obtain ⟨t', ht', hmade⟩ := h
  exact ⟨t', typeAt?_extend harena ht', hmade⟩

/-- What serves for the type that stands for another one serves for that one. -/
theorem Serves.substitute {concrete : TypeName} (hrecipe : c.recipeFor t = some (.substitute concrete))
    (h : s.Serves c concrete x) : s.Serves c t x := by
  obtain ⟨t', ht', hmade⟩ := h
  exact ⟨t', ht', .head hrecipe hmade⟩

/-- The arguments serve for the types, one for each. -/
def ServesAll (c : FrameworkCatalog) (s : Store) (ts : List TypeName) (xs : List StandInRef) :
    Prop := List.Forall₂ (s.Serves c) ts xs

theorem ServesAll.later {ts : List TypeName} {xs : List StandInRef} (h : s.ServesAll c ts xs)
    (harena : s.arena <+: s'.arena) : s'.ServesAll c ts xs := h.imp fun _ _ h => h.later harena

/-- Whether a construction follows the recipe of a type, with arguments that serve for its
parameters. -/
def Follows (c : FrameworkCatalog) (s : Store) (t : TypeName) (construction : Construction) :
    Prop :=
  ∃ recipe args, c.recipeFor t = some recipe ∧ recipe.Builds args construction ∧
    s.ServesAll c (recipe.params.map (·.typeName)) args

theorem Follows.later (h : s.Follows c t construction) (harena : s.arena <+: s'.arena) :
    s'.Follows c t construction := by
  obtain ⟨recipe, args, hrecipe, hbuilds, hargs⟩ := h
  exact ⟨recipe, args, hrecipe, hbuilds, hargs.later harena⟩

/-- The instance of a component is of its class and constructed from what serves for the parameters
of its constructor. -/
def Instantiates (c : FrameworkCatalog) (s : Store) (component : Component) (x : StandInRef) :
    Prop :=
  ∃ y args, s.get? x = some y ∧ y.typeName = component.name ∧ y.construction = .constructor args ∧
    s.ServesAll c component.constructorParams args

/-- Every table answers with stand-ins that serve for its keys, and every call that is no component's
constructor follows the recipe of its type. -/
structure WellTyped (c : FrameworkCatalog) (s : Store) : Prop where
  ambients : ∀ e ∈ s.ambients, s.Serves c e.1 e.2
  typedNulls : ∀ e ∈ s.typedNulls, s.typeAt? e.2 = some e.1
  instances : ∀ e ∈ s.components, s.Instantiates c e.1 e.2
  calls : ∀ x y, s.get? x = some y → y.construction.isCall = true →
    (∃ kind, y.origin = .component kind) ∨ s.Follows c y.typeName y.construction

theorem wellTyped_empty (c : FrameworkCatalog) : WellTyped c {} := by
  constructor <;> simp [get?]

/-- A store stays well typed if what is added to it is. -/
theorem WellTyped.grow (h : s.WellTyped c) (hgrows : s.Grows s')
    (hambients : ∀ e ∈ s'.ambients, e ∈ s.ambients ∨ s'.Serves c e.1 e.2)
    (hnulls : ∀ e ∈ s'.typedNulls, e ∈ s.typedNulls ∨ s'.typeAt? e.2 = some e.1)
    (hinstances : ∀ e ∈ s'.components, e ∈ s.components ∨ s'.Instantiates c e.1 e.2)
    (hcalls : ∀ x y, s'.get? x = some y → y.construction.isCall = true → s.get? x = some y ∨
      (∃ kind, y.origin = .component kind) ∨ s.Follows c y.typeName y.construction) :
    s'.WellTyped c := by
  have harena := hgrows.arena
  constructor
  · intro e he
    rcases hambients e he with hold | hnew
    · exact (h.ambients e hold).later harena
    · exact hnew
  · intro e he
    rcases hnulls e he with hold | hnew
    · exact typeAt?_extend harena (h.typedNulls e hold)
    · exact hnew
  · intro e he
    rcases hinstances e he with hold | hnew
    · obtain ⟨y, args, hy, hname, hbuilt, hargs⟩ := h.instances e hold
      exact ⟨y, args, (hgrows.get? (List.getElem?_eq_some_iff.1 hy).1).trans hy, hname, hbuilt,
        hargs.later harena⟩
    · exact hnew
  · intro x y hy hcall
    rcases hcalls x y hy hcall with hold | hnew
    · exact (h.calls x y hold hcall).imp_right fun hfollows => hfollows.later harena
    · exact hnew.imp_right fun hfollows => hfollows.later harena

theorem WellTyped.push (h : s.WellTyped c) (hcall : construction.isCall = true →
    (∃ kind, origin = .component kind) ∨ s.Follows c t construction) :
    (s.push t origin construction hint).2.WellTyped c := by
  apply h.grow (s.push_grows t origin construction hint) (fun _ => .inl) (fun _ => .inl)
    (fun _ => .inl)
  intro x y hy hisCall
  rcases get?_push hy with hold | ⟨rfl, rfl⟩
  · exact .inl hold
  · exact .inr (hcall hisCall)

theorem WellTyped.value (h : s.WellTyped c) : (s.value n t).2.WellTyped c := by
  rw [Store.value]
  split
  · exact h
  · refine { h.push fun hcall => ?_ with }
    cases helement : t.elementType <;> simp [helement, Construction.isCall] at hcall

theorem WellTyped.typedNull (h : s.WellTyped c) : (s.typedNull t).2.WellTyped c := by
  rw [Store.typedNull]
  split
  · exact h
  · have hpush : (s.push t .ambient .degenerate ("null" ++ t.simpleName)).2.WellTyped c :=
      h.push fun hcall => by cases hcall
    refine { hpush with typedNulls := ?_ }
    intro e he
    rcases List.mem_cons.1 he with rfl | he
    · exact s.push_typeAt? t _ _ _
    · exact hpush.typedNulls e he

theorem WellTyped.typeAt?_typedNull (h : s.WellTyped c) (t : TypeName) :
    (s.typedNull t).2.typeAt? (s.typedNull t).1 = some t :=
  h.typedNull.typedNulls (t, _) (Workshop.mem_of_lookup (s.lookup_typedNull t))

theorem WellTyped.pushDegenerate (h : s.WellTyped c) (subject : String)
    (reason : DegradationReason) :
    (s.pushDegenerate t origin hint subject reason).2.WellTyped c := by
  have hpush : (s.push t origin .degenerate hint).2.WellTyped c := h.push fun hcall => by cases hcall
  exact { hpush with }

theorem WellTyped.forgetCycle (h : s.WellTyped c) (t : TypeName) :
    (s.forgetCycle t).WellTyped c := { h with }

/-- Where a cycle was cut nothing is built, otherwise what the recipe builds. -/
theorem WellTyped.complete (h : s.WellTyped c) (hfollows : s.Follows c t construction) :
    (s.complete t origin construction hint).2.WellTyped c := by
  rw [Store.complete]
  split
  · split
    · exact h.forgetCycle t
    · exact (h.forgetCycle t).push fun _ => .inr (hfollows.later List.prefix_rfl)
  · exact h.push fun _ => .inr hfollows

theorem WellTyped.enroll (h : s.WellTyped c) {component : Component} {args : List StandInRef}
    (hargs : s.ServesAll c component.constructorParams args) :
    (s.enroll component args).2.WellTyped c := by
  have hgrows := s.enroll_grows component args
  apply h.grow hgrows (fun _ => .inl) (fun _ => .inl)
  · intro e he
    rcases List.mem_append.1 he with hold | hnew
    · exact .inl hold
    · obtain rfl := List.mem_singleton.1 hnew
      exact .inr ⟨_, args, get?_push_new, rfl, rfl, hargs.later hgrows.arena⟩
  · intro x y hy hcall
    rcases get?_push hy with hold | ⟨rfl, rfl⟩
    · exact .inl hold
    · exact .inr (.inl ⟨_, rfl⟩)

/-- A shared object serves for the type that was asked for and for its own. -/
theorem WellTyped.settleAmbient (h : s.WellTyped c) (hx : s.Serves c t x) :
    (s.settleAmbient t x).2.WellTyped c ∧
      (s.settleAmbient t x).2.Serves c t (s.settleAmbient t x).1 := by
  have hambients : ∀ e ∈ (s.settleAmbient t x).2.ambients, s.Serves c e.1 e.2 := by
    intro e he
    rcases mem_settleAmbient he with hold | ⟨rfl, rfl | hown⟩
    · exact h.ambients e hold
    · exact hx
    · exact serves_own hown
  have htyped : (s.settleAmbient t x).2.WellTyped c := by
    obtain ⟨ambients, heq⟩ := s.settleAmbient_eq t x
    rw [heq] at hambients ⊢
    exact { h with ambients := hambients }
  exact ⟨htyped, htyped.ambients (t, _) (Workshop.mem_of_lookup (s.lookup_settleAmbient t x))⟩

/-- What the registry itself remembers has no type. -/
theorem WellTyped.remember (h : s.WellTyped c) (hsame : s.SameObjects s') : s'.WellTyped c := by
  have hget : s'.get? = s.get? := funext fun x => get?_of_arena hsame.arena x
  have htypes : s'.typeAt? = s.typeAt? := funext fun x => by rw [typeAt?, hget, typeAt?]
  have hserves : s'.Serves c = s.Serves c := by
    unfold Serves
    rw [htypes]
  obtain ⟨hambients, hnulls, hinstances, hcalls⟩ := h
  constructor
  · rw [hsame.ambients, hserves]
    exact hambients
  · rw [hsame.typedNulls, htypes]
    exact hnulls
  · unfold Instantiates ServesAll
    rw [hsame.components, hget, hserves]
    exact hinstances
  · unfold Follows ServesAll
    rw [hget, hserves]
    exact hcalls

theorem WellTyped.component? (h : s.WellTyped c) (hx : s.component? t = some x) :
    s.typeAt? x = some t := by
  obtain ⟨e, he, rfl⟩ := Option.map_eq_some_iff.1 hx
  obtain ⟨y, -, hy, hname, -⟩ := h.instances e (List.mem_of_find?_eq_some he)
  have hkey : e.1.name = t := by simpa using List.find?_some he
  rw [typeAt?, hy, Option.map_some, hname, hkey]

end Store

/-! ### Fabrication -/

namespace Workshop

/-- From a well typed store a well typed one is left, whose answer serves for the type. -/
def AnswersTyped (w : Workshop) (t : TypeName) (s : Store) (out : StandInRef × Store) : Prop :=
  s.WellTyped w.catalog → out.2.WellTyped w.catalog ∧ out.2.Serves w.catalog t out.1

variable {w : Workshop} {t : TypeName} {s : Store}

theorem AnswersTyped.value (hs : s.Sound) : w.AnswersTyped t s (s.value w.arrayLength t) :=
  fun h => ⟨h.value, Store.serves_own
    ((hs.value w.arrayLength t).values t _ (mem_of_lookup (s.lookup_value _ t)))⟩

theorem AnswersTyped.typedNull : w.AnswersTyped t s (s.typedNull t) :=
  fun h => ⟨h.typedNull, Store.serves_own (h.typeAt?_typedNull t)⟩

theorem AnswersTyped.pushDegenerate (origin : Origin) (hint subject : String)
    (reason : DegradationReason) :
    w.AnswersTyped t s (s.pushDegenerate t origin hint subject reason) :=
  fun h => ⟨h.pushDegenerate subject reason, Store.serves_own (s.push_typeAt? t origin _ hint)⟩

/-- Whatever is asked for, the answer serves for its type. -/
theorem fabrication_typed (w : Workshop) (batch : List Component) :
    (∀ u t s, s.Sound → w.AnswersTyped t s (w.ambient batch u t s)) ∧
    (∀ u t origin hint s, s.Sound → w.AnswersTyped t s (w.fabricate batch u t origin hint s)) ∧
    (∀ u params s, s.Sound → s.WellTyped w.catalog →
      (w.materialize batch u params s).2.WellTyped w.catalog ∧
        (w.materialize batch u params s).2.ServesAll w.catalog (params.map (·.typeName))
          (w.materialize batch u params s).1) ∧
    (∀ u p s, s.Sound → w.AnswersTyped p.typeName s (w.supply batch u p s)) := by
  apply w.fabrication_induction batch
    (fun _ t s out => w.AnswersTyped t s out)
    (fun _ t _ _ s out => w.AnswersTyped t s out)
    (fun _ params s out => s.WellTyped w.catalog → out.2.WellTyped w.catalog ∧
      out.2.ServesAll w.catalog (params.map (·.typeName)) out.1)
    (fun _ p s out => w.AnswersTyped p.typeName s out)
  case registered =>
      intro u t s x hs hx h
      exact ⟨h, Store.serves_own (h.component? hx)⟩
  case cutClass =>
      intro u s component hs hnew hfind hbusy h
      obtain ⟨htyped, hserves⟩ := AnswersTyped.typedNull (t := component.name) h
      exact ⟨{ htyped with }, hserves⟩
  case enrolled =>
      intro u s component args hs hnew hfind hbusy hargs hstill ih h
      obtain ⟨htyped, hserves⟩ := ih h
      rw [ParamSource.map_ofType_typeName] at hserves
      exact ⟨htyped.enroll hserves, Store.serves_own (args.2.push_typeAt? component.name _ _ _)⟩
  case known =>
      intro u t s x hs hnew hfind hx h
      exact ⟨h, h.ambients (t, x) (mem_of_lookup hx)⟩
  case plain =>
      intro u t s hs hnew hfind hambient hplain
      exact .value hs
  case settled =>
      intro u t s made hs hnew hfind hambient hplain hmade ih h
      obtain ⟨htyped, hserves⟩ := ih h
      exact htyped.settleAmbient hserves
  case fabricatedPlain =>
      intro u t origin hint s hs hplain
      exact .value hs
  case cutType =>
      intro u t origin hint s hs hplain hbusy h
      obtain ⟨htyped, hserves⟩ := AnswersTyped.pushDegenerate origin hint t.text .cycle h
      exact ⟨{ htyped with }, hserves⟩
  case noRecipe =>
      intro u t origin hint s hs hplain hbusy hrecipe
      exact .pushDegenerate origin hint t.text .noRecipe
  case unfabricable =>
      intro u t origin hint s hs hplain hbusy hrecipe h
      obtain ⟨htyped, hserves⟩ := AnswersTyped.pushDegenerate origin hint t.text .unfabricable h
      exact ⟨htyped.forgetCycle t, hserves⟩
  case staticField =>
      intro u t origin hint s owner field hs hplain hbusy hrecipe h
      have htyped : (s.push t origin (.staticField owner field) hint).2.WellTyped w.catalog :=
        h.push fun hcall => by cases hcall
      exact ⟨htyped.forgetCycle t, Store.serves_own (s.push_typeAt? t origin _ hint)⟩
  case substituted =>
      intro u t origin hint s concrete made hs hplain hbusy hrecipe hmade ih h
      obtain ⟨htyped, hserves⟩ := ih h
      exact ⟨htyped.forgetCycle t, hserves.substitute hrecipe⟩
  case completed =>
      intro u t origin hint s recipe args construction hs hplain hbusy hrecipe hbuilds hargs ih h
      obtain ⟨htyped, hserves⟩ := ih h
      have hfollows : args.2.Follows w.catalog t construction :=
        ⟨recipe, args.1, hrecipe, hbuilds, hserves⟩
      exact ⟨(htyped.complete hfollows).forgetCycle t,
        Store.serves_own (((hargs hs).1.sound hs).complete_typeAt? t origin construction hint)⟩
  case nil =>
      intro u s hs h
      exact ⟨h, .nil⟩
  case cons =>
      intro u p ps s first rest hs hfirst hrest ihfirst ihrest h
      obtain ⟨htyped, hserves⟩ := ihfirst h
      obtain ⟨hlast, hservesAll⟩ := ihrest htyped
      have hgrows := (hrest ((hfirst hs).1.sound hs)).1.grows
      exact ⟨hlast, .cons (hserves.later hgrows.arena) hservesAll⟩
  case object =>
      intro u p s out hs hshared ih
      exact ih
  case typedNull =>
      intro u t s hs
      exact .typedNull
  case value =>
      intro u t s hs
      exact .value hs

theorem register_wellTyped (w : Workshop) (batch : List Component) (component : Component)
    {s : Store} (hs : s.Sound) (h : s.WellTyped w.catalog) :
    (w.register batch component s).2.WellTyped w.catalog := by
  rw [register]
  split
  · exact h
  · obtain ⟨htyped, hserves⟩ := (w.fabrication_typed batch).2.2.1
      (Underway.enterClass {} component.name) (component.constructorParams.map .ofType) s hs h
    rw [ParamSource.map_ofType_typeName] at hserves
    exact htyped.enroll hserves

end Workshop

/-! ### Registries -/

theorem Store.Change.wellTyped {w : Workshop} {s s' : Store} (hchange : Store.Change w s s')
    (hs : s.Sound) (h : s.WellTyped w.catalog) : s'.WellTyped w.catalog := by
  obtain ⟨hambient, hfabricate, -, -⟩ := w.fabrication_typed []
  cases hchange with
  | remember hsame hsound => exact h.remember hsame
  | fabricate t id hint => exact (hfabricate {} t _ hint s hs h).1
  | ambient t => exact (hambient {} t s hs h).1
  | value t => exact h.value
  | register batch component => exact w.register_wellTyped batch component hs h
  | missing => exact h.pushDegenerate _ _
  | service name subject hnew =>
      have hmade : (s.pushDegenerate TypeName.object .ambient ("service_" ++ name) subject
        .unknownService).2.WellTyped w.catalog := h.pushDegenerate _ _
      exact { hmade with }
  | unresolved | derived => exact h.push fun hcall => by cases hcall

namespace Registry

variable {r : Registry}

theorem Reachable.wellTyped (h : Reachable r) : r.store.WellTyped r.catalog :=
  h.of_catalog_changes Store.wellTyped_empty Store.Change.wellTyped

theorem ambient_serves (h : Reachable r) (t : TypeName) :
    (r.ambient t).2.store.Serves r.catalog t (r.ambient t).1 :=
  ((r.workshop.fabrication_typed []).1 {} t r.store h.sound h.wellTyped).2

/-- The first view of an identifier is of the type that it is made with, or the instance of the
component of this name. -/
theorem resolve_serves (h : Reachable r) {id : ResourceId} (hnew : r.findViewById? id = none)
    (t : TypeName) : (r.resolve id t).2.store.Serves r.catalog t (r.resolve id t).1 := by
  rw [resolve, hnew]
  dsimp only
  cases hinstance : r.store.component? t with
  | some x => exact Store.serves_own (h.wellTyped.component? hinstance)
  | none => exact ((r.workshop.fabrication_typed []).2.1 {} t _ _ r.store h.sound h.wellTyped).2

/-- **The arena is well typed.** What is shared for a type, and what an identifier is resolved with,
is of this type or of one that substitutions lead to, now and in every later registry. A constructor
or a static method is called as the recipe of the type says, with one argument for each parameter,
which serves for the type of the parameter; and so is the constructor of a component. -/
theorem arena_well_typed (h : Reachable r) :
    (∀ t x, r.lookupAmbient? t = some x → r.store.Serves r.catalog t x) ∧
    (∀ t late, Leads (r.ambient t).2 late → late.store.Serves r.catalog t (r.ambient t).1) ∧
    (∀ id t late, r.findViewById? id = none → Leads (r.resolve id t).2 late →
      late.store.Serves r.catalog t (r.resolve id t).1) ∧
    (∀ x y args, r.get? x = some y → (y.origin = .ambient ∨ ∃ id, y.origin = .identifier id) →
      (y.construction = .constructor args →
        ∃ params, r.catalog.recipeFor y.typeName = some (.constructor params) ∧
          r.store.ServesAll r.catalog (params.map (·.typeName)) args) ∧
      ∀ owner method, y.construction = .staticFactory owner method args →
        ∃ params, r.catalog.recipeFor y.typeName = some (.staticFactory owner method params) ∧
          r.store.ServesAll r.catalog (params.map (·.typeName)) args) ∧
    ∀ component x, (component, x) ∈ r.components → ∃ y args, r.get? x = some y ∧
      y.typeName = component.name ∧ y.construction = .constructor args ∧
      r.store.ServesAll r.catalog component.constructorParams args := by
  have htyped := h.wellTyped
  refine ⟨fun t x hx => htyped.ambients (t, x) (Workshop.mem_of_lookup hx), ?_, ?_, ?_,
    fun component x hx => htyped.instances (component, x) hx⟩
  · intro t late hlead
    have hlater := hlead.evolves (ambient_gives h.sound t).sound
    exact (ambient_serves h t).later hlater.grows.arena
  · intro id t late hnew hlead
    have hlater := hlead.evolves (resolve_gives h.sound id t).sound
    exact (resolve_serves h hnew t).later hlater.grows.arena
  · intro x y args hy horigin
    have hfollows : y.construction.isCall = true →
        r.store.Follows r.catalog y.typeName y.construction := by
      intro hcall
      refine (htyped.calls x y hy hcall).resolve_left ?_
      rintro ⟨kind, hkind⟩
      rcases horigin with horigin | ⟨id, horigin⟩ <;> rw [hkind] at horigin <;> cases horigin
    constructor
    · intro hbuilt
      rw [hbuilt] at hfollows
      obtain ⟨recipe, args', hrecipe, hbuilds, hserves⟩ := hfollows rfl
      cases hbuilds with
      | constructor params => exact ⟨params, hrecipe, hserves⟩
    · intro owner method hbuilt
      rw [hbuilt] at hfollows
      obtain ⟨recipe, args', hrecipe, hbuilds, hserves⟩ := hfollows rfl
      cases hbuilds with
      | staticFactory _ _ params => exact ⟨params, hrecipe, hserves⟩

/-- A facade whose concrete class needs a context. -/
def facadeCatalog : FrameworkCatalog where
  recipes := [(⟨"app.Facade"⟩, .substitute ⟨"app.Core"⟩),
    (⟨"app.Core"⟩, .constructor [.context])]

/-- A component that is constructed with the facade. -/
def facadeRegistry : Registry :=
  ((new facadeCatalog).registerComponent
    { name := ⟨"app.Main"⟩, kind := .activity, constructorParams := [⟨"app.Facade"⟩] }).2

theorem facadeRegistry_reachable : Reachable facadeRegistry :=
  .step (.registerComponent
    { name := ⟨"app.Main"⟩, kind := .activity, constructorParams := [⟨"app.Facade"⟩] })
    (.new facadeCatalog 1) rfl

/-- The component is passed the concrete object, whose constructor is passed the context. -/
theorem facade_well_typed : Reachable facadeRegistry ∧
    facadeRegistry.lookupAmbient? ⟨"app.Facade"⟩ = some ⟨1⟩ ∧
    facadeRegistry.store.Serves facadeRegistry.catalog ⟨"app.Facade"⟩ ⟨1⟩ ∧
    ∃ params, facadeRegistry.catalog.recipeFor ⟨"app.Core"⟩ = some (.constructor params) ∧
      facadeRegistry.store.ServesAll facadeRegistry.catalog (params.map (·.typeName)) [⟨0⟩] := by
  obtain ⟨hshared, -, -, hcalls, -⟩ := arena_well_typed facadeRegistry_reachable
  have hfound : facadeRegistry.lookupAmbient? ⟨"app.Facade"⟩ = some ⟨1⟩ := by decide +kernel
  have hcore : facadeRegistry.get? ⟨1⟩ = some
      ⟨⟨1⟩, ⟨"app.Core"⟩, .ambient, .constructor [⟨0⟩], "ambientFacade"⟩ := by decide +kernel
  exact ⟨facadeRegistry_reachable, hfound, hshared _ _ hfound,
    (hcalls ⟨1⟩ _ [⟨0⟩] hcore (.inl rfl)).1 rfl⟩

end Registry
end AppDriver
