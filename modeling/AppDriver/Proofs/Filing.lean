import AppDriver.Proofs.Enrolment
import AppDriver.Proofs.FabricationInduction
import AppDriver.Proofs.SharedObjects

/-! Arena and tables. Each stand-in is numbered by its place and built from earlier ones, and where
its origin names a key it is the answer to this key; conversely what a table answers has an origin
of the kind of the table. What is fabricated for an identifier is on file only once the registry has
bound it: until then it is the one loose stand-in. -/

namespace AppDriver

/-- Whether a stand-in is numbered by its place and built from stand-ins at earlier ones. -/
structure StandIn.IsPlacedAt (y : StandIn) (x : StandInRef) : Prop where
  id : y.id = x
  reads : ∀ d ∈ y.construction.dependencies, d.index < x.index

/-- Whether a lookup of an identifier can answer with a stand-in of this origin. -/
def Origin.Answers (origin : Origin) (id : ResourceId) : Prop :=
  origin = .identifier id ∨ origin = .unresolved (some id) ∨ (∃ kind, origin = .component kind) ∨
    origin = .value

namespace Store

variable {s s' : Store} {t : TypeName} {origin : Origin} {construction : Construction}
  {hint : String} {x : StandInRef} {y : StandIn} {n : Nat} {batch : List Component}
  {busy : List TypeName} {loose : List (StandInRef × Origin)}

/-- Whether a stand-in is the answer to the key that its origin names. -/
def OnFile (s : Store) (x : StandInRef) (y : StandIn) : Prop :=
  match y.origin with
  | .identifier id | .unresolved (some id) => s.byIdentifier.lookup id = some x
  | .unresolved none => s.unresolved.lookup y.typeName = some x
  | .ambient => True
  | .component _ => s.component? y.typeName = some x
  | .derived parent getter => s.derived.lookup (parent, getter) = some x ∧ parent.index < x.index
  | .value => s.values.lookup y.typeName = some x

theorem OnFile.grow (hgrows : s.Grows s') (h : s.OnFile x y) : s'.OnFile x y := by
  unfold OnFile at h ⊢
  split at h
  · exact hgrows.byIdentifier _ x h
  · exact hgrows.byIdentifier _ x h
  · exact hgrows.unresolved _ x h
  · trivial
  · exact hgrows.component? h
  · exact ⟨hgrows.derived _ x h.1, h.2⟩
  · exact hgrows.values _ x h

theorem get?_push (h : (s.push t origin construction hint).2.get? x = some y) :
    s.get? x = some y ∨ x = (s.push t origin construction hint).1 ∧
      y = ⟨x, t, origin, construction, Label.fresh s.labels hint⟩ := by
  simp only [push, get?, List.getElem?_append] at h ⊢
  split at h
  · exact Or.inl h
  · rename_i hlast
    right
    obtain ⟨hlt, rfl⟩ := List.getElem?_eq_some_iff.1 h
    obtain ⟨index⟩ := x
    obtain rfl : index = s.arena.length := by
      simp only [List.length_singleton] at hlt hlast
      omega
    simp

theorem get?_of_arena (harena : s'.arena = s.arena) (x : StandInRef) : s'.get? x = s.get? x := by
  rw [get?, harena, get?]

theorem has_of_get? (h : s.get? x = some y) : s.Has x := (List.getElem?_eq_some_iff.1 h).1

/-! ### From the arena to the tables -/

/-- Every stand-in is in place, and all but the loose ones are on file. -/
structure Filed (loose : List (StandInRef × Origin)) (s : Store) : Prop where
  placed : ∀ x y, s.get? x = some y → y.IsPlacedAt x
  onFile : ∀ x y, s.get? x = some y → s.OnFile x y ∨ (x, y.origin) ∈ loose

theorem Filed.loosen (h : s.Filed []) : s.Filed loose :=
  ⟨h.placed, fun x y hy => Or.inl ((h.onFile x y hy).resolve_right (List.not_mem_nil))⟩

theorem Filed.grow (h : s.Filed loose) (hgrows : s.Grows s') (harena : s'.arena = s.arena) :
    s'.Filed loose := by
  have hget := get?_of_arena harena
  refine ⟨fun x y hy => h.placed x y (hget x ▸ hy), fun x y hy => ?_⟩
  exact (h.onFile x y (hget x ▸ hy)).imp_left (.grow hgrows)

/-- What was loose is filed. -/
theorem Filed.settle (h : s.Filed [(x, origin)])
    (hx : ∀ y, s.get? x = some y → y.origin = origin → s.OnFile x y) : s.Filed [] := by
  refine ⟨h.placed, fun z y hy => ?_⟩
  rcases h.onFile z y hy with hfile | hloose
  · exact Or.inl hfile
  · obtain ⟨rfl, rfl⟩ := Prod.mk.inj (List.mem_singleton.1 hloose)
    exact Or.inl (hx y hy rfl)

theorem Filed.settle_ambient (h : s.Filed [(x, .ambient)]) : s.Filed [] := by
  apply h.settle
  intro y _ horigin
  simp [OnFile, horigin]

theorem Filed.push (h : s.Filed []) (hargs : s.HasAll construction.dependencies) :
    (s.push t origin construction hint).2.Filed
      [((s.push t origin construction hint).1, origin)] := by
  constructor
  · intro x y hy
    rcases get?_push hy with hold | ⟨rfl, rfl⟩
    · exact h.placed x y hold
    · exact ⟨rfl, hargs⟩
  · intro x y hy
    rcases get?_push hy with hold | ⟨rfl, rfl⟩
    · have hfile := (h.onFile x y hold).resolve_right List.not_mem_nil
      exact Or.inl (hfile.grow (s.push_grows t _ _ _))
    · exact Or.inr (List.mem_singleton.2 rfl)

/-- A stand-in that is added and entered in a table right away. -/
theorem Filed.push_enter (h : s.Filed []) (t : TypeName) (origin : Origin)
    (construction : Construction) (hint : String) (hargs : s.HasAll construction.dependencies)
    (hgrows : (s.push t origin construction hint).2.Grows s')
    (harena : s'.arena = (s.push t origin construction hint).2.arena)
    (hfile : ∀ y : StandIn, y.typeName = t → y.origin = origin →
      s'.OnFile (s.push t origin construction hint).1 y) : s'.Filed [] := by
  apply ((h.push hargs).grow hgrows harena).settle
  intro y hy horigin
  refine hfile y ?_ horigin
  have htype := s.push_typeAt? t origin construction hint
  rw [typeAt?, ← get?_of_arena harena, hy] at htype
  exact Option.some.inj htype

theorem Filed.value (h : s.Filed []) : (s.value n t).2.Filed [] := by
  rw [Store.value]
  split
  · exact h
  · rename_i hnew
    refine h.push_enter t .value _ _ ?_ { Grows.refl _ with values := keeps_cons hnew _ } rfl ?_
    · intro d hd
      cases helement : t.elementType <;> simp [helement, Construction.dependencies] at hd
    · intro y htype horigin
      simp [OnFile, horigin, htype]

theorem Filed.typedNull (h : s.Filed []) : (s.typedNull t).2.Filed [] := by
  rw [Store.typedNull]
  split
  · exact h
  · rename_i hnew
    refine h.push_enter t .ambient .degenerate _ (fun d hd => by cases hd)
      { Grows.refl _ with typedNulls := keeps_cons hnew _ } rfl ?_
    intro y _ horigin
    simp [OnFile, horigin]

theorem Filed.pushDegenerate (h : s.Filed []) (subject : String) (reason : DegradationReason) :
    (s.pushDegenerate t origin hint subject reason).2.Filed
      [((s.pushDegenerate t origin hint subject reason).1, origin)] :=
  (h.push fun d hd => by cases hd).grow { Grows.refl _ with } rfl

theorem Filed.complete (h : s.Filed []) (hargs : s.HasAll construction.dependencies) :
    (s.complete t origin construction hint).2.Filed
      [((s.complete t origin construction hint).1, origin)] := by
  have hforget : (s.forgetCycle t).Filed [] := h.grow { Grows.refl s with } rfl
  rw [Store.complete]
  split
  · split
    · exact hforget.loosen
    · exact hforget.push hargs
  · exact h.push hargs

theorem Filed.enroll (h : s.Filed []) {c : Component} (hnew : s.component? c.name = none)
    {args : List StandInRef} (hargs : s.HasAll args) : (s.enroll c args).2.Filed [] := by
  refine h.push_enter c.name (.component c.kind) (.constructor args) _ hargs
    { Grows.refl _ with components := List.prefix_append _ _ } rfl ?_
  intro y htype horigin
  simp only [OnFile, horigin, htype]
  exact component?_enroll hnew args

theorem Filed.settleAmbient (h : s.Filed []) (x : StandInRef) :
    (s.settleAmbient t x).2.Filed [] :=
  h.grow (s.settleAmbient_grows t x) (s.settleAmbient_untouched t x).1

/-! ### From the tables to the arena -/

/-- What a table answers has an origin of the kind of the table. -/
structure Traced (s : Store) : Prop where
  values : ∀ e ∈ s.values, s.originAt? e.2 = some .value
  typedNulls : ∀ e ∈ s.typedNulls, ∃ y, s.get? e.2 = some y ∧ y.typeName = e.1 ∧
    y.origin = .ambient ∧ y.construction = .degenerate
  instances : ∀ e ∈ s.components, ∃ y, s.get? e.2 = some y ∧ y.typeName = e.1.name ∧
    y.origin = .component e.1.kind
  views : ∀ e ∈ s.byIdentifier, ∃ origin, s.originAt? e.2 = some origin ∧ origin.Answers e.1

theorem get?_push_new : (s.push t origin construction hint).2.get?
    (s.push t origin construction hint).1 =
      some ⟨⟨s.arena.length⟩, t, origin, construction, Label.fresh s.labels hint⟩ := by
  simp [push, get?]

theorem Grows.get?_some (h : s.Grows s') (hy : s.get? x = some y) : s'.get? x = some y := by
  rw [h.get? (has_of_get? hy), hy]

theorem Traced.extend (h : s.Traced) (hgrows : s.Grows s')
    (hvalues : s'.values = s.values) (hnulls : s'.typedNulls = s.typedNulls)
    (hcomponents : s'.components = s.components) (hviews : s'.byIdentifier = s.byIdentifier) :
    s'.Traced := by
  constructor
  · rw [hvalues]
    exact fun e he => hgrows.originAt? (h.values e he)
  · rw [hnulls]
    intro e he
    obtain ⟨y, hy, hrest⟩ := h.typedNulls e he
    exact ⟨y, hgrows.get?_some hy, hrest⟩
  · rw [hcomponents]
    intro e he
    obtain ⟨y, hy, hrest⟩ := h.instances e he
    exact ⟨y, hgrows.get?_some hy, hrest⟩
  · rw [hviews]
    intro e he
    obtain ⟨origin, horigin, hrest⟩ := h.views e he
    exact ⟨origin, hgrows.originAt? horigin, hrest⟩

theorem Traced.push (h : s.Traced) : (s.push t origin construction hint).2.Traced :=
  h.extend (s.push_grows t origin construction hint) rfl rfl rfl rfl

theorem settleAmbient_eq (s : Store) (t : TypeName) (x : StandInRef) :
    ∃ ambients, (s.settleAmbient t x).2 = { s with ambients := ambients } := by
  rw [Store.settleAmbient]
  split
  · exact ⟨s.ambients, rfl⟩
  · dsimp only
    split
    · exact ⟨_, rfl⟩
    · split <;> exact ⟨_, rfl⟩

theorem Effect.traced (heffect : Effect n batch busy s s') (h : s.Traced) : s'.Traced := by
  cases heffect with
  | value t =>
      rw [Store.value]
      split
      · exact h
      · refine { h.push with values := ?_ }
        intro e he
        rcases List.mem_cons.1 he with rfl | he
        · exact s.originAt?_push t _ _ _
        · exact h.push.values e he
  | typedNull t =>
      rw [Store.typedNull]
      split
      · exact h
      · refine { h.push with typedNulls := ?_ }
        intro e he
        rcases List.mem_cons.1 he with rfl | he
        · exact ⟨_, get?_push_new, rfl, rfl, rfl⟩
        · exact h.push.typedNulls e he
  | push => exact h.push
  | record | forgetCycle => exact { h with }
  | cutCycle => exact { h.push with }
  | settleAmbient =>
      obtain ⟨ambients, heq⟩ := s.settleAmbient_eq _ _
      rw [heq]
      exact { h with }
  | enroll =>
      refine { h.push with instances := ?_ }
      intro e he
      rcases List.mem_append.1 he with hold | hnew
      · exact h.push.instances e hold
      · obtain rfl := List.mem_singleton.1 hnew
        exact ⟨_, get?_push_new, rfl, rfl⟩

theorem Runs.traced (hruns : Runs n batch busy s s') (h : s.Traced) : s'.Traced :=
  hruns.rel (R := fun s s' => s.Traced → s'.Traced) (fun _ h => h) (fun h h' hs => h' (h hs))
    Effect.traced h

end Store

namespace Workshop

/-- What is fabricated with an origin has this origin or is a plain value, and it is the one
stand-in that may be loose. -/
structure Files (origin : Origin) (s : Store) (out : StandInRef × Store) : Prop where
  filed : s.Filed [] → out.2.Filed [(out.1, origin)]
  made : origin ≠ .ambient → s.Traced →
    out.2.originAt? out.1 = some origin ∨ out.2.originAt? out.1 = some .value

theorem Files.completed {origin : Origin} {s : Store} {args : List StandInRef × Store}
    (hargs : args.2.HasAll args.1) (h : s.Filed [] → args.2.Filed []) {t : TypeName}
    {construction : Construction} (hreads : construction.dependencies = args.1) {hint : String} :
    Files origin s ((args.2.complete t origin construction hint).1,
      (args.2.complete t origin construction hint).2.forgetCycle t) := by
  constructor
  · intro hs
    exact ((h hs).complete (hreads ▸ hargs)).grow { Store.Grows.refl _ with } rfl
  · intro hambient _
    left
    rw [Store.complete]
    split
    · rw [if_neg hambient]
      exact Store.originAt?_push _ t origin _ _
    · exact Store.originAt?_push _ t origin _ _

theorem Files.pushed {origin : Origin} {s s' : Store} {t : TypeName} {construction : Construction}
    {hint : String} (hreads : construction.dependencies = [])
    (hgrows : (s.push t origin construction hint).2.Grows s')
    (harena : s'.arena = (s.push t origin construction hint).2.arena) :
    Files origin s ((s.push t origin construction hint).1, s') := by
  constructor
  · intro hs
    refine (hs.push ?_).grow hgrows harena
    rw [hreads]
    exact fun d hd => by cases hd
  · intro _ _
    exact Or.inl (hgrows.originAt? (s.originAt?_push t origin construction hint))

theorem fabrication_files (w : Workshop) (batch : List Component) :
    (∀ u t s, s.Sound → s.Filed [] → (w.ambient batch u t s).2.Filed []) ∧
    (∀ u t origin hint s, s.Sound → Files origin s (w.fabricate batch u t origin hint s)) ∧
    (∀ u params s, s.Sound → s.Filed [] → (w.materialize batch u params s).2.Filed []) ∧
    (∀ u p s, s.Sound → s.Filed [] → (w.supply batch u p s).2.Filed []) := by
  apply w.fabrication_induction batch
    (fun _ _ s out => s.Filed [] → out.2.Filed [])
    (fun _ _ origin _ s out => Files origin s out)
    (fun _ _ s out => s.Filed [] → out.2.Filed [])
    (fun _ _ s out => s.Filed [] → out.2.Filed [])
  case registered =>
      intro u t s x hs hx h
      exact h
  case cutClass =>
      intro u s c hs hnew hfind hbusy h
      exact h.typedNull.grow { Store.Grows.refl _ with } rfl
  case enrolled =>
      intro u s c args hs hnew hfind hbusy hargs hstill ih h
      exact (ih h).enroll hstill (hargs hs).2
  case known =>
      intro u t s x hs hnew hfind hx h
      exact h
  case plain =>
      intro u t s hs hnew hfind hambient hplain h
      exact h.value
  case settled =>
      intro u t s made hs hnew hfind hambient hplain hmade ih h
      exact (ih.filed h).settle_ambient.settleAmbient made.1
  case fabricatedPlain =>
      intro u t origin hint s hs hplain
      refine ⟨fun h => h.value.loosen, fun _ htraced => Or.inr ?_⟩
      have hvalue : Store.Effect w.arrayLength [] [] s _ := .value s t
      exact (hvalue.traced htraced).values _ (mem_of_lookup (s.lookup_value _ t))
  case cutType =>
      intro u t origin hint s hs hplain hbusy
      exact .pushed rfl { Store.Grows.refl _ with } rfl
  case noRecipe =>
      intro u t origin hint s hs hplain hbusy hrecipe
      exact .pushed rfl { Store.Grows.refl _ with } rfl
  case unfabricable =>
      intro u t origin hint s hs hplain hbusy hrecipe
      exact .pushed rfl { Store.Grows.refl _ with } rfl
  case staticField =>
      intro u t origin hint s owner field hs hplain hbusy hrecipe
      exact .pushed rfl { Store.Grows.refl _ with } rfl
  case substituted =>
      intro u t origin hint s concrete made hs hplain hbusy hrecipe hmade ih
      exact ⟨fun h => (ih.filed h).grow { Store.Grows.refl _ with } rfl, ih.made⟩
  case completed =>
      intro u t origin hint s recipe args construction hs hplain hbusy hrecipe hbuilds hargs ih
      exact .completed (hargs hs).2 ih hbuilds.dependencies
  case nil =>
      intro u s hs h
      exact h
  case cons =>
      intro u p ps s first rest hs hfirst hrest ihfirst ihrest h
      exact ihrest (ihfirst h)
  case object =>
      intro u p s out hs hshared ih
      exact ih
  case typedNull =>
      intro u t s hs h
      exact h.typedNull
  case value =>
      intro u t s hs h
      exact h.value

end Workshop
end AppDriver
