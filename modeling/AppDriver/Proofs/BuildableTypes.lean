import AppDriver.Proofs.Filing
import AppDriver.Proofs.RegistryChanges

/-! Types that are never degraded. Whether a type can be built is decided by its recipes alone: what
it needs can be built in turn, and so on without coming back to it. As long as none of the types
that it needs is a component class, what other types ask for cannot get in its way. A degenerate
stand-in is shared only for a type that is cut off while it is fabricated, that has no usable recipe,
or that is substituted by such a type, and none of these is among the types that it needs. -/

namespace AppDriver

open Relation (ReflTransGen TransGen)

namespace FrameworkCatalog

/-- The types that recipes build out of plain values, static fields and typed nulls. -/
inductive Buildable (c : FrameworkCatalog) : TypeName → Prop
  | plain {t : TypeName} : t.isPlainValue = true → Buildable c t
  | staticField {t owner : TypeName} {field : String} :
    c.recipeFor t = some (.staticField owner field) → Buildable c t
  | substitute {t concrete : TypeName} :
    c.recipeFor t = some (.substitute concrete) → Buildable c concrete → Buildable c t
  | constructor {t : TypeName} {params : List ParamSource} :
    c.recipeFor t = some (.constructor params) →
    (∀ p ∈ params, p.isShared = true → Buildable c p.typeName) → Buildable c t
  | staticFactory {t owner : TypeName} {method : String} {params : List ParamSource} :
    c.recipeFor t = some (.staticFactory owner method params) →
    (∀ p ∈ params, p.isShared = true → Buildable c p.typeName) → Buildable c t

/-- Whether following the recipe of a type asks for another one: the type that stands for it, or the
type of a parameter that is a shared object. The recipe of a plain type is never followed. -/
inductive Needs (c : FrameworkCatalog) : TypeName → TypeName → Prop
  | concrete {t concrete : TypeName} : t.isPlainValue = false →
    c.recipeFor t = some (.substitute concrete) → Needs c t concrete
  | param {t : TypeName} {recipe : Recipe} {p : ParamSource} : t.isPlainValue = false →
    c.recipeFor t = some recipe → p ∈ recipe.params → p.isShared = true → Needs c t p.typeName

variable {c : FrameworkCatalog} {t q : TypeName}

theorem Needs.not_plain (h : c.Needs t q) : t.isPlainValue = false := by
  cases h <;> assumption

/-- What holds of a type as soon as it holds of all that it needs, holds of every type that can be
built. -/
theorem Buildable.induction {P : TypeName → Prop}
    (hstep : ∀ t, (∀ q, c.Needs t q → c.Buildable q ∧ P q) → P t) (h : c.Buildable t) : P t := by
  have hparams : ∀ {t : TypeName} {recipe : Recipe}, c.recipeFor t = some recipe →
      (∀ concrete, recipe ≠ .substitute concrete) →
      (∀ p ∈ recipe.params, p.isShared = true → c.Buildable p.typeName ∧ P p.typeName) → P t := by
    intro t recipe hrecipe hsubstitute hparam
    refine hstep t fun q hneeds => ?_
    cases hneeds with
    | concrete _ hconcrete =>
        exact absurd (Option.some.inj (hrecipe.symm.trans hconcrete)) (hsubstitute _)
    | param _ hother hp hshared =>
        obtain rfl := Option.some.inj (hrecipe.symm.trans hother)
        exact hparam _ hp hshared
  induction h with
  | plain hplain =>
      refine hstep _ fun q hneeds => ?_
      rw [hneeds.not_plain] at hplain
      cases hplain
  | staticField hrecipe =>
      exact hparams hrecipe (fun _ => Recipe.noConfusion) fun p hp => by cases hp
  | substitute hrecipe hbuildable ih =>
      refine hstep _ fun q hneeds => ?_
      cases hneeds with
      | concrete _ hconcrete =>
          obtain rfl := Recipe.substitute.inj (Option.some.inj (hrecipe.symm.trans hconcrete))
          exact ⟨hbuildable, ih⟩
      | param _ hother hp _ =>
          obtain rfl := Option.some.inj (hrecipe.symm.trans hother)
          cases hp
  | constructor hrecipe hbuildable ih =>
      exact hparams hrecipe (fun _ => Recipe.noConfusion)
        fun p hp hshared => ⟨hbuildable p hp hshared, ih p hp hshared⟩
  | staticFactory hrecipe hbuildable ih =>
      exact hparams hrecipe (fun _ => Recipe.noConfusion)
        fun p hp hshared => ⟨hbuildable p hp hshared, ih p hp hshared⟩

/-- A type that can be built does not need itself. -/
theorem Buildable.acyclic (h : c.Buildable t) : ¬TransGen c.Needs t t := by
  refine h.induction (P := fun t => ¬TransGen c.Needs t t) fun t ih hcycle => ?_
  obtain ⟨q, hneeds, hback⟩ := TransGen.head'_iff.1 hcycle
  exact (ih q hneeds).2 (TransGen.tail' hback hneeds)

theorem Buildable.recipe (h : c.Buildable t) (hplain : t.isPlainValue = false) :
    ∃ recipe, c.recipeFor t = some recipe ∧ recipe ≠ .unfabricable := by
  cases h with
  | plain hvalue =>
      rw [hplain] at hvalue
      cases hvalue
  | staticField hrecipe => exact ⟨_, hrecipe, Recipe.noConfusion⟩
  | substitute hrecipe => exact ⟨_, hrecipe, Recipe.noConfusion⟩
  | constructor hrecipe => exact ⟨_, hrecipe, Recipe.noConfusion⟩
  | staticFactory hrecipe => exact ⟨_, hrecipe, Recipe.noConfusion⟩

/-- Types that can be built, with all that they need. -/
structure BuildsAll (c : FrameworkCatalog) (D : TypeName → Prop) : Prop where
  buildable : ∀ t, D t → c.Buildable t
  needs : ∀ t q, D t → c.Needs t q → D q

variable {D : TypeName → Prop}

theorem BuildsAll.trans (h : c.BuildsAll D) (ht : D t) (hq : TransGen c.Needs t q) : D q := by
  induction hq with
  | single hneeds => exact h.needs t _ ht hneeds
  | tail _ hneeds ih => exact h.needs _ _ ih hneeds

theorem Buildable.buildsAll (h : c.Buildable t) : c.BuildsAll (ReflTransGen c.Needs t) := by
  refine ⟨fun q hq => ?_, fun _ _ => ReflTransGen.tail⟩
  induction hq with
  | refl => exact h
  | tail _ hneeds ih =>
      exact ih.induction (P := fun t => ∀ q, c.Needs t q → c.Buildable q)
        (fun _ ih q hneeds => (ih q hneeds).1) _ hneeds

end FrameworkCatalog

namespace Store

variable {s s' : Store} {D : TypeName → Prop} {t : TypeName} {x : StandInRef} {n : Nat}
  {origin : Origin} {construction : Construction} {hint : String}

/-- Whether a reference denotes a stand-in that is not degenerate. -/
def IsSturdy (s : Store) (x : StandInRef) : Prop :=
  ∃ y, s.get? x = some y ∧ y.isDegenerate = false

theorem IsSturdy.grow (hgrows : s.Grows s') (h : s.IsSturdy x) : s'.IsSturdy x := by
  obtain ⟨y, hy, hsturdy⟩ := h
  exact ⟨y, hgrows.get?_some hy, hsturdy⟩

theorem isSturdy_push (s : Store) (t : TypeName) (origin : Origin) (hint : String)
    (hmade : construction ≠ .degenerate) :
    (s.push t origin construction hint).2.IsSturdy (s.push t origin construction hint).1 :=
  ⟨_, get?_push_new, beq_eq_false_iff_ne.2 hmade⟩

/-- Whether no component class is one of certain types. -/
def Spares (D : TypeName → Prop) (s : Store) : Prop := ∀ t, D t → s.component? t = none

theorem Spares.of_components (hcomponents : s.components <+: s'.components) (h : s'.Spares D) :
    s.Spares D := by
  intro t ht
  obtain ⟨more, hmore⟩ := hcomponents
  have hnone := Option.map_eq_none_iff.1 (h t ht)
  rw [← hmore, List.find?_append, Option.or_eq_none_iff] at hnone
  exact Option.map_eq_none_iff.2 hnone.1

/-- Without a batch no component is registered. -/
theorem Spares.of_runs {busy : List TypeName} (hruns : Runs n [] busy s s') (h : s.Spares D) :
    s'.Spares D :=
  h.of_components (hruns.components ▸ List.prefix_rfl)

theorem Spares.not_enrolled {c : Component} {args : List StandInRef}
    (h : (s.enroll c args).2.Spares D) (hnew : s.component? c.name = none) : ¬D c.name := by
  intro hd
  have hnone := h c.name hd
  rw [component?_enroll hnew] at hnone
  cases hnone

/-- Whether plain values and the shared objects of certain types are not degenerate, and no cycle
through one of these types is cut. -/
structure Intact (D : TypeName → Prop) (s : Store) : Prop where
  values : ∀ e ∈ s.values, s.IsSturdy e.2
  shared : ∀ e ∈ s.ambients, D e.1 → s.IsSturdy e.2
  uncut : ∀ e ∈ s.cycleBreaks, ¬D e.1

theorem intact_empty (D : TypeName → Prop) : Intact D {} := by
  constructor <;> simp

theorem Intact.extend (h : s.Intact D) (hgrows : s.Grows s') (hvalues : s'.values = s.values)
    (hambients : s'.ambients = s.ambients) (hbreaks : ∀ e ∈ s'.cycleBreaks, e ∈ s.cycleBreaks) :
    s'.Intact D := by
  refine ⟨?_, ?_, fun e he => h.uncut e (hbreaks e he)⟩
  · rw [hvalues]
    exact fun e he => (h.values e he).grow hgrows
  · rw [hambients]
    exact fun e he ht => (h.shared e he ht).grow hgrows

theorem Intact.push (h : s.Intact D) : (s.push t origin construction hint).2.Intact D :=
  h.extend (s.push_grows t origin construction hint) rfl rfl fun _ => id

theorem Intact.enterValue (h : s.Intact D) (t : TypeName) (hint : String)
    (hmade : construction ≠ .degenerate) :
    Intact D { (s.push t .value construction hint).2 with
      values := (t, (s.push t .value construction hint).1) :: s.values } := by
  refine { h.push with values := ?_ }
  intro e he
  rcases List.mem_cons.1 he with rfl | he
  · exact s.isSturdy_push t .value hint hmade
  · exact h.push.values e he

theorem Intact.value (h : s.Intact D) (t : TypeName) :
    (s.value n t).2.Intact D ∧ (s.value n t).2.IsSturdy (s.value n t).1 := by
  rw [Store.value]
  split
  · rename_i x hx
    exact ⟨h, h.values _ (Workshop.mem_of_lookup hx)⟩
  · refine ⟨h.enterValue t _ ?_, s.isSturdy_push t .value _ ?_⟩ <;>
      split <;> exact Construction.noConfusion

theorem value_degradations (s : Store) (n : Nat) (t : TypeName) :
    (s.value n t).2.degradations = s.degradations := by
  rw [Store.value]
  split <;> rfl

theorem Intact.typedNull (h : s.Intact D) (t : TypeName) : (s.typedNull t).2.Intact D := by
  refine h.extend (s.typedNull_grows t) ?_ (s.typedNull_untouched t).1 ?_
  · rw [Store.typedNull]
    split <;> rfl
  · rw [(s.typedNull_untouched t).2]
    exact fun _ => id

theorem typedNull_degradations (s : Store) (t : TypeName) :
    (s.typedNull t).2.degradations = s.degradations := by
  rw [Store.typedNull]
  split <;> rfl

theorem Intact.forgetCycle (h : s.Intact D) : (s.forgetCycle t).Intact D :=
  { h with uncut := fun e he => h.uncut e (List.mem_filter.1 he).1 }

theorem Intact.complete (h : s.Intact D) :
    (s.complete t origin construction hint).2.Intact D := by
  rw [Store.complete]
  split
  · split
    · exact h.forgetCycle
    · exact h.forgetCycle.push
  · exact h.push

/-- No cycle through the type was cut, so what completes it is new. -/
theorem Intact.complete_sturdy (h : s.Intact D) (ht : D t) (hmade : construction ≠ .degenerate) :
    (s.complete t origin construction hint).2.IsSturdy
      (s.complete t origin construction hint).1 := by
  rw [Store.complete]
  split
  · rename_i broken hbroken
    exact absurd ht (h.uncut _ (Workshop.mem_of_lookup hbroken))
  · exact s.isSturdy_push t origin hint hmade

theorem complete_untouched :
    (s.complete t origin construction hint).2.components = s.components ∧
      (s.complete t origin construction hint).2.degradations = s.degradations := by
  rw [Store.complete]
  split
  · split <;> exact ⟨rfl, rfl⟩
  · exact ⟨rfl, rfl⟩

/-- What is shared for a type from now on is sturdy if the type is one of those in question, and so
is what is shared for its own type. -/
theorem Intact.settleAmbient (h : s.Intact D) (ht : D t → s.IsSturdy x)
    (hown : ∀ k, D k → s.typeAt? x = some k → s.IsSturdy x) :
    (s.settleAmbient t x).2.Intact D ∧
      (D t → (s.settleAmbient t x).2.IsSturdy (s.settleAmbient t x).1) := by
  obtain ⟨ambients, heq⟩ := s.settleAmbient_eq t x
  have hsturdy : ∀ z, s.IsSturdy z → (s.settleAmbient t x).2.IsSturdy z := by
    rw [heq]
    exact fun _ hz => hz
  have hshared : ∀ e ∈ (s.settleAmbient t x).2.ambients, D e.1 → s.IsSturdy e.2 := by
    intro e he hd
    rcases mem_settleAmbient he with hold | ⟨hx, hkey | hkey⟩
    · exact h.shared e hold hd
    · rw [hx]
      exact ht (hkey ▸ hd)
    · rw [hx]
      exact hown e.1 hd hkey
  constructor
  · refine ⟨?_, fun e he hd => hsturdy _ (hshared e he hd), ?_⟩
    · rw [heq]
      exact h.values
    · rw [heq]
      exact h.uncut
  · exact fun hd => hsturdy _
      (hshared _ (Workshop.mem_of_lookup (s.lookup_settleAmbient t x)) hd)

theorem settleAmbient_degradations :
    (s.settleAmbient t x).2.degradations = s.degradations := by
  obtain ⟨ambients, heq⟩ := s.settleAmbient_eq t x
  rw [heq]

end Store

/-! ### Fabrication -/

/-- Whether, of certain types, those that are being fabricated need a type, and none is a class that
is being built. -/
structure Underway.Heads (c : FrameworkCatalog) (D : TypeName → Prop) (u : Underway)
    (t : TypeName) : Prop where
  classes : ∀ n ∈ u.classes, ¬D n
  types : ∀ q ∈ u.types, D q → TransGen c.Needs q t

variable {c : FrameworkCatalog} {D : TypeName → Prop} {t q : TypeName} {u : Underway}

theorem Underway.heads_nil : Underway.Heads c D {} t := by
  constructor <;> simp

theorem Underway.Heads.enterType (h : u.Heads c D t) (hneeds : c.Needs t q) :
    (u.enterType t).Heads c D q := by
  refine ⟨h.classes, fun k hk hd => ?_⟩
  rcases List.mem_cons.1 hk with rfl | hk
  · exact .single hneeds
  · exact (h.types k hk hd).tail hneeds

/-- While a class is built that is not one of the types in question, none of these is being
fabricated. -/
theorem Underway.Heads.enterClass (hall : c.BuildsAll D) (h : u.Heads c D t) (ht : ¬D t) :
    (u.enterClass t).Heads c D q := by
  constructor
  · intro n hn
    rcases List.mem_cons.1 hn with rfl | hn
    · exact ht
    · exact h.classes n hn
  · exact fun k hk hd => absurd (hall.trans hd (h.types k hk hd)) ht

namespace Workshop

/-- What is obtained for a type: if it is one of those in question, a sturdy stand-in, and no
degradation is recorded. -/
structure Provides (D : TypeName → Prop) (t : TypeName) (s : Store) (out : StandInRef × Store) :
    Prop where
  intact : out.2.Intact D
  sturdy : D t → out.2.IsSturdy out.1
  unrecorded : D t → out.2.degradations = s.degradations

/-- What is fabricated can be of another type, as whose object it is shared too. -/
structure Fabricates (D : TypeName → Prop) (t : TypeName) (s : Store)
    (out : StandInRef × Store) : Prop extends Provides D t s out where
  own : ∀ k, D k → out.2.typeAt? out.1 = some k → out.2.IsSturdy out.1

/-- What is obtained for parameters. -/
structure ProvidesAll (D : TypeName → Prop) (params : List ParamSource) (s : Store)
    (out : α × Store) : Prop where
  intact : out.2.Intact D
  unrecorded : (∀ p ∈ params, p.isShared = true → D p.typeName) →
    out.2.degradations = s.degradations

variable {s : Store} {out : StandInRef × Store}

/-- For a type that is not in question it can be anything. -/
theorem provides_other (ht : ¬D t) (h : out.2.Intact D) : Provides D t s out :=
  ⟨h, fun hd => absurd hd ht, fun hd => absurd hd ht⟩

theorem Provides.fabricates (h : Provides D t s out) (htype : out.2.typeAt? out.1 = some t) :
    Fabricates D t s out := by
  refine { h with own := fun k hd hk => ?_ }
  obtain rfl := Option.some.inj (htype.symm.trans hk)
  exact h.sturdy hd

theorem fabricates_pushDegenerate (ht : ¬D t) (h : s.Intact D) (origin : Origin)
    (hint subject : String) (reason : DegradationReason) :
    Fabricates D t s (s.pushDegenerate t origin hint subject reason) := by
  have hmade : Provides D t s (s.pushDegenerate t origin hint subject reason) :=
    provides_other ht { h.push with }
  exact hmade.fabricates (s.push_typeAt? t origin .degenerate hint)

/-- A type without a usable recipe is not in question. -/
theorem not_of_no_recipe (hall : c.BuildsAll D) (hplain : t.isPlainValue = false)
    (hnone : c.recipeFor t = none ∨ c.recipeFor t = some .unfabricable) : ¬D t := by
  intro hd
  obtain ⟨recipe, hrecipe, husable⟩ := (hall.buildable t hd).recipe hplain
  rcases hnone with hnone | hnone <;> rw [hrecipe] at hnone
  · cases hnone
  · exact husable (Option.some.inj hnone)

variable (w : Workshop) (batch : List Component)

theorem fabrication_provides (hall : w.catalog.BuildsAll D) :
    (∀ u t s, s.Sound → s.Intact D → (w.ambient batch u t s).2.Spares D →
      u.Heads w.catalog D t → Provides D t s (w.ambient batch u t s)) ∧
    (∀ u t origin hint s, s.Sound → s.Intact D →
      (w.fabricate batch u t origin hint s).2.Spares D → u.Heads w.catalog D t →
      Fabricates D t s (w.fabricate batch u t origin hint s)) ∧
    (∀ u params s, s.Sound → s.Intact D → (w.materialize batch u params s).2.Spares D →
      (∀ p ∈ params, p.isShared = true → u.Heads w.catalog D p.typeName) →
      ProvidesAll D params s (w.materialize batch u params s)) ∧
    (∀ u p s, s.Sound → s.Intact D → (w.supply batch u p s).2.Spares D →
      (p.isShared = true → u.Heads w.catalog D p.typeName) →
      ProvidesAll D [p] s (w.supply batch u p s)) := by
  apply w.fabrication_induction batch
    (fun u t s out => s.Intact D → out.2.Spares D → u.Heads w.catalog D t → Provides D t s out)
    (fun u t _ _ s out => s.Intact D → out.2.Spares D → u.Heads w.catalog D t →
      Fabricates D t s out)
    (fun u params s out => s.Intact D → out.2.Spares D →
      (∀ p ∈ params, p.isShared = true → u.Heads w.catalog D p.typeName) →
      ProvidesAll D params s out)
    (fun u p s out => s.Intact D → out.2.Spares D →
      (p.isShared = true → u.Heads w.catalog D p.typeName) → ProvidesAll D [p] s out)
  case registered =>
      intro u t s x hs hx h hspares hheads
      refine provides_other (fun hd => ?_) h
      rw [hspares t hd] at hx
      cases hx
  case cutClass =>
      intro u s c hs hnew hfind hbusy h hspares hheads
      exact provides_other (hheads.classes c.name hbusy) { h.typedNull c.name with }
  case enrolled =>
      intro u s c args hs hnew hfind hbusy hargs hstill ih h hspares hheads
      have hother := hspares.not_enrolled hstill
      have hbefore := hspares.of_components (Store.enroll_grows args.2 c args.1).components
      have hmade := ih h hbefore fun p _ _ => hheads.enterClass hall hother
      exact provides_other hother { hmade.intact.push with }
  case known =>
      intro u t s x hs hnew hfind hx h hspares hheads
      exact ⟨h, h.shared _ (mem_of_lookup hx), fun _ => rfl⟩
  case plain =>
      intro u t s hs hnew hfind hambient hplain h hspares hheads
      exact ⟨(h.value t).1, fun _ => (h.value t).2, fun _ => s.value_degradations _ t⟩
  case settled =>
      intro u t s made hs hnew hfind hambient hplain hmade ih h hspares hheads
      have hbefore := hspares.of_components (made.2.settleAmbient_grows t made.1).components
      have hfabricated := ih h hbefore hheads
      obtain ⟨hintact, hsturdy⟩ :=
        hfabricated.intact.settleAmbient hfabricated.sturdy hfabricated.own
      exact ⟨hintact, hsturdy, fun hd =>
        Store.settleAmbient_degradations.trans (hfabricated.unrecorded hd)⟩
  case fabricatedPlain =>
      intro u t origin hint s hs hplain h hspares hheads
      exact ⟨⟨(h.value t).1, fun _ => (h.value t).2, fun _ => s.value_degradations _ t⟩,
        fun _ _ _ => (h.value t).2⟩
  case cutType =>
      intro u t origin hint s hs hplain hbusy h hspares hheads
      -- A type that is cut off while it is fabricated needs itself.
      have hother : ¬D t := fun hd =>
        (hall.buildable t hd).acyclic (hheads.types t hbusy hd)
      have hmade : Provides D t s (s.cutCycle t origin hint) := by
        refine provides_other hother { h.push with uncut := fun e he => ?_ }
        rcases List.mem_cons.1 he with rfl | he
        · exact hother
        · exact h.uncut e he
      exact hmade.fabricates (s.push_typeAt? t origin .degenerate hint)
  case noRecipe =>
      intro u t origin hint s hs hplain hbusy hrecipe h hspares hheads
      exact fabricates_pushDegenerate (not_of_no_recipe hall hplain (.inl hrecipe)) h _ _ _ _
  case unfabricable =>
      intro u t origin hint s hs hplain hbusy hrecipe h hspares hheads
      have hmade := fabricates_pushDegenerate
        (not_of_no_recipe hall hplain (.inr hrecipe)) h origin hint t.text .unfabricable
      exact { hmade with intact := hmade.intact.forgetCycle }
  case staticField =>
      intro u t origin hint s owner field hs hplain hbusy hrecipe h hspares hheads
      have hmade : Provides D t s (s.push t origin (.staticField owner field) hint) :=
        ⟨h.push, fun _ => s.isSturdy_push t origin hint Construction.noConfusion, fun _ => rfl⟩
      exact { hmade.fabricates (s.push_typeAt? t origin _ hint) with
        intact := hmade.intact.forgetCycle }
  case substituted =>
      intro u t origin hint s concrete made hs hplain hbusy hrecipe hmade ih h hspares hheads
      have hneeds := FrameworkCatalog.Needs.concrete hplain hrecipe
      have hfabricated := ih h hspares (hheads.enterType hneeds)
      exact
        { intact := hfabricated.intact.forgetCycle
          sturdy := fun hd => hfabricated.sturdy (hall.needs t concrete hd hneeds)
          unrecorded := fun hd => hfabricated.unrecorded (hall.needs t concrete hd hneeds)
          own := hfabricated.own }
  case completed =>
      intro u t origin hint s recipe args construction hs hplain hbusy hrecipe hbuilds hargs ih h
        hspares hheads
      have hneeds : ∀ p ∈ recipe.params, p.isShared = true → w.catalog.Needs t p.typeName :=
        fun p hp hshared => .param hplain hrecipe hp hshared
      have hbefore : args.2.Spares D := by
        refine hspares.of_components ?_
        rw [Store.forgetCycle, Store.complete_untouched.1]
      have hmade := ih h hbefore fun p hp hshared => hheads.enterType (hneeds p hp hshared)
      have hbuilt : construction ≠ .degenerate := by
        cases hbuilds <;> exact Construction.noConfusion
      have hcompleted : Provides D t s (args.2.complete t origin construction hint) :=
        ⟨hmade.intact.complete, fun hd => hmade.intact.complete_sturdy hd hbuilt, fun hd =>
          Store.complete_untouched.2.trans
            (hmade.unrecorded fun p hp hshared => hall.needs t _ hd (hneeds p hp hshared))⟩
      have hsound := (hargs hs).1.sound hs
      exact { hcompleted.fabricates (hsound.complete_typeAt? t origin construction hint) with
        intact := hcompleted.intact.forgetCycle }
  case nil =>
      intro u s hs h hspares hheads
      exact ⟨h, fun _ => rfl⟩
  case cons =>
      intro u p ps s first rest hs hfirst hrest ihfirst ihrest h hspares hheads
      have hsound := (hfirst hs).1.sound hs
      have hbefore := hspares.of_components (hrest hsound).1.grows.components
      have hhead := ihfirst h hbefore (hheads p List.mem_cons_self)
      have htail := ihrest hhead.intact hspares fun q hq => hheads q (List.mem_cons_of_mem p hq)
      refine ⟨htail.intact, fun hparams => ?_⟩
      rw [htail.unrecorded fun q hq => hparams q (List.mem_cons_of_mem p hq)]
      refine hhead.unrecorded fun q hq => ?_
      obtain rfl := List.mem_singleton.1 hq
      exact hparams q List.mem_cons_self
  case object =>
      intro u p s out hs hshared ih h hspares hheads
      have hmade := ih h hspares (hheads hshared)
      exact ⟨hmade.intact, fun hparams => hmade.unrecorded (hparams p List.mem_cons_self hshared)⟩
  case typedNull =>
      intro u t s hs h hspares hheads
      exact ⟨h.typedNull t, fun _ => s.typedNull_degradations t⟩
  case value =>
      intro u t s hs h hspares hheads
      exact ⟨(h.value t).1, fun _ => s.value_degradations _ t⟩

theorem register_intact (hall : w.catalog.BuildsAll D) {s : Store} (hs : s.Sound)
    (c : Component) (h : s.Intact D) (hspares : (w.register batch c s).2.Spares D) :
    (w.register batch c s).2.Intact D := by
  rw [register] at hspares ⊢
  split at hspares
  · exact h
  · rename_i hnew
    obtain ⟨hruns, -⟩ := (w.fabrication_obtains batch).2.2.1 (Underway.enterClass {} c.name)
      (c.constructorParams.map .ofType) s hs
    have hother :=
      hspares.not_enrolled ((hruns.component?_kept (.inl List.mem_cons_self)).trans hnew)
    have hargs := (w.fabrication_provides batch hall).2.2.1 (Underway.enterClass {} c.name)
      (c.constructorParams.map .ofType) s hs h
      (hspares.of_components (Store.enroll_grows _ c _).components)
      fun p _ _ => Underway.heads_nil.enterClass hall hother
    exact { hargs.intact.push with }

end Workshop

theorem Store.Change.intact {w : Workshop} {s s' : Store} (hchange : Store.Change w s s')
    (hs : s.Sound) (hall : w.catalog.BuildsAll D) (h : s.Spares D → s.Intact D)
    (hspares : s'.Spares D) : s'.Intact D := by
  cases hchange with
  | remember hsame hsound =>
      have hbefore := h (hspares.of_components (hsame.components ▸ List.prefix_rfl))
      have hget := Store.get?_of_arena hsame.arena
      constructor
      · simpa only [hsame.values, Store.IsSturdy, hget] using hbefore.values
      · simpa only [hsame.ambients, Store.IsSturdy, hget] using hbefore.shared
      · simpa only [hsame.cycleBreaks] using hbefore.uncut
  | fabricate t id hint =>
      obtain ⟨hruns, -⟩ := (w.fabrication_obtains []).2.1 {} t (.identifier id) hint s hs
      have hbefore := h (hspares.of_components hruns.grows.components)
      exact ((w.fabrication_provides [] hall).2.1 {} t (.identifier id) hint s hs hbefore
        hspares Underway.heads_nil).intact
  | ambient t =>
      obtain ⟨hruns, -⟩ := (w.fabrication_obtains []).1 {} t s hs
      have hbefore := h (hspares.of_components hruns.grows.components)
      exact ((w.fabrication_provides [] hall).1 {} t s hs hbefore hspares
        Underway.heads_nil).intact
  | value t =>
      exact ((h (hspares.of_components (s.value_grows _ t).components)).value t).1
  | register batch c =>
      have hbefore := h (hspares.of_components (w.register_grows batch c hs).1.components)
      exact w.register_intact batch hall hs c hbefore hspares
  | missing => exact { (h hspares).push with }
  | service => exact { (h hspares).push with }
  | unresolved t => exact (h hspares).push
  | derived parent step hint => exact (h hspares).push

namespace Registry

variable {r : Registry}

theorem Reachable.intact (h : r.Reachable) (hall : r.catalog.BuildsAll D)
    (hspares : r.store.Spares D) : r.store.Intact D :=
  h.of_catalog_changes
    (P := fun c s => ∀ D, c.BuildsAll D → s.Spares D → s.Intact D)
    (fun _ D _ _ => Store.intact_empty D)
    (fun hchange hs hbefore D hall hspares =>
      hchange.intact hs hall (hbefore D hall) hspares)
    D hall hspares

/-- Whether what an operation answers is not degenerate, and no degradation is recorded. -/
structure Spotless (r : Registry) (out : StandInRef × Registry) : Prop where
  sturdy : ∃ y, out.2.get? out.1 = some y ∧ y.isDegenerate = false
  unrecorded : out.2.degradations = r.degradations

variable (h : r.Reachable) (hall : r.catalog.BuildsAll D) (hspares : r.store.Spares D)
  (ht : D t)

include h hall hspares ht

theorem Reachable.ambient_spotless : r.Spotless (r.ambient t) := by
  obtain ⟨hruns, -⟩ := (r.workshop.fabrication_obtains []).1 {} t r.store h.sound
  have hmade := (r.workshop.fabrication_provides [] hall).1 {} t r.store h.sound
    (h.intact hall hspares) (hspares.of_runs hruns) Underway.heads_nil
  exact ⟨hmade.sturdy ht, hmade.unrecorded ht⟩

theorem Reachable.resolve_spotless {id : ResourceId} (hnew : r.findViewById? id = none) :
    r.Spotless (r.resolve id t) := by
  rw [resolve, hnew, hspares t ht]
  generalize ((r.store.declared.lookup id).bind (·.name)).getD ("view" ++ toString id) = hint
  obtain ⟨hruns, -⟩ := (r.workshop.fabrication_obtains []).2.1 {} t (.identifier id) hint r.store
    h.sound
  have hmade := (r.workshop.fabrication_provides [] hall).2.1 {} t (.identifier id) hint
    r.store h.sound (h.intact hall hspares) (hspares.of_runs hruns) Underway.heads_nil
  exact ⟨hmade.sturdy ht, hmade.unrecorded ht⟩

omit h hall hspares ht

/-- **Degradation only when unavoidable.** In every registry that operations reach, a type that can
be built and needs no component class, itself included, has a shared object that is not degenerate,
and is built for every new identifier. Neither records a degradation, whatever was degraded
before. -/
theorem buildable_never_degrades (h : r.Reachable) (ht : r.catalog.Buildable t)
    (hfree : ∀ q, ReflTransGen r.catalog.Needs t q → r.component? q = none) :
    r.Spotless (r.ambient t) ∧
      ∀ id, r.findViewById? id = none → r.Spotless (r.resolve id t) :=
  ⟨h.ambient_spotless ht.buildsAll hfree .refl,
    fun _ hnew => h.resolve_spotless ht.buildsAll hfree .refl hnew⟩

/-- Two types that need each other, one of which needs what another type stands for. -/
def tangledCatalog : FrameworkCatalog where
  recipes :=
    [(⟨"app.Left"⟩, .constructor [.ambient ⟨"app.Right"⟩, .ambient ⟨"app.Theme"⟩]),
     (⟨"app.Right"⟩, .constructor [.ambient ⟨"app.Left"⟩]),
     (⟨"app.Skin"⟩, .substitute ⟨"app.Theme"⟩),
     (⟨"app.Theme"⟩, .staticField ⟨"app.Themes"⟩ "PLAIN"),
     (⟨"app.Panel"⟩, .constructor [.ambient ⟨"app.Skin"⟩, .degenerate ⟨"app.Left"⟩])]

def tangledRegistry : Registry := ((new tangledCatalog).ambient ⟨"app.Left"⟩).2

theorem tangledRegistry_reachable : Reachable tangledRegistry :=
  .step (.ambient ⟨"app.Left"⟩) (.new tangledCatalog 1) rfl

theorem panel_buildable : tangledCatalog.Buildable ⟨"app.Panel"⟩ := by
  have hpanel : tangledCatalog.recipeFor ⟨"app.Panel"⟩ =
      some (.constructor [.ambient ⟨"app.Skin"⟩, .degenerate ⟨"app.Left"⟩]) := by decide +kernel
  have hskin : tangledCatalog.recipeFor ⟨"app.Skin"⟩ = some (.substitute ⟨"app.Theme"⟩) := by
    decide +kernel
  have htheme : tangledCatalog.recipeFor ⟨"app.Theme"⟩ =
      some (.staticField ⟨"app.Themes"⟩ "PLAIN") := by decide +kernel
  refine .constructor hpanel fun p hp hshared => ?_
  rcases List.mem_cons.1 hp with rfl | hp
  · exact .substitute hskin (.staticField htheme)
  · rw [List.mem_singleton.1 hp] at hshared
    cases hshared

/-- After a cycle was cut, a panel is still built without a degradation. -/
theorem panel_not_degraded : Reachable tangledRegistry ∧
    tangledRegistry.degradations.length = 1 ∧
    tangledRegistry.findViewById? 1 = none ∧
    tangledRegistry.Spotless (tangledRegistry.ambient ⟨"app.Panel"⟩) ∧
    tangledRegistry.Spotless (tangledRegistry.resolve 1 ⟨"app.Panel"⟩) := by
  have hnew : tangledRegistry.findViewById? 1 = none := by decide +kernel
  have hcomponents : tangledRegistry.store.components = [] := by decide +kernel
  obtain ⟨hambient, hresolve⟩ := buildable_never_degrades tangledRegistry_reachable
    panel_buildable fun q _ => by rw [component?, Store.component?, hcomponents]; rfl
  exact ⟨tangledRegistry_reachable, by decide +kernel, hnew, hambient, hresolve 1 hnew⟩

end Registry
end AppDriver
