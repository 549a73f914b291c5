import AppDriver.Proofs.FabricationInduction
import AppDriver.Proofs.RegistryGrowth

/-! Shared objects. An object that becomes the shared one of a type was made by the operation that
asked for it, or it is a plain value, which several types can have in common. Its type is the one
that was asked for unless the recipe of this type substitutes another one. Both need to be followed
along the recursion of fabrication: where a cycle was cut, the object is one that was made further
inside. -/

namespace AppDriver

open Store (Runs Effect)

namespace Store

variable {n : Nat} {batch : List Component} {busy : List TypeName} {s s' : Store}

/-- A stand-in that the later of two stores has and the earlier one has not, or a plain value. -/
def NewSince (s s' : Store) (x : StandInRef) : Prop :=
  s.arena.length ≤ x.index ∨ ∃ t, s'.typeAt? x = some t ∧ t.isPlainValue = true

theorem NewSince.later {s'' : Store} (harena : s'.arena <+: s''.arena) {x : StandInRef}
    (h : s.NewSince s' x) : s.NewSince s'' x := by
  rcases h with hfresh | ⟨t, ht, hplain⟩
  · exact Or.inl hfresh
  · exact Or.inr ⟨t, typeAt?_extend harena ht, hplain⟩

theorem NewSince.earlier {s'' : Store} (harena : s.arena <+: s'.arena) {x : StandInRef}
    (h : s'.NewSince s'' x) : s.NewSince s'' x := by
  rcases h with hfresh | hvalue
  · exact Or.inl (Nat.le_trans harena.length_le hfresh)
  · exact Or.inr hvalue

/-- A stand-in that was there and is no plain value is not new. -/
theorem NewSince.ne {x z : StandInRef} (hx : s.NewSince s' x) (hz : s.Has z) {t : TypeName}
    (ht : s'.typeAt? z = some t) (hplain : t.isPlainValue = false) : x ≠ z := by
  rintro rfl
  rcases hx with hfresh | ⟨t', ht', hplain'⟩
  · exact absurd hz (Nat.not_lt.2 hfresh)
  · rw [ht] at ht'
    cases ht'
    rw [hplain] at hplain'
    cases hplain'

/-- The shared objects that are gained are new. -/
structure Gains (s s' : Store) : Prop where
  arena : s.arena <+: s'.arena
  ambients : ∀ e ∈ s'.ambients, e ∈ s.ambients ∨ s.NewSince s' e.2

theorem gains_of_ambients (harena : s.arena <+: s'.arena) (heq : s'.ambients = s.ambients) :
    s.Gains s' := by
  refine ⟨harena, ?_⟩
  intro e he
  rw [heq] at he
  exact Or.inl he

theorem Gains.refl (s : Store) : s.Gains s := gains_of_ambients List.prefix_rfl rfl

theorem Gains.trans {a b c : Store} (h : a.Gains b) (h' : b.Gains c) : a.Gains c := by
  refine ⟨h.arena.trans h'.arena, ?_⟩
  intro e he
  rcases h'.ambients e he with hold | hnew
  · rcases h.ambients e hold with hold | hnew
    · exact Or.inl hold
    · exact Or.inr (hnew.later h'.arena)
  · exact Or.inr (hnew.earlier h.arena)

/-- While certain types are being fabricated, cycles are cut through these types only, and an object
that is shared is of the type it is shared for, unless this one is substituted. -/
structure Tidy (catalog : FrameworkCatalog) (types : List TypeName) (s : Store) : Prop where
  breaks : ∀ e ∈ s.cycleBreaks, e.1 ∈ types
  typed : ∀ e ∈ s.ambients, (∃ c, catalog.recipeFor e.1 = some (.substitute c)) ∨
    s.typeAt? e.2 = some e.1

variable {catalog : FrameworkCatalog} {types : List TypeName}

theorem Tidy.enter (h : s.Tidy catalog types) (t : TypeName) : s.Tidy catalog (t :: types) :=
  ⟨fun e he => List.mem_cons_of_mem t (h.breaks e he), h.typed⟩

theorem Tidy.extend (h : s.Tidy catalog types) (harena : s.arena <+: s'.arena)
    (hambients : s'.ambients = s.ambients) (hbreaks : ∀ e ∈ s'.cycleBreaks, e.1 ∈ types) :
    s'.Tidy catalog types := by
  refine ⟨hbreaks, ?_⟩
  intro e he
  rw [hambients] at he
  exact (h.typed e he).imp_right (typeAt?_extend harena)

theorem Tidy.untouched (h : s.Tidy catalog types) (harena : s.arena <+: s'.arena)
    (hambients : s'.ambients = s.ambients) (hbreaks : s'.cycleBreaks = s.cycleBreaks) :
    s'.Tidy catalog types ∧ s.Gains s' := by
  refine ⟨h.extend harena hambients ?_, gains_of_ambients harena hambients⟩
  rw [hbreaks]
  exact h.breaks

/-- A type that is left takes the cycles through it along. -/
theorem Tidy.leave {t : TypeName} (h : s.Tidy catalog (t :: types)) :
    (s.forgetCycle t).Tidy catalog types := by
  refine h.typed |> Tidy.mk ?_
  intro e he
  obtain ⟨hmem, hne⟩ := List.mem_filter.1 he
  exact (List.mem_cons.1 (h.breaks e hmem)).resolve_left (by simpa using hne)

/-! ### Single effects -/

theorem value_untouched (s : Store) (n : Nat) (t : TypeName) :
    (s.value n t).2.ambients = s.ambients ∧ (s.value n t).2.cycleBreaks = s.cycleBreaks := by
  rw [value]
  split <;> exact ⟨rfl, rfl⟩

theorem typedNull_untouched (s : Store) (t : TypeName) :
    (s.typedNull t).2.ambients = s.ambients ∧ (s.typedNull t).2.cycleBreaks = s.cycleBreaks := by
  rw [typedNull]
  split <;> exact ⟨rfl, rfl⟩

theorem complete_ambients (s : Store) (t : TypeName) (origin : Origin)
    (construction : Construction) (hint : String) :
    (s.complete t origin construction hint).2.ambients = s.ambients := by
  rw [complete]
  split
  · split <;> rfl
  · rfl

theorem complete_cycleBreaks (s : Store) (t : TypeName) (origin : Origin)
    (construction : Construction) (hint : String) :
    ∀ e ∈ (s.complete t origin construction hint).2.cycleBreaks, e ∈ s.cycleBreaks := by
  intro e he
  rw [complete] at he
  split at he
  · split at he <;> exact (List.mem_filter.1 he).1
  · exact he

theorem complete_arena (s : Store) (t : TypeName) (origin : Origin)
    (construction : Construction) (hint : String) :
    s.arena <+: (s.complete t origin construction hint).2.arena := by
  rw [complete]
  split
  · split
    · exact List.prefix_rfl
    · exact List.prefix_append _ _
  · exact List.prefix_append _ _

theorem settleAmbient_untouched (s : Store) (t : TypeName) (x : StandInRef) :
    (s.settleAmbient t x).2.arena = s.arena ∧
      (s.settleAmbient t x).2.cycleBreaks = s.cycleBreaks := by
  rw [settleAmbient]
  split
  · exact ⟨rfl, rfl⟩
  · dsimp only
    split
    · exact ⟨rfl, rfl⟩
    · split <;> exact ⟨rfl, rfl⟩

/-- What is settled is shared for the type that was asked for and for its own. -/
theorem mem_settleAmbient {t : TypeName} {x : StandInRef} {e : TypeName × StandInRef}
    (he : e ∈ (s.settleAmbient t x).2.ambients) :
    e ∈ s.ambients ∨ e.2 = x ∧ (e.1 = t ∨ s.typeAt? x = some e.1) := by
  rw [settleAmbient] at he
  split at he
  · exact Or.inl he
  · dsimp only at he
    split at he
    · rcases List.mem_cons.1 he with rfl | he
      · exact Or.inr ⟨rfl, Or.inl rfl⟩
      · exact Or.inl he
    · rename_i concrete hconcrete
      have hfirst : ∀ e ∈ (t, x) :: s.ambients,
          e ∈ s.ambients ∨ e.2 = x ∧ (e.1 = t ∨ s.typeAt? x = some e.1) := by
        intro e he
        rcases List.mem_cons.1 he with rfl | he
        · exact Or.inr ⟨rfl, Or.inl rfl⟩
        · exact Or.inl he
      split at he
      · exact hfirst e he
      · rcases List.mem_cons.1 he with rfl | he
        · exact Or.inr ⟨rfl, Or.inr hconcrete⟩
        · exact hfirst e he

/-- A cycle that was not cut before is cut with a new stand-in. -/
theorem Effect.cycleBreaks_new (h : Effect n batch busy s s') :
    ∀ e ∈ s'.cycleBreaks, e ∈ s.cycleBreaks ∨ s.arena.length ≤ e.2.index := by
  intro e he
  cases h with
  | value t =>
      rw [(s.value_untouched n t).2] at he
      exact Or.inl he
  | typedNull t =>
      rw [(s.typedNull_untouched t).2] at he
      exact Or.inl he
  | push | record | enroll => exact Or.inl he
  | cutCycle origin hint hplain =>
      rcases List.mem_cons.1 he with rfl | he
      · exact Or.inr (Nat.le_refl _)
      · exact Or.inl he
  | forgetCycle t => exact Or.inl (List.mem_filter.1 he).1
  | settleAmbient hplain hr =>
      rw [(s.settleAmbient_untouched _ _).2] at he
      exact Or.inl he

theorem Runs.cycleBreaks_new (h : Runs n batch busy s s') :
    ∀ e ∈ s'.cycleBreaks, e ∈ s.cycleBreaks ∨ s.arena.length ≤ e.2.index := by
  have hboth := h.rel
    (R := fun s s' => s.arena.length ≤ s'.arena.length ∧
      ∀ e ∈ s'.cycleBreaks, e ∈ s.cycleBreaks ∨ s.arena.length ≤ e.2.index)
    (fun s => ⟨Nat.le_refl _, fun e he => Or.inl he⟩)
    (fun {a b c} h h' => by
      refine ⟨Nat.le_trans h.1 h'.1, ?_⟩
      intro e he
      rcases h'.2 e he with hold | hfresh
      · exact h.2 e hold
      · exact Or.inr (Nat.le_trans h.1 hfresh))
    (fun h => ⟨h.grows.arena.length_le, h.cycleBreaks_new⟩)
  exact hboth.2

/-- What completes a type that was not being fabricated is new. -/
theorem complete_new {t : TypeName} {origin : Origin} {construction : Construction} {hint : String}
    (harena : s.arena <+: s'.arena) (htidy : s.Tidy catalog types) (ht : t ∉ types)
    (hbreaks : ∀ e ∈ s'.cycleBreaks, e ∈ s.cycleBreaks ∨ s.arena.length ≤ e.2.index) :
    s.arena.length ≤ (s'.complete t origin construction hint).1.index := by
  have hpushed : s.arena.length ≤ s'.arena.length := harena.length_le
  rw [complete]
  split
  · rename_i broken hbroken
    have hcut : s.arena.length ≤ broken.index := by
      rcases hbreaks _ (Workshop.mem_of_lookup hbroken) with hold | hfresh
      · exact (ht (htidy.breaks _ hold)).elim
      · exact hfresh
    split
    · exact hcut
    · exact hpushed
  · exact hpushed

theorem Sound.complete_typeAt? (hs : s.Sound) (t : TypeName) (origin : Origin)
    (construction : Construction) (hint : String) :
    (s.complete t origin construction hint).2.typeAt? (s.complete t origin construction hint).1 =
      some t := by
  rw [complete]
  split
  · rename_i broken hbroken
    split
    · exact (hs.cycleBreaks t broken (Workshop.mem_of_lookup hbroken)).1
    · exact (s.forgetCycle t).push_typeAt? t origin construction hint
  · exact s.push_typeAt? t origin construction hint

/-- Sharing an object that is new, and of the type that was asked for or of one that stands for
it. -/
theorem Tidy.settleAmbient {t : TypeName} {x : StandInRef} (h : s'.Tidy catalog types)
    (hgains : s.Gains s') (hnew : s.NewSince s' x)
    (htype : (∃ c, catalog.recipeFor t = some (.substitute c)) ∨ s'.typeAt? x = some t) :
    (s'.settleAmbient t x).2.Tidy catalog types ∧ s.Gains (s'.settleAmbient t x).2 := by
  obtain ⟨harena, hbreaks⟩ := s'.settleAmbient_untouched t x
  have htypes : ∀ z, (s'.settleAmbient t x).2.typeAt? z = s'.typeAt? z := by
    intro z
    rw [typeAt?, get?, harena]
    rfl
  refine ⟨⟨?_, ?_⟩, ⟨?_, ?_⟩⟩
  · rw [hbreaks]
    exact h.breaks
  · intro e he
    rw [htypes]
    rcases mem_settleAmbient he with hold | ⟨rfl, hkey | hown⟩
    · exact h.typed e hold
    · rw [hkey]
      exact htype
    · exact Or.inr hown
  · rw [harena]
    exact hgains.arena
  · intro e he
    have hlater : s'.arena <+: (s'.settleAmbient t x).2.arena := by rw [harena]
    rcases mem_settleAmbient he with hold | ⟨rfl, -⟩
    · exact (hgains.ambients e hold).imp_right (.later hlater)
    · exact Or.inr (hnew.later hlater)

end Store

namespace Workshop

variable (w : Workshop) (batch : List Component)

/-- From a sound and tidy store a tidy one is left, in which the shared objects that were gained are
new. -/
def SharesNew (u : Underway) (s s' : Store) : Prop :=
  s.Sound → s.Tidy w.catalog u.types → s'.Tidy w.catalog u.types ∧ s.Gains s'

variable {w batch} in
theorem SharesNew.of_untouched {u : Underway} {s s' : Store} (harena : s.arena <+: s'.arena)
    (h : s'.ambients = s.ambients ∧ s'.cycleBreaks = s.cycleBreaks) : w.SharesNew u s s' :=
  fun _ htidy => htidy.untouched harena h.1 h.2

variable {w batch} in
theorem SharesNew.refl (u : Underway) (s : Store) : w.SharesNew u s s :=
  .of_untouched List.prefix_rfl ⟨rfl, rfl⟩

variable {w batch} in
theorem SharesNew.trans {u : Underway} {s s' s'' : Store} (h : w.SharesNew u s s')
    (hsound : s.Sound → s'.Sound) (h' : w.SharesNew u s' s'') : w.SharesNew u s s'' := by
  intro hs htidy
  obtain ⟨hmade, hgains⟩ := h hs htidy
  obtain ⟨hlast, hmore⟩ := h' (hsound hs) hmade
  exact ⟨hlast, hgains.trans hmore⟩

variable {w batch} in
theorem SharesNew.before_untouched {u : Underway} {s s' s'' : Store} (hfirst : w.SharesNew u s s')
    (harena : s'.arena <+: s''.arena)
    (h : s''.ambients = s'.ambients ∧ s''.cycleBreaks = s'.cycleBreaks) : w.SharesNew u s s'' := by
  intro hs htidy
  obtain ⟨hmade, hgains⟩ := hfirst hs htidy
  obtain ⟨hlast, hmore⟩ := hmade.untouched harena h.1 h.2
  exact ⟨hlast, hgains.trans hmore⟩

variable {w batch} in
theorem SharesNew.leave {u : Underway} {t : TypeName} {s s' : Store}
    (h : w.SharesNew (u.enterType t) s s') : w.SharesNew u s (s'.forgetCycle t) := by
  intro hs htidy
  obtain ⟨hmade, hgains⟩ := h hs (htidy.enter t)
  exact ⟨hmade.leave, hgains.arena, hgains.ambients⟩

variable {w batch} in
/-- A stand-in is completed with arguments for which new objects have been shared. -/
theorem SharesNew.completed {u : Underway} {t : TypeName} {s : Store}
    {args : List StandInRef × Store} (hargs : w.SharesNew (u.enterType t) s args.2)
    (origin : Origin) (construction : Construction) (hint : String) :
    w.SharesNew u s ((args.2.complete t origin construction hint).2.forgetCycle t) := by
  apply SharesNew.leave
  intro hs htidy
  obtain ⟨hmade, hgains⟩ := hargs hs htidy
  have harena := args.2.complete_arena t origin construction hint
  have hambients := args.2.complete_ambients t origin construction hint
  have hbreaks := args.2.complete_cycleBreaks t origin construction hint
  have hcompleted : (args.2.complete t origin construction hint).2.Tidy w.catalog
      (u.enterType t).types :=
    hmade.extend harena hambients fun e he => hmade.breaks e (hbreaks e he)
  exact ⟨hcompleted, hgains.trans (Store.gains_of_ambients harena hambients)⟩

/-- What is made for a type is new, and of this type unless another one stands for it. -/
structure MakesNew (u : Underway) (t : TypeName) (s : Store) (made : StandInRef × Store) :
    Prop where
  shares : w.SharesNew u s made.2
  fresh : s.Tidy w.catalog u.types → s.NewSince made.2 made.1
  typed : (∃ c, w.catalog.recipeFor t = some (.substitute c)) ∨ made.2.typeAt? made.1 = some t

/-- Whatever is asked for, the objects that become shared on the way are new, and so is what is
fabricated. -/
theorem fabrication_sharesNew :
    (∀ u t s, s.Sound → w.SharesNew u s (w.ambient batch u t s).2) ∧
    (∀ u t origin hint s, s.Sound → w.MakesNew u t s (w.fabricate batch u t origin hint s)) ∧
    (∀ u params s, s.Sound → w.SharesNew u s (w.materialize batch u params s).2) ∧
    (∀ u p s, s.Sound → w.SharesNew u s (w.supply batch u p s).2) := by
  apply w.fabrication_induction batch
    (fun u _ s out => w.SharesNew u s out.2)
    (fun u t _ _ s out => w.MakesNew u t s out)
    (fun u _ s out => w.SharesNew u s out.2)
    (fun u _ s out => w.SharesNew u s out.2)
  case registered =>
      intro u t s x hs hx
      exact .refl _ _
  case cutClass =>
      intro u s c hs hnew hfind hbusy
      exact .of_untouched (s.typedNull_grows c.name).arena (s.typedNull_untouched c.name)
  case enrolled =>
      intro u s c args hs hnew hfind hbusy hargs hstill ih
      exact SharesNew.before_untouched ih (Store.enroll_grows _ c _).arena ⟨rfl, rfl⟩
  case known =>
      intro u t s x hs hnew hfind hx
      exact .refl _ _
  case plain =>
      intro u t s hs hnew hfind hambient hplain
      exact .of_untouched (s.value_grows _ t).arena (s.value_untouched _ t)
  case settled =>
      intro u t s made hs hnew hfind hambient hplain hmade ih _ htidy
      obtain ⟨hstill, hgains⟩ := ih.shares hs htidy
      exact hstill.settleAmbient hgains (ih.fresh htidy) ih.typed
  case fabricatedPlain =>
      intro u t origin hint s hs hplain
      have htype := (hs.value w.arrayLength t).values t _ (mem_of_lookup (s.lookup_value _ t))
      exact ⟨.of_untouched (s.value_grows _ t).arena (s.value_untouched _ t),
        fun _ => Or.inr ⟨t, htype, hplain⟩, Or.inr htype⟩
  case cutType =>
      intro u t origin hint s hs hplain hbusy
      have harena := s.push_arena t origin .degenerate hint
      refine ⟨fun _ htidy => ⟨htidy.extend harena rfl ?_, Store.gains_of_ambients harena rfl⟩,
        fun _ => Or.inl (Nat.le_refl _), Or.inr (s.push_typeAt? t origin .degenerate hint)⟩
      intro e he
      rcases List.mem_cons.1 he with rfl | he
      · exact hbusy
      · exact htidy.breaks e he
  case noRecipe =>
      intro u t origin hint s hs hplain hbusy hrecipe
      exact ⟨.of_untouched (s.push_arena t origin .degenerate hint) ⟨rfl, rfl⟩,
        fun _ => Or.inl (Nat.le_refl _), Or.inr (s.push_typeAt? t origin .degenerate hint)⟩
  case unfabricable =>
      intro u t origin hint s hs hplain hbusy hrecipe
      have harena := s.push_arena t origin .degenerate hint
      exact ⟨SharesNew.leave (.of_untouched harena ⟨rfl, rfl⟩),
        fun _ => Or.inl (Nat.le_refl _), Or.inr (s.push_typeAt? t origin .degenerate hint)⟩
  case staticField =>
      intro u t origin hint s owner field hs hplain hbusy hrecipe
      have harena := s.push_arena t origin (.staticField owner field) hint
      exact ⟨SharesNew.leave (.of_untouched harena ⟨rfl, rfl⟩),
        fun _ => Or.inl (Nat.le_refl _), Or.inr (s.push_typeAt? t origin _ hint)⟩
  case substituted =>
      intro u t origin hint s concrete made hs hplain hbusy hrecipe hmade ih
      exact ⟨ih.shares.leave, fun htidy => ih.fresh (htidy.enter t), Or.inl ⟨concrete, hrecipe⟩⟩
  case completed =>
      -- The type was not underway, so what cut a cycle through it was made since it was entered.
      intro u t origin hint s recipe args construction hs hplain hbusy hrecipe hbuilds hargs ih
      obtain ⟨hruns, -⟩ := hargs hs
      exact ⟨ih.completed origin construction hint,
        fun htidy => Or.inl
          (Store.complete_new hruns.grows.arena htidy hbusy hruns.cycleBreaks_new),
        Or.inr ((hruns.sound hs).complete_typeAt? t origin construction hint)⟩
  case nil =>
      intro u s hs
      exact .refl _ _
  case cons =>
      intro u p ps s first rest hs hfirst hrest ihfirst ihrest
      exact ihfirst.trans (fun hs => (hfirst hs).1.sound hs) ihrest
  case object =>
      intro u p s out hs hshared ih
      exact ih
  case typedNull =>
      intro u t s hs
      exact .of_untouched (s.typedNull_grows t).arena (s.typedNull_untouched t)
  case value =>
      intro u t s hs
      exact .of_untouched (s.value_grows _ t).arena (s.value_untouched _ t)

/-- What is fabricated is of the type that was asked for, unless another one stands for it. -/
theorem fabricate_typeAt? {s : Store} (hs : s.Sound) (u : Underway) (t : TypeName)
    (origin : Origin) (hint : String) :
    (∃ c, w.catalog.recipeFor t = some (.substitute c)) ∨
      (w.fabricate batch u t origin hint s).2.typeAt?
        (w.fabricate batch u t origin hint s).1 = some t :=
  ((w.fabrication_sharesNew batch).2.1 u t origin hint s hs).typed

variable {w batch} in
theorem register_sharesNew (c : Component) (s : Store) :
    w.SharesNew {} s (w.register batch c s).2 := by
  rw [register]
  split
  · exact .refl _ _
  · have hargs : w.SharesNew {} s (w.materialize batch (Underway.enterClass {} c.name)
        (c.constructorParams.map .ofType) s).2 := fun hs =>
      (w.fabrication_sharesNew batch).2.2.1 (Underway.enterClass {} c.name) _ s hs hs
    exact hargs.before_untouched (Store.enroll_grows _ c _).arena ⟨rfl, rfl⟩

end Workshop

/-! ### Registries -/

namespace Registry

open Workshop (SharesNew)

variable (r : Registry)

theorem resolve_sharesNew (id : ResourceId) (t : TypeName) :
    r.workshop.SharesNew {} r.store (r.resolve id t).2.store := by
  rw [resolve]
  split
  · exact .refl _ _
  · split
    · exact .of_untouched List.prefix_rfl ⟨rfl, rfl⟩
    · generalize ((r.store.declared.lookup id).bind (·.name)).getD ("view" ++ toString id) = hint
      have hmade : r.workshop.SharesNew {} r.store
          (r.workshop.fabricate [] {} t (.identifier id) hint r.store).2 := fun hs =>
        ((r.workshop.fabrication_sharesNew []).2.1 {} t _ hint r.store hs).shares hs
      exact hmade.before_untouched List.prefix_rfl ⟨rfl, rfl⟩

theorem resolveDeclared_sharesNew (id : ResourceId) (fallback : TypeName) :
    r.workshop.SharesNew {} r.store (r.resolveDeclared id fallback).2.store := by
  rw [resolveDeclared]
  split
  · exact .refl _ _
  · split
    · exact r.resolve_sharesNew id _
    · exact .of_untouched (r.store.push_arena fallback _ _ _) ⟨rfl, rfl⟩

theorem unresolved_sharesNew (t : TypeName) :
    r.workshop.SharesNew {} r.store (r.unresolved t).2.store := by
  rw [unresolved]
  split
  · exact .refl _ _
  · exact .of_untouched (r.store.push_arena t _ _ _) ⟨rfl, rfl⟩

theorem ambient_sharesNew (t : TypeName) :
    r.workshop.SharesNew {} r.store (r.ambient t).2.store :=
  fun hs => (r.workshop.fabrication_sharesNew []).1 {} t r.store hs hs

theorem value_sharesNew (t : TypeName) : r.workshop.SharesNew {} r.store (r.value t).2.store :=
  .of_untouched (r.store.value_grows _ t).arena (r.store.value_untouched _ t)

theorem systemService_sharesNew (name : String) :
    r.workshop.SharesNew {} r.store (r.systemService name).2.store := by
  rw [systemService]
  split
  · exact .refl _ _
  · split
    · exact SharesNew.before_untouched (r.ambient_sharesNew _) List.prefix_rfl ⟨rfl, rfl⟩
    · exact .of_untouched (r.store.push_arena TypeName.object _ _ _) ⟨rfl, rfl⟩

theorem registerComponents_sharesNew (cs : List Component) :
    r.workshop.SharesNew {} r.store (r.registerComponents cs).2.store := by
  have hrun := threadMap_rel
    (R := fun s s' : Store => (s.Sound → s'.Sound) ∧ r.workshop.SharesNew {} s s')
    (fun s => ⟨id, .refl _ s⟩)
    (fun h h' => ⟨fun hs => h'.1 (h.1 hs), h.2.trans h.1 h'.2⟩)
    (f := r.workshop.register cs) cs
    (fun c _ s =>
      ⟨fun hs => (r.workshop.register_grows cs c hs).2.1, Workshop.register_sharesNew c s⟩)
    r.store
  exact hrun.2

theorem derived_sharesNew (parent : StandInRef) (step : AccessorStep) :
    r.workshop.SharesNew {} r.store (r.derived parent step).2.store := by
  rw [derived]
  split
  · exact .refl _ _
  · exact .of_untouched (r.store.push_arena step.returns _ _ _) ⟨rfl, rfl⟩

theorem deriveChain_sharesNew (chain : List AccessorStep) (start : StandInRef) (r : Registry) :
    r.workshop.SharesNew {} r.store (r.deriveChain start chain).2.store := by
  induction chain generalizing start r with
  | nil => exact .refl _ _
  | cons step chain ih =>
      intro hs
      have hnext := (derived_gives hs start step).toSettles
      have hrest := ih (r.derived start step).1 (r.derived start step).2
      rw [hnext.workshop] at hrest
      exact (r.derived_sharesNew start step).trans (fun _ => hnext.sound) hrest hs

theorem run_sharesNew (op : Operation) :
    r.workshop.SharesNew {} r.store (op.run r).2.store := by
  cases op with
  | declare b =>
      have huntouched : (r.declare b).2.store.arena = r.store.arena ∧
          (r.declare b).2.store.ambients = r.store.ambients ∧
          (r.declare b).2.store.cycleBreaks = r.store.cycleBreaks := by
        rw [declare]
        split <;> exact ⟨rfl, rfl, rfl⟩
      exact .of_untouched (by rw [Operation.run, huntouched.1]) huntouched.2
  | resolve id t => exact r.resolve_sharesNew id t
  | resolveDeclared id fallback => exact r.resolveDeclared_sharesNew id fallback
  | unresolved t => exact r.unresolved_sharesNew t
  | ambient t => exact r.ambient_sharesNew t
  | systemService name => exact r.systemService_sharesNew name
  | value t => exact r.value_sharesNew t
  | argumentFor t =>
      rw [Operation.run, argumentFor]
      split
      · exact r.value_sharesNew t
      · exact r.ambient_sharesNew t
  | registerComponent c => exact Workshop.register_sharesNew c r.store
  | registerComponents cs => exact r.registerComponents_sharesNew cs
  | derived parent step => exact r.derived_sharesNew parent step
  | deriveChain start chain => exact deriveChain_sharesNew chain start r

/-- The stores of all registries that runs reach are tidy: no cycle is left over, and an object is
shared for its own type or for a type that it stands for. -/
theorem Reachable.tidy {r : Registry} (h : Reachable r) : r.store.Tidy r.catalog [] := by
  induction h with
  | new catalog arrayLength => exact ⟨fun e he => (List.not_mem_nil he).elim,
      fun e he => (List.not_mem_nil he).elim⟩
  | step op hr hadmissible ih =>
      have hworkshop := (run_evolves hr.sound op).workshop
      rw [catalog, hworkshop]
      exact (run_sharesNew _ op hr.sound ih).1

variable {r} in
/-- Along a run the shared objects that are gained are new. -/
theorem Leads.gains {late : Registry} (h : Leads r late) (hr : Reachable r) :
    r.store.Gains late.store := by
  induction h with
  | refl => exact .refl _
  | tail hprevious hlast ih =>
      obtain ⟨op, -, rfl⟩ := hlast
      have hreached := Leads.reachable hprevious hr
      exact ih.trans (run_sharesNew _ op hreached.sound hreached.tidy).2

end Registry
end AppDriver
