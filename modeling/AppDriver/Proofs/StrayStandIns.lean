import AppDriver.Proofs.FiledRegistries
import AppDriver.Proofs.RegistryChanges

/-! Stand-ins without a key. What is fabricated for a type becomes its shared object, unless the type
got another one meanwhile. A type that is being fabricated gets one only where a cycle through it is
cut, and then the stand-in that cut it is taken for the type. It is not taken, though, for the more
specific type that stands for the other one: the object of the more specific type is made all the
same, and left without a key if the cycle ran through a shared object that it needs. -/

namespace AppDriver

/-- Whether an object of a type can be left without a key: the type stands for another one, and is
made with a shared object, through which the other type can be asked for again. -/
structure FrameworkCatalog.Strays (c : FrameworkCatalog) (k : TypeName) : Prop where
  object : k.isPlainValue = false
  substituted : ∃ t, t.isPlainValue = false ∧ c.recipeFor t = some (.substitute k)
  shares : ∃ recipe, c.recipeFor k = some recipe ∧ ∃ p ∈ recipe.params, p.isShared = true

namespace Store

variable {s s' : Store} {t k : TypeName} {x : StandInRef} {origin : Origin}
  {construction : Construction} {hint : String} {n : Nat} {types : List TypeName}
  {loose : List StandInRef}

/-! ### Cut cycles -/

/-- Whether a cycle through a type that is being fabricated was cut. -/
def IsCut (s : Store) (t : TypeName) : Prop := s.cycleBreaks.lookup t ≠ none

theorem isCut_cutCycle : (s.cutCycle t origin hint).2.IsCut t := by
  rw [IsCut, cutCycle]
  simp

theorem IsCut.cutCycle {t' : TypeName} (h : s.IsCut t') : (s.cutCycle t origin hint).2.IsCut t' := by
  rw [IsCut] at h ⊢
  rw [Store.cutCycle]
  dsimp only
  rw [List.lookup_cons]
  split
  · simp
  · exact h

theorem isCut_forgetCycle {t' : TypeName} (hne : t' ≠ t) :
    (s.forgetCycle t).IsCut t' ↔ s.IsCut t' := by
  rw [IsCut, IsCut, forgetCycle]
  dsimp only
  rw [lookup_filter (p := (· != t)) (by simpa using hne)]

/-- On the way from one store to another, a type that is being fabricated gets a shared object only
where a cycle through it is cut. -/
structure Cuts (types : List TypeName) (s s' : Store) : Prop where
  shared : ∀ t ∈ types, t.isPlainValue = false →
    s'.ambients.lookup t = s.ambients.lookup t ∨ s'.IsCut t
  kept : ∀ t ∈ types, s.IsCut t → s'.IsCut t

theorem cuts_of_tables (hambients : s'.ambients = s.ambients)
    (hbreaks : s'.cycleBreaks = s.cycleBreaks) : s.Cuts types s' :=
  ⟨fun t _ _ => .inl (by rw [hambients]), fun t _ h => by rwa [IsCut, hbreaks]⟩

theorem Cuts.trans {s'' : Store} (h : s.Cuts types s') (h' : s'.Cuts types s'') :
    s.Cuts types s'' := by
  refine ⟨fun t ht hplain => ?_, fun t ht hcut => h'.kept t ht (h.kept t ht hcut)⟩
  rcases h'.shared t ht hplain with hsame | hcut
  · rw [hsame]
    exact (h.shared t ht hplain).imp_right (h'.kept t ht)
  · exact .inr hcut

/-- A type that is left was not being fabricated before. -/
theorem Cuts.leave (h : s.Cuts (t :: types) s') (ht : t ∉ types) :
    s.Cuts types (s'.forgetCycle t) := by
  have hne : ∀ t' ∈ types, t' ≠ t := by
    rintro t' ht' rfl
    exact ht ht'
  refine ⟨fun t' ht' hplain => ?_, fun t' ht' hcut => ?_⟩
  · rw [isCut_forgetCycle (hne t' ht')]
    exact h.shared t' (List.mem_cons_of_mem t ht') hplain
  · rw [isCut_forgetCycle (hne t' ht')]
    exact h.kept t' (List.mem_cons_of_mem t ht') hcut

theorem cuts_cutCycle : s.Cuts types (s.cutCycle t origin hint).2 :=
  ⟨fun _ _ _ => .inl rfl, fun _ _ hcut => hcut.cutCycle⟩

/-- What is settled is shared for no type but the one that was asked for and its own. -/
theorem lookup_settleAmbient_ne {t' : TypeName} (hne : t' ≠ t) (htype : s.typeAt? x ≠ some t') :
    (s.settleAmbient t x).2.ambients.lookup t' = s.ambients.lookup t' := by
  have hfirst : ((t, x) :: s.ambients).lookup t' = s.ambients.lookup t' := by
    rw [List.lookup_cons, beq_eq_false_iff_ne.2 hne]
  rw [settleAmbient]
  split
  · rfl
  · dsimp only
    split
    · exact hfirst
    · rename_i concrete hconcrete
      split
      · exact hfirst
      · have hown : t' ≠ concrete := by
          rintro rfl
          exact htype hconcrete
        rw [List.lookup_cons, beq_eq_false_iff_ne.2 hown]
        exact hfirst

/-- An object is settled for a type that is being fabricated only where a cycle was cut. -/
theorem cuts_settleAmbient (hcut : ∀ t' ∈ types, t'.isPlainValue = false →
    t' = t ∨ s.typeAt? x = some t' → s.IsCut t') : s.Cuts types (s.settleAmbient t x).2 := by
  have hbreaks := (s.settleAmbient_untouched t x).2
  refine ⟨fun t' ht' hplain => ?_, fun t' _ h => by rwa [IsCut, hbreaks]⟩
  by_cases hkey : t' = t ∨ s.typeAt? x = some t'
  · rw [IsCut, hbreaks]
    exact .inr (hcut t' ht' hplain hkey)
  · rw [not_or] at hkey
    exact .inl (lookup_settleAmbient_ne hkey.1 hkey.2)

/-! ### Keys -/

/-- Whether a stand-in is the answer to some key of the table that belongs to an origin. -/
def Memoized (s : Store) (x : StandInRef) : Origin → Prop
  | .identifier _ | .unresolved (some _) => ∃ id, s.byIdentifier.lookup id = some x
  | .unresolved none => ∃ t, s.unresolved.lookup t = some x
  | .ambient => (∃ t, s.ambients.lookup t = some x) ∨ (∃ t, s.typedNulls.lookup t = some x) ∨
      ∃ name, s.services.lookup name = some x
  | .component _ => ∃ name, s.component? name = some x
  | .derived _ _ => ∃ key, s.derived.lookup key = some x
  | .value => ∃ t, s.values.lookup t = some x

theorem memoized_later (hambients : Keeps s.ambients s'.ambients)
    (hnulls : Keeps s.typedNulls s'.typedNulls) (hservices : Keeps s.services s'.services)
    (h : s.Memoized x .ambient) : s'.Memoized x .ambient := by
  rcases h with ⟨t, ht⟩ | ⟨t, ht⟩ | ⟨name, hname⟩
  · exact .inl ⟨t, hambients t x ht⟩
  · exact .inr (.inl ⟨t, hnulls t x ht⟩)
  · exact .inr (.inr ⟨name, hservices name x hname⟩)

/-- Every shared stand-in of a type has a key, but for the loose ones. -/
def AllMemoized (k : TypeName) (loose : List StandInRef) (s : Store) : Prop :=
  ∀ x y, s.get? x = some y → y.origin = .ambient → y.typeName = k →
    s.Memoized x .ambient ∨ x ∈ loose

theorem allMemoized_empty : AllMemoized k [] {} := by
  intro x y hy
  simp [get?] at hy

theorem AllMemoized.grow (h : s.AllMemoized k loose) (hgrows : s.Grows s')
    (hnew : ∀ x y, s'.get? x = some y → y.origin = .ambient → y.typeName = k →
      s.get? x = some y ∨ s'.Memoized x .ambient ∨ x ∈ loose) : s'.AllMemoized k loose := by
  intro x y hy horigin htype
  rcases hnew x y hy horigin htype with hold | hmade
  · exact (h x y hold horigin htype).imp_left
      (memoized_later hgrows.ambients hgrows.typedNulls hgrows.services)
  · exact hmade

theorem AllMemoized.keep (h : s.AllMemoized k loose) (hgrows : s.Grows s')
    (harena : s'.arena = s.arena) : s'.AllMemoized k loose :=
  h.grow hgrows fun x _ hy _ _ => .inl (get?_of_arena harena x ▸ hy)

/-- The loose stand-in got a key. -/
theorem AllMemoized.settle (h : s.AllMemoized k [x]) (hx : s.Memoized x .ambient) :
    s.AllMemoized k [] := by
  intro z y hy horigin htype
  rcases h z y hy horigin htype with hkey | hloose
  · exact .inl hkey
  · exact .inl (List.mem_singleton.1 hloose ▸ hx)

theorem AllMemoized.push (h : s.AllMemoized k []) :
    (s.push t origin construction hint).2.AllMemoized k
      [(s.push t origin construction hint).1] := by
  intro x y hy horigin htype
  rcases get?_push hy with hold | ⟨rfl, -⟩
  · have hkey := (h x y hold horigin htype).resolve_right List.not_mem_nil
    exact .inl (memoized_later (.refl _) (.refl _) (.refl _) hkey)
  · exact .inr (List.mem_singleton.2 rfl)

/-- A stand-in of another origin or of another type needs no key of these. -/
theorem AllMemoized.push_other (h : s.AllMemoized k []) (hother : origin = .ambient → t ≠ k) :
    (s.push t origin construction hint).2.AllMemoized k [] := by
  apply h.grow (s.push_grows t origin construction hint)
  intro x y hy horigin htype
  rcases get?_push hy with hold | ⟨rfl, rfl⟩
  · exact .inl hold
  · exact (hother horigin htype).elim

theorem AllMemoized.value (h : s.AllMemoized k []) : (s.value n t).2.AllMemoized k [] := by
  rw [Store.value]
  split
  · exact h
  · rename_i hnew
    exact (h.push_other fun (horigin : Origin.value = .ambient) => by cases horigin).keep
      { Grows.refl _ with values := keeps_cons hnew _ } rfl

theorem AllMemoized.typedNull (h : s.AllMemoized k []) : (s.typedNull t).2.AllMemoized k [] := by
  rw [Store.typedNull]
  split
  · exact h
  · rename_i hnew
    refine AllMemoized.settle (x := (s.push t .ambient .degenerate ("null" ++ t.simpleName)).1) ?_
      (.inr (.inl ⟨t, List.lookup_cons_self⟩))
    exact h.push.keep { Grows.refl _ with typedNulls := keeps_cons hnew _ } rfl

theorem isCut_complete {t' : TypeName} (hne : t' ≠ t) :
    (s.complete t origin construction hint).2.IsCut t' ↔ s.IsCut t' := by
  rw [complete]
  split
  · split
    · exact isCut_forgetCycle hne
    · exact isCut_forgetCycle hne
  · exact Iff.rfl

theorem AllMemoized.complete_other (h : s.AllMemoized k []) (hother : origin = .ambient → t ≠ k) :
    (s.complete t origin construction hint).2.AllMemoized k [] := by
  have hforget : (s.forgetCycle t).AllMemoized k [] := h.keep { Grows.refl s with } rfl
  rw [complete]
  split
  · split
    · exact hforget
    · exact hforget.push_other hother
  · exact h.push_other hother

theorem settleAmbient_fst (hnone : s.ambients.lookup t = none) : (s.settleAmbient t x).1 = x := by
  rw [settleAmbient, hnone]
  dsimp only
  split
  · rfl
  · split <;> rfl

theorem AllMemoized.enroll (h : s.AllMemoized k []) (component : Component)
    (args : List StandInRef) : (s.enroll component args).2.AllMemoized k [] :=
  (h.push_other fun (horigin : Origin.component component.kind = .ambient) => by
    cases horigin).keep { Grows.refl _ with components := List.prefix_append _ _ } rfl

end Store

/-! ### Fabrication -/

namespace Workshop

/-- A stand-in that was made for a type is the only one without a key, and the type has no shared
object yet: none was shared on the way, or the stand-in is of the type itself and no cycle through
the type was cut. -/
structure MadeLoose (w : Workshop) (k t : TypeName) (s : Store) (out : StandInRef × Store) :
    Prop where
  memoized : out.2.AllMemoized k [out.1]
  free : out.2.ambients = s.ambients ∨ t = k ∧ t.isPlainValue = false ∧
    (∃ recipe, w.catalog.recipeFor k = some recipe ∧ ∃ p ∈ recipe.params, p.isShared = true) ∧
    (s.ambients.lookup k = none → out.2.ambients.lookup k = none)

/-- What is made for a type has a key already or is made loose, and where a type that is being
fabricated is asked for again, the cycle is cut. -/
structure Makes (w : Workshop) (k : TypeName) (u : Underway) (t : TypeName) (origin : Origin)
    (s : Store) (out : StandInRef × Store) : Prop where
  cuts : s.Cuts u.types out.2
  cut : ∀ t' ∈ u.types, t'.isPlainValue = false → t' = t ∨ out.2.typeAt? out.1 = some t' →
    out.2.IsCut t'
  memoized : s.AllMemoized k [] →
    out.2.AllMemoized k [] ∨ origin = .ambient ∧ w.MadeLoose k t s out

variable {w : Workshop} {k t : TypeName} {u : Underway} {origin : Origin} {s s' : Store}
  {construction : Construction} {hint : String}

/-- A stand-in that is added without asking for another one. -/
theorem Makes.pushed (ht : t ∉ u.types)
    (hgrows : (s.push t origin construction hint).2.Grows s')
    (harena : s'.arena = (s.push t origin construction hint).2.arena)
    (hambients : s'.ambients = s.ambients) (hcuts : s.Cuts u.types s') :
    w.Makes k u t origin s ((s.push t origin construction hint).1, s') := by
  have htype : s'.typeAt? (s.push t origin construction hint).1 = some t :=
    Store.typeAt?_extend hgrows.arena (s.push_typeAt? t origin construction hint)
  refine ⟨hcuts, ?_, fun h => ?_⟩
  · rintro t' ht' - (rfl | hown)
    · exact (ht ht').elim
    · exact (ht (Option.some.inj (htype.symm.trans hown) ▸ ht')).elim
  · by_cases horigin : origin = .ambient
    · exact .inr ⟨horigin, h.push.keep hgrows harena, .inl hambients⟩
    · exact .inl ((h.push_other fun hambient => (horigin hambient).elim).keep hgrows harena)

/-- What stands for a type is not left loose where no object strays. -/
theorem Makes.substituted {concrete : TypeName} (hstray : ¬w.catalog.Strays k)
    (hplain : t.isPlainValue = false) (ht : t ∉ u.types)
    (hrecipe : w.catalog.recipeFor t = some (.substitute concrete)) {made : StandInRef × Store}
    (h : w.Makes k (u.enterType t) concrete origin s made) :
    w.Makes k u t origin s (made.1, made.2.forgetCycle t) := by
  have hgrows : made.2.Grows (made.2.forgetCycle t) := { Store.Grows.refl _ with }
  refine ⟨h.cuts.leave ht, fun t' ht' hplain' hkey => ?_, fun hs => ?_⟩
  · have hne : t' ≠ t := by
      rintro rfl
      exact ht ht'
    rw [Store.isCut_forgetCycle hne]
    exact h.cut t' (List.mem_cons_of_mem t ht') hplain' (.inr (hkey.resolve_left hne))
  · rcases h.memoized hs with hall | ⟨horigin, hloose, hfree⟩
    · exact .inl (hall.keep hgrows rfl)
    · refine .inr ⟨horigin, hloose.keep hgrows rfl, .inl ?_⟩
      rcases hfree with hsame | ⟨rfl, hobject, hshares, -⟩
      · exact hsame
      · exact (hstray ⟨hobject, ⟨t, hplain, hrecipe⟩, hshares⟩).elim

/-- A stand-in is loose if no cycle through its type was cut while its arguments were made. -/
theorem Makes.completed {recipe : Recipe} (hplain : t.isPlainValue = false) (ht : t ∉ u.types)
    (hrecipe : w.catalog.recipeFor t = some recipe) {args : Store} (hsound : args.Sound)
    (hcuts : s.Cuts (u.enterType t).types args)
    (hmemoized : s.AllMemoized k [] → args.AllMemoized k [])
    (halone : (∀ p ∈ recipe.params, p.isShared = false) → args.ambients = s.ambients) :
    w.Makes k u t origin s ((args.complete t origin construction hint).1,
      (args.complete t origin construction hint).2.forgetCycle t) := by
  have hforget : ∀ s' : Store, s'.Grows (s'.forgetCycle t) := fun s' => { Store.Grows.refl s' with }
  have hne : ∀ t' ∈ u.types, t' ≠ t := by
    rintro t' ht' rfl
    exact ht ht'
  refine ⟨⟨fun t' ht' hplain' => ?_, fun t' ht' hcut => ?_⟩, ?_, fun hs => ?_⟩
  · rw [Store.isCut_forgetCycle (hne t' ht'), Store.isCut_complete (hne t' ht')]
    change (args.complete t origin construction hint).2.ambients.lookup t' = _ ∨ _
    rw [args.complete_ambients]
    exact hcuts.shared t' (List.mem_cons_of_mem t ht') hplain'
  · rw [Store.isCut_forgetCycle (hne t' ht'), Store.isCut_complete (hne t' ht')]
    exact hcuts.kept t' (List.mem_cons_of_mem t ht') hcut
  · rintro t' ht' - (heq | hown)
    · exact (hne t' ht' heq).elim
    · have htype := hsound.complete_typeAt? t origin construction hint
      exact (hne t' ht' (Option.some.inj (hown.symm.trans htype))).elim
  · have hargs := hmemoized hs
    by_cases hown : origin = .ambient ∧ t = k
    · obtain ⟨rfl, rfl⟩ := hown
      rw [Store.complete]
      cases hbroken : args.cycleBreaks.lookup t with
      | some broken =>
          have hkept := hargs.keep (hforget args) rfl
          exact .inl (hkept.keep (hforget _) rfl)
      | none =>
          refine .inr ⟨rfl, hargs.push.keep (hforget _) rfl, ?_⟩
          by_cases hshares : ∀ p ∈ recipe.params, p.isShared = false
          · exact .inl (halone hshares)
          · refine .inr ⟨rfl, hplain, ⟨recipe, hrecipe, by simpa using hshares⟩, fun hnone => ?_⟩
            rcases hcuts.shared t List.mem_cons_self hplain with hsame | hcut
            · exact hsame.trans hnone
            · exact (hcut hbroken).elim
    · have hother : origin = .ambient → t ≠ k := fun horigin htype => hown ⟨horigin, htype⟩
      exact .inl ((hargs.complete_other hother).keep (hforget _) rfl)

/-- Where objects of a type do not stray, none of them is left without a key, whatever is asked
for. -/
theorem fabrication_memoized (hstray : ¬w.catalog.Strays k) (batch : List Component) :
    (∀ u t s, s.Sound → s.Cuts u.types (w.ambient batch u t s).2 ∧
      (s.AllMemoized k [] → (w.ambient batch u t s).2.AllMemoized k [])) ∧
    (∀ u t origin hint s, s.Sound →
      w.Makes k u t origin s (w.fabricate batch u t origin hint s)) ∧
    (∀ u params s, s.Sound → s.Cuts u.types (w.materialize batch u params s).2 ∧
      (s.AllMemoized k [] → (w.materialize batch u params s).2.AllMemoized k []) ∧
      ((∀ p ∈ params, p.isShared = false) →
        (w.materialize batch u params s).2.ambients = s.ambients)) ∧
    (∀ u p s, s.Sound → s.Cuts u.types (w.supply batch u p s).2 ∧
      (s.AllMemoized k [] → (w.supply batch u p s).2.AllMemoized k []) ∧
      (p.isShared = false → (w.supply batch u p s).2.ambients = s.ambients)) := by
  apply w.fabrication_induction batch
    (fun u _ s out => s.Cuts u.types out.2 ∧ (s.AllMemoized k [] → out.2.AllMemoized k []))
    (fun u t origin _ s out => w.Makes k u t origin s out)
    (fun u params s out => s.Cuts u.types out.2 ∧
      (s.AllMemoized k [] → out.2.AllMemoized k []) ∧
      ((∀ p ∈ params, p.isShared = false) → out.2.ambients = s.ambients))
    (fun u p s out => s.Cuts u.types out.2 ∧
      (s.AllMemoized k [] → out.2.AllMemoized k []) ∧
      (p.isShared = false → out.2.ambients = s.ambients))
  case registered =>
      intro u t s x hs hx
      exact ⟨Store.cuts_of_tables rfl rfl, id⟩
  case cutClass =>
      intro u s c hs hnew hfind hbusy
      obtain ⟨hambients, hbreaks⟩ := s.typedNull_untouched c.name
      exact ⟨Store.cuts_of_tables hambients hbreaks,
        fun h => h.typedNull.keep { Store.Grows.refl _ with } rfl⟩
  case enrolled =>
      intro u s c args hs hnew hfind hbusy hargs hstill ih
      obtain ⟨hcuts, hmemoized, -⟩ := ih
      exact ⟨hcuts.trans (Store.cuts_of_tables rfl rfl), fun h => (hmemoized h).enroll c args.1⟩
  case known =>
      intro u t s x hs hnew hfind hx
      exact ⟨Store.cuts_of_tables rfl rfl, id⟩
  case plain =>
      intro u t s hs hnew hfind hambient hplain
      obtain ⟨hambients, hbreaks⟩ := s.value_untouched w.arrayLength t
      exact ⟨Store.cuts_of_tables hambients hbreaks, fun h => h.value⟩
  case settled =>
      intro u t s made hs hnew hfind hambient hplain hmade ih
      refine ⟨ih.cuts.trans (Store.cuts_settleAmbient ih.cut), fun h => ?_⟩
      have hgrows := made.2.settleAmbient_grows t made.1
      have harena := (made.2.settleAmbient_untouched t made.1).1
      rcases ih.memoized h with hall | ⟨-, hloose, hfree⟩
      · exact hall.keep hgrows harena
      · have hnone : made.2.ambients.lookup t = none := by
          rcases hfree with hsame | ⟨rfl, -, -, hkept⟩
          · rw [hsame]
            exact hambient
          · exact hkept hambient
        have hkey := made.2.lookup_settleAmbient t made.1
        rw [Store.settleAmbient_fst hnone] at hkey
        exact (hloose.keep hgrows harena).settle (.inl ⟨t, hkey⟩)
  case fabricatedPlain =>
      intro u t origin hint s hs hplain
      obtain ⟨hambients, hbreaks⟩ := s.value_untouched w.arrayLength t
      have htype := (hs.value w.arrayLength t).values t _ (mem_of_lookup (s.lookup_value _ t))
      refine ⟨Store.cuts_of_tables hambients hbreaks, ?_, fun h => .inl h.value⟩
      rintro t' ht' hplain' hkey
      have heq : t' = t := hkey.elim id fun hown => Option.some.inj (hown.symm.trans htype)
      rw [heq, hplain] at hplain'
      cases hplain'
  case cutType =>
      intro u t origin hint s hs hplain hbusy
      have hgrows : (s.push t origin .degenerate hint).2.Grows (s.cutCycle t origin hint).2 :=
        { Store.Grows.refl _ with }
      refine ⟨Store.cuts_cutCycle, ?_, fun h => ?_⟩
      · rintro t' ht' - hkey
        have htype := s.push_typeAt? t origin .degenerate hint
        have heq : t' = t := hkey.elim id fun hown => Option.some.inj (hown.symm.trans htype)
        rw [heq]
        exact Store.isCut_cutCycle
      · by_cases horigin : origin = .ambient
        · exact .inr ⟨horigin, h.push.keep hgrows rfl, .inl rfl⟩
        · exact .inl ((h.push_other fun hambient => (horigin hambient).elim).keep hgrows rfl)
  case noRecipe =>
      intro u t origin hint s hs hplain hbusy hrecipe
      exact .pushed hbusy { Store.Grows.refl _ with } rfl rfl (Store.cuts_of_tables rfl rfl)
  case unfabricable =>
      intro u t origin hint s hs hplain hbusy hrecipe
      have hcuts : s.Cuts (t :: u.types)
          (s.pushDegenerate t origin hint t.text .unfabricable).2 := Store.cuts_of_tables rfl rfl
      exact .pushed hbusy { Store.Grows.refl _ with } rfl rfl (hcuts.leave hbusy)
  case staticField =>
      intro u t origin hint s owner field hs hplain hbusy hrecipe
      have hcuts : s.Cuts (t :: u.types)
          (s.push t origin (.staticField owner field) hint).2 := Store.cuts_of_tables rfl rfl
      exact .pushed hbusy { Store.Grows.refl _ with } rfl rfl (hcuts.leave hbusy)
  case substituted =>
      intro u t origin hint s concrete made hs hplain hbusy hrecipe hmade ih
      exact ih.substituted hstray hplain hbusy hrecipe
  case completed =>
      intro u t origin hint s recipe args construction hs hplain hbusy hrecipe hbuilds hargs ih
      obtain ⟨hcuts, hmemoized, halone⟩ := ih
      exact .completed hplain hbusy hrecipe ((hargs hs).1.sound hs) hcuts hmemoized halone
  case nil =>
      intro u s hs
      exact ⟨Store.cuts_of_tables rfl rfl, id, fun _ => rfl⟩
  case cons =>
      intro u p ps s first rest hs hfirst hrest ihfirst ihrest
      obtain ⟨hcuts, hmemoized, halone⟩ := ihfirst
      obtain ⟨hcuts', hmemoized', halone'⟩ := ihrest
      refine ⟨hcuts.trans hcuts', fun h => hmemoized' (hmemoized h), fun hps => ?_⟩
      rw [List.forall_mem_cons] at hps
      exact (halone' hps.2).trans (halone hps.1)
  case object =>
      intro u p s out hs hshared ih
      refine ⟨ih.1, ih.2, fun hp => ?_⟩
      rw [hshared] at hp
      cases hp
  case typedNull =>
      intro u t s hs
      obtain ⟨hambients, hbreaks⟩ := s.typedNull_untouched t
      exact ⟨Store.cuts_of_tables hambients hbreaks, fun h => h.typedNull, fun _ => hambients⟩
  case value =>
      intro u t s hs
      obtain ⟨hambients, hbreaks⟩ := s.value_untouched w.arrayLength t
      exact ⟨Store.cuts_of_tables hambients hbreaks, fun h => h.value, fun _ => hambients⟩

end Workshop

/-! ### Registries -/

theorem Store.Change.memoized {w : Workshop} {k : TypeName} (hstray : ¬w.catalog.Strays k)
    {s s' : Store} (hchange : Store.Change w s s') (hs : s.Sound) (h : s.AllMemoized k []) :
    s'.AllMemoized k [] := by
  cases hchange with
  | remember hsame hsound =>
      intro x y hy horigin htype
      rw [Store.get?_of_arena hsame.arena] at hy
      exact (h x y hy horigin htype).imp_left (Store.memoized_later
        (hsame.ambients ▸ .refl _) (hsame.typedNulls ▸ .refl _) hsame.services)
  | fabricate t id hint =>
      have hmakes := (Workshop.fabrication_memoized hstray []).2.1 {} t (.identifier id) hint s hs
      exact (hmakes.memoized h).resolve_right fun hloose => by cases hloose.1
  | ambient t => exact ((Workshop.fabrication_memoized hstray []).1 {} t s hs).2 h
  | value t => exact h.value
  | register batch component =>
      rw [Workshop.register]
      split
      · exact h
      · have hargs := (Workshop.fabrication_memoized hstray batch).2.2.1
          (Underway.enterClass {} component.name) (component.constructorParams.map .ofType) s hs
        exact (hargs.2.1 h).enroll component _
  | missing t id subject =>
      exact (h.push_other fun (horigin : Origin.unresolved (some id) = .ambient) => by
        cases horigin).keep { Store.Grows.refl _ with } rfl
  | service name subject hnew =>
      refine Store.AllMemoized.settle (x := (s.pushService name subject).1) ?_
        (.inr (.inr ⟨name, List.lookup_cons_self⟩))
      exact h.push.keep { Store.Grows.refl _ with services := keeps_cons hnew _ } rfl
  | unresolved | derived => exact h.push_other fun horigin => by cases horigin

/-- In a reachable registry no shared object of a type is without a key, unless such objects
stray. -/
theorem Registry.Reachable.allMemoized {r : Registry} (h : r.Reachable) {k : TypeName}
    (hstray : ¬r.catalog.Strays k) : r.store.AllMemoized k [] :=
  h.of_catalog_changes (P := fun c s => ¬c.Strays k → s.AllMemoized k [])
    (fun _ _ => Store.allMemoized_empty)
    (fun hchange hs hkept hstray => hchange.memoized hstray hs (hkept hstray)) hstray

end AppDriver

