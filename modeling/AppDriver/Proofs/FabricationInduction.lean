import AppDriver.Proofs.FabricationRuns

/-! The induction that fabrication allows. Its four functions answer in eighteen ways, of which five
ask for something else first; a property of all answers is proved by one case for each way. In every
case the store is sound, and what was obtained on the way was obtained by effects. -/

namespace AppDriver

/-- What following a recipe with parameters builds from the stand-ins for them. -/
inductive Recipe.Builds : Recipe → List StandInRef → Construction → Prop
  | constructor (params : List ParamSource) (args : List StandInRef) :
    Builds (.constructor params) args (.constructor args)
  | staticFactory (owner : TypeName) (method : String) (params : List ParamSource)
    (args : List StandInRef) :
    Builds (.staticFactory owner method params) args (.staticFactory owner method args)

theorem Recipe.Builds.dependencies {recipe : Recipe} {args : List StandInRef}
    {construction : Construction} (h : recipe.Builds args construction) :
    construction.dependencies = args := by
  cases h <;> rfl

/-- Whether a parameter is a shared object. -/
def ParamSource.isShared : ParamSource → Bool
  | .context | .ambient _ => true
  | .degenerate _ | .value _ => false

namespace Workshop

variable (w : Workshop) (batch : List Component)

section Induction

variable
  (Shared : Underway → TypeName → Store → StandInRef × Store → Prop)
  (Fabricated : Underway → TypeName → Origin → String → Store → StandInRef × Store → Prop)
  (Materialized : Underway → List ParamSource → Store → List StandInRef × Store → Prop)
  (Supplied : Underway → ParamSource → Store → StandInRef × Store → Prop)

theorem fabrication_induction
    (registered : ∀ {u : Underway} {t : TypeName} {s : Store} {x : StandInRef},
      s.Sound → s.component? t = some x → Shared u t s (x, s))
    (cutClass : ∀ {u : Underway} {s : Store} {c : Component},
      s.Sound → s.component? c.name = none → batch.find? (·.name == c.name) = some c →
      c.name ∈ u.classes → Shared u c.name s (s.cutComponentCycle c.name))
    (enrolled : ∀ {u : Underway} {s : Store} {c : Component} {args : List StandInRef × Store},
      s.Sound → s.component? c.name = none → batch.find? (·.name == c.name) = some c →
      c.name ∉ u.classes → w.Obtains batch (u.enterClass c.name) Store.HasAll s args →
      args.2.component? c.name = none →
      Materialized (u.enterClass c.name) (c.constructorParams.map .ofType) s args →
      Shared u c.name s (args.2.enroll c args.1))
    (known : ∀ {u : Underway} {t : TypeName} {s : Store} {x : StandInRef},
      s.Sound → s.component? t = none → batch.find? (·.name == t) = none →
      s.ambients.lookup t = some x → Shared u t s (x, s))
    (plain : ∀ {u : Underway} {t : TypeName} {s : Store},
      s.Sound → s.component? t = none → batch.find? (·.name == t) = none →
      s.ambients.lookup t = none → t.isPlainValue = true → Shared u t s (s.value w.arrayLength t))
    (settled : ∀ {u : Underway} {t : TypeName} {s : Store} {made : StandInRef × Store},
      s.Sound → s.component? t = none → batch.find? (·.name == t) = none →
      s.ambients.lookup t = none → t.isPlainValue = false → w.Obtains batch u Store.Holds s made →
      Fabricated u t .ambient ("ambient" ++ t.simpleName) s made →
      Shared u t s (made.2.settleAmbient t made.1))
    (fabricatedPlain : ∀ {u : Underway} {t : TypeName} {origin : Origin} {hint : String}
        {s : Store},
      s.Sound → t.isPlainValue = true → Fabricated u t origin hint s (s.value w.arrayLength t))
    (cutType : ∀ {u : Underway} {t : TypeName} {origin : Origin} {hint : String} {s : Store},
      s.Sound → t.isPlainValue = false → t ∈ u.types →
      Fabricated u t origin hint s (s.cutCycle t origin hint))
    (noRecipe : ∀ {u : Underway} {t : TypeName} {origin : Origin} {hint : String} {s : Store},
      s.Sound → t.isPlainValue = false → t ∉ u.types → w.catalog.recipeFor t = none →
      Fabricated u t origin hint s (s.pushDegenerate t origin hint t.text .noRecipe))
    (unfabricable : ∀ {u : Underway} {t : TypeName} {origin : Origin} {hint : String} {s : Store},
      s.Sound → t.isPlainValue = false → t ∉ u.types → w.catalog.recipeFor t = some .unfabricable →
      Fabricated u t origin hint s
        ((s.pushDegenerate t origin hint t.text .unfabricable).1,
          (s.pushDegenerate t origin hint t.text .unfabricable).2.forgetCycle t))
    (staticField : ∀ {u : Underway} {t : TypeName} {origin : Origin} {hint : String} {s : Store}
        {owner : TypeName} {field : String},
      s.Sound → t.isPlainValue = false → t ∉ u.types →
      w.catalog.recipeFor t = some (.staticField owner field) →
      Fabricated u t origin hint s
        ((s.push t origin (.staticField owner field) hint).1,
          (s.push t origin (.staticField owner field) hint).2.forgetCycle t))
    (substituted : ∀ {u : Underway} {t : TypeName} {origin : Origin} {hint : String} {s : Store}
        {concrete : TypeName} {made : StandInRef × Store},
      s.Sound → t.isPlainValue = false → t ∉ u.types →
      w.catalog.recipeFor t = some (.substitute concrete) →
      w.Obtains batch (u.enterType t) Store.Holds s made →
      Fabricated (u.enterType t) concrete origin hint s made →
      Fabricated u t origin hint s (made.1, made.2.forgetCycle t))
    (completed : ∀ {u : Underway} {t : TypeName} {origin : Origin} {hint : String} {s : Store}
        {recipe : Recipe} {args : List StandInRef × Store} {construction : Construction},
      s.Sound → t.isPlainValue = false → t ∉ u.types → w.catalog.recipeFor t = some recipe →
      recipe.Builds args.1 construction → w.Obtains batch (u.enterType t) Store.HasAll s args →
      Materialized (u.enterType t) recipe.params s args →
      Fabricated u t origin hint s
        ((args.2.complete t origin construction hint).1,
          (args.2.complete t origin construction hint).2.forgetCycle t))
    (nil : ∀ {u : Underway} {s : Store}, s.Sound → Materialized u [] s ([], s))
    (cons : ∀ {u : Underway} {p : ParamSource} {ps : List ParamSource} {s : Store}
        {first : StandInRef × Store} {rest : List StandInRef × Store},
      s.Sound → w.Obtains batch u Store.Has s first → w.Obtains batch u Store.HasAll first.2 rest →
      Supplied u p s first → Materialized u ps first.2 rest →
      Materialized u (p :: ps) s (first.1 :: rest.1, rest.2))
    (object : ∀ {u : Underway} {p : ParamSource} {s : Store} {out : StandInRef × Store},
      s.Sound → p.isShared = true → Shared u p.typeName s out → Supplied u p s out)
    (typedNull : ∀ {u : Underway} {t : TypeName} {s : Store},
      s.Sound → Supplied u (.degenerate t) s (s.typedNull t))
    (value : ∀ {u : Underway} {t : TypeName} {s : Store},
      s.Sound → Supplied u (.value t) s (s.value w.arrayLength t)) :
    (∀ u t s, s.Sound → Shared u t s (w.ambient batch u t s)) ∧
    (∀ u t origin hint s, s.Sound →
      Fabricated u t origin hint s (w.fabricate batch u t origin hint s)) ∧
    (∀ u params s, s.Sound → Materialized u params s (w.materialize batch u params s)) ∧
    (∀ u p s, s.Sound → Supplied u p s (w.supply batch u p s)) := by
  obtain ⟨-, hfabricate, hmaterialize, hsupply⟩ := w.fabrication_obtains batch
  apply Workshop.ambient.mutual_induct w batch
    (fun u t s => s.Sound → Shared u t s (w.ambient batch u t s))
    (fun u t origin hint s => s.Sound →
      Fabricated u t origin hint s (w.fabricate batch u t origin hint s))
    (fun u params s => s.Sound → Materialized u params s (w.materialize batch u params s))
    (fun u p s => s.Sound → Supplied u p s (w.supply batch u p s))
  case case1 =>
      intro u t s x hx hs
      simpa only [ambient_eq, hx] using registered hs hx
  case case2 =>
      intro u t s hnew c hfind hbusy hs
      obtain rfl : c.name = t := by simpa using List.find?_some hfind
      simpa only [ambient_eq, hnew, hfind, if_pos hbusy] using
        cutClass hs hnew hfind (List.contains_iff_mem.1 hbusy)
  case case3 =>
      -- The class is busy while its arguments are made, so it is not registered meanwhile.
      intro u t s hnew c hfind hbusy ih hs
      obtain rfl : c.name = t := by simpa using List.find?_some hfind
      obtain ⟨hruns, -⟩ := hmaterialize (u.enterClass c.name) (c.constructorParams.map .ofType) s hs
      have hstill := (hruns.component?_kept (.inl List.mem_cons_self)).trans hnew
      simpa only [ambient_eq, hnew, hfind, if_neg hbusy] using enrolled hs hnew hfind
        (mt List.contains_iff_mem.2 hbusy) (hmaterialize _ _ s) hstill (ih hs)
  case case4 =>
      intro u t s hnew hfind x hx hs
      simpa only [ambient_eq, hnew, hfind, hx] using known hs hnew hfind hx
  case case5 =>
      intro u t s hnew hfind hambient hplain hs
      simpa only [ambient_eq, hnew, hfind, hambient, if_pos hplain] using
        plain hs hnew hfind hambient hplain
  case case6 =>
      intro u t s hnew hfind hambient hplain ih hs
      simpa only [ambient_eq, hnew, hfind, hambient, if_neg hplain] using
        settled hs hnew hfind hambient (Bool.eq_false_iff.2 hplain) (hfabricate u t _ _ s) (ih hs)
  case case7 =>
      intro u t origin hint s hplain hs
      rw [fabricate_eq, if_pos hplain]
      exact fabricatedPlain hs hplain
  case case8 =>
      intro u t origin hint s hplain hbusy hs
      rw [fabricate_eq, if_neg hplain, if_pos hbusy]
      exact cutType hs (Bool.eq_false_iff.2 hplain) (List.contains_iff_mem.1 hbusy)
  case case9 =>
      intro u t origin hint s hplain hbusy hrecipe hs
      rw [fabricate_eq, if_neg hplain, if_neg hbusy, hrecipe]
      exact noRecipe hs (Bool.eq_false_iff.2 hplain) (mt List.contains_iff_mem.2 hbusy) hrecipe
  case case10 =>
      intro u t origin hint s hplain hbusy hrecipe hs
      rw [fabricate_eq, if_neg hplain, if_neg hbusy, hrecipe]
      exact unfabricable hs (Bool.eq_false_iff.2 hplain) (mt List.contains_iff_mem.2 hbusy) hrecipe
  case case11 =>
      intro u t origin hint s hplain hbusy owner field hrecipe hs
      rw [fabricate_eq, if_neg hplain, if_neg hbusy, hrecipe]
      exact staticField hs (Bool.eq_false_iff.2 hplain) (mt List.contains_iff_mem.2 hbusy) hrecipe
  case case12 =>
      intro u t origin hint s hplain hbusy concrete hrecipe ih hs
      rw [fabricate_eq, if_neg hplain, if_neg hbusy, hrecipe]
      exact substituted hs (Bool.eq_false_iff.2 hplain) (mt List.contains_iff_mem.2 hbusy) hrecipe
        (hfabricate _ _ _ _ s) (ih hs)
  case case13 =>
      intro u t origin hint s hplain hbusy params hrecipe ih hs
      rw [fabricate_eq, if_neg hplain, if_neg hbusy, hrecipe]
      exact completed hs (Bool.eq_false_iff.2 hplain) (mt List.contains_iff_mem.2 hbusy) hrecipe
        (.constructor params _) (hmaterialize _ _ s) (ih hs)
  case case14 =>
      intro u t origin hint s hplain hbusy owner method params hrecipe ih hs
      rw [fabricate_eq, if_neg hplain, if_neg hbusy, hrecipe]
      exact completed hs (Bool.eq_false_iff.2 hplain) (mt List.contains_iff_mem.2 hbusy) hrecipe
        (.staticFactory owner method params _) (hmaterialize _ _ s) (ih hs)
  case case15 =>
      intro u s hs
      rw [materialize]
      exact nil hs
  case case16 =>
      intro u s p ps first ihfirst ihrest hs
      rw [materialize]
      exact cons hs (hsupply u p s) (hmaterialize u ps _) (ihfirst hs)
        (ihrest ((hsupply u p s hs).1.sound hs))
  case case17 =>
      intro u s ih hs
      rw [supply]
      exact object hs rfl (ih hs)
  case case18 =>
      intro u s t ih hs
      rw [supply]
      exact object hs rfl (ih hs)
  case case19 =>
      intro u s t hs
      rw [supply]
      exact typedNull hs
  case case20 =>
      intro u s t hs
      rw [supply]
      exact value hs

end Induction

end Workshop
end AppDriver
