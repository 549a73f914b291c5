import AppDriver.Proofs.FabricationEffects

/-! Fabrication is a run of effects. The four functions that obtain stand-ins from each other are
followed once, together, along their own recursion; what they do is then known from the effects
alone. -/

namespace AppDriver

open Store (Runs Effect)

namespace Store

variable {n : Nat} {batch : List Component} {busy : List TypeName} {s : Store}

/-! ### The steps of a fabrication -/

theorem pushDegenerate_runs {t : TypeName} (hplain : t.isPlainValue = false) (origin : Origin)
    (hint subject : String) (reason : DegradationReason) :
    Runs n batch busy s (s.pushDegenerate t origin hint subject reason).2 ∧
      (s.pushDegenerate t origin hint subject reason).2.Holds
        (s.pushDegenerate t origin hint subject reason).1 := by
  have hpush : Effect n batch busy s (s.push t origin .degenerate hint).2 :=
    .push origin hint hplain fun x hx => by cases hx
  have hnew := s.push_typeAt? t origin .degenerate hint
  refine ⟨hpush.runs.trans (Effect.record subject reason (Has.of_typeAt? hnew)).runs, ?_⟩
  exact holds_of_not_plain hnew hplain

theorem cutCycle_runs {t : TypeName} (hplain : t.isPlainValue = false) (origin : Origin)
    (hint : String) :
    Runs n batch busy s (s.cutCycle t origin hint).2 ∧
      (s.cutCycle t origin hint).2.Holds (s.cutCycle t origin hint).1 :=
  ⟨(Effect.cutCycle origin hint hplain).runs,
    holds_of_not_plain (s.push_typeAt? t origin .degenerate hint) hplain⟩

theorem cutComponentCycle_runs (hs : s.Sound) (name : TypeName) :
    Runs n batch busy s (s.cutComponentCycle name).2 ∧
      (s.cutComponentCycle name).2.Has (s.cutComponentCycle name).1 := by
  have hhas : (s.typedNull name).2.Has (s.typedNull name).1 :=
    (hs.typedNull name).typedNulls.lookup (s.lookup_typedNull name)
  exact ⟨(Effect.typedNull s name).runs.trans (Effect.record name.text .cycle hhas).runs, hhas⟩

/-- Completing a stand-in adds it, or takes the one that cut the cycle through its type. -/
theorem complete_runs (hs : s.Sound) {t : TypeName} (hplain : t.isPlainValue = false)
    (origin : Origin) {construction : Construction} (hint : String)
    (hargs : s.HasAll construction.dependencies) :
    Runs n batch busy s (s.complete t origin construction hint).2 ∧
      (s.complete t origin construction hint).2.Holds
        (s.complete t origin construction hint).1 := by
  have hforget : Effect n batch busy s (s.forgetCycle t) := .forgetCycle s t
  rw [complete]
  split
  · rename_i broken hbroken
    obtain ⟨htype, -⟩ := hs.cycleBreaks t broken (Workshop.mem_of_lookup hbroken)
    split
    · exact ⟨hforget.runs, holds_of_not_plain htype hplain⟩
    · have hpush : Effect n batch busy (s.forgetCycle t)
          ((s.forgetCycle t).push t origin construction hint).2 :=
        .push origin hint hplain hargs
      exact ⟨hforget.runs.trans hpush.runs,
        holds_of_not_plain ((s.forgetCycle t).push_typeAt? t origin construction hint) hplain⟩
  · exact ⟨(Effect.push origin hint hplain hargs).runs,
      holds_of_not_plain (s.push_typeAt? t origin construction hint) hplain⟩

/-- What was made stays when the cycle through a type is forgotten. -/
theorem forgetCycle_runs {out : StandInRef × Store} (t : TypeName)
    (h : Runs n batch busy s out.2 ∧ out.2.Holds out.1) :
    Runs n batch busy s (out.2.forgetCycle t) ∧ (out.2.forgetCycle t).Holds out.1 :=
  have hforget : Effect n batch busy out.2 (out.2.forgetCycle t) := .forgetCycle out.2 t
  ⟨h.1.trans hforget.runs, h.2.grow hforget.grows⟩

end Store

namespace Workshop

variable (w : Workshop) (batch : List Component)

/-! ### The functions without the evidence for their recursion -/

theorem ambient_eq (u : Underway) (t : TypeName) (s : Store) :
    w.ambient batch u t s =
      match s.component? t with
      | some r => (r, s)
      | none =>
        match batch.find? (·.name == t) with
        | some c =>
          if u.classes.contains t then s.cutComponentCycle t
          else
            let args := w.materialize batch (u.enterClass t) (c.constructorParams.map .ofType) s
            args.2.enroll c args.1
        | none =>
          match s.ambients.lookup t with
          | some r => (r, s)
          | none =>
            if t.isPlainValue then s.value w.arrayLength t
            else
              let made := w.fabricate batch u t .ambient ("ambient" ++ t.simpleName) s
              made.2.settleAmbient t made.1 := by
  rw [ambient]
  cases hregistered : s.component? t with
  | some r => rfl
  | none =>
      cases hfind : batch.find? (·.name == t) with
      | some c => rfl
      | none => rfl

theorem fabricate_eq (u : Underway) (t : TypeName) (origin : Origin) (hint : String) (s : Store) :
    w.fabricate batch u t origin hint s =
      if t.isPlainValue then s.value w.arrayLength t
      else if u.types.contains t then s.cutCycle t origin hint
      else
        match w.catalog.recipeFor t with
        | none => s.pushDegenerate t origin hint t.text .noRecipe
        | some .unfabricable =>
          let made := s.pushDegenerate t origin hint t.text .unfabricable
          (made.1, made.2.forgetCycle t)
        | some (.staticField owner field) =>
          let made := s.push t origin (.staticField owner field) hint
          (made.1, made.2.forgetCycle t)
        | some (.substitute concrete) =>
          let made := w.fabricate batch (u.enterType t) concrete origin hint s
          (made.1, made.2.forgetCycle t)
        | some (.constructor params) =>
          let args := w.materialize batch (u.enterType t) params s
          let made := args.2.complete t origin (.constructor args.1) hint
          (made.1, made.2.forgetCycle t)
        | some (.staticFactory owner method params) =>
          let args := w.materialize batch (u.enterType t) params s
          let made := args.2.complete t origin (.staticFactory owner method args.1) hint
          (made.1, made.2.forgetCycle t) := by
  rw [fabricate]
  split
  · rfl
  · split
    · rfl
    · split <;> rename_i hrecipe <;> rw [hrecipe]

/-! ### Fabrication as a run -/

/-- From a sound store, what is obtained is answered by effects on the store, and `Q` holds of it in
the store that is left. -/
def Obtains (u : Underway) (Q : Store → α → Prop) (s : Store) (out : α × Store) : Prop :=
  s.Sound → Runs w.arrayLength batch u.classes s out.2 ∧ Q out.2 out.1

variable {w batch} in
/-- A stand-in is completed with arguments that have been obtained. -/
theorem Obtains.completed {u : Underway} {s : Store} {args : List StandInRef × Store}
    (hargs : w.Obtains batch u Store.HasAll s args) {t : TypeName} (hplain : t.isPlainValue = false)
    (origin : Origin) {construction : Construction} (hint : String)
    (hreads : construction.dependencies = args.1) :
    w.Obtains batch u Store.Holds s
      ((args.2.complete t origin construction hint).1,
        (args.2.complete t origin construction hint).2.forgetCycle t) := by
  intro hs
  obtain ⟨hruns, hhas⟩ := hargs hs
  obtain ⟨hmore, hholds⟩ := Store.complete_runs (hruns.sound hs) hplain origin hint
    (hreads ▸ hhas)
  exact Store.forgetCycle_runs t ⟨hruns.trans hmore, hholds⟩

/-- Whatever is asked for, it is obtained by effects. The induction follows the four functions along
their recursion. -/
theorem fabrication_obtains :
    (∀ u t s, w.Obtains batch u Store.Has s (w.ambient batch u t s)) ∧
    (∀ u t origin hint s, w.Obtains batch u Store.Holds s (w.fabricate batch u t origin hint s)) ∧
    (∀ u params s, w.Obtains batch u Store.HasAll s (w.materialize batch u params s)) ∧
    (∀ u p s, w.Obtains batch u Store.Has s (w.supply batch u p s)) := by
  apply Workshop.ambient.mutual_induct w batch
    (fun u t s => w.Obtains batch u Store.Has s (w.ambient batch u t s))
    (fun u t origin hint s =>
      w.Obtains batch u Store.Holds s (w.fabricate batch u t origin hint s))
    (fun u params s => w.Obtains batch u Store.HasAll s (w.materialize batch u params s))
    (fun u p s => w.Obtains batch u Store.Has s (w.supply batch u p s))
  case case1 =>
      intro u t s r hregistered hs
      rw [ambient_eq, hregistered]
      exact ⟨.refl s, hs.has_component hregistered⟩
  case case2 =>
      intro u t s hnew c hfind hbusy hs
      rw [ambient_eq, hnew, hfind]
      dsimp only
      rw [if_pos hbusy]
      exact Store.cutComponentCycle_runs hs t
  case case3 =>
      intro u t s hnew c hfind hbusy ih hs
      obtain ⟨hruns, hargs⟩ := ih hs
      have hname : c.name = t := by simpa using List.find?_some hfind
      have hstill : (w.materialize batch (u.enterClass t)
          (c.constructorParams.map .ofType) s).2.component? c.name = none := by
        rw [hname, hruns.component?_kept (.inl List.mem_cons_self)]
        exact hnew
      rw [ambient_eq, hnew, hfind]
      dsimp only
      rw [if_neg hbusy]
      have henroll : Effect w.arrayLength batch u.classes _ _ :=
        .enroll (List.mem_of_find?_eq_some hfind) (by simpa [hname] using hbusy) hstill hargs
      refine ⟨(hruns.weaken (List.subset_cons_self t u.classes)).trans henroll.runs, ?_⟩
      exact (henroll.sound (hruns.sound hs)).has_component (Store.component?_enroll hstill _)
  case case4 =>
      intro u t s hnew hfind r hr hs
      rw [ambient_eq, hnew, hfind]
      dsimp only
      rw [hr]
      exact ⟨.refl s, hs.ambients.lookup hr⟩
  case case5 =>
      intro u t s hnew hfind hambient hplain hs
      rw [ambient_eq, hnew, hfind]
      dsimp only
      rw [hambient]
      dsimp only
      rw [if_pos hplain]
      exact ⟨(Effect.value s t).runs, (hs.value _ t).has_value (s.lookup_value _ t)⟩
  case case6 =>
      intro u t s hnew hfind hambient hplain ih hs
      obtain ⟨hruns, hholds⟩ := ih hs
      rw [ambient_eq, hnew, hfind]
      dsimp only
      rw [hambient]
      dsimp only
      rw [if_neg hplain]
      have hsettle : Effect w.arrayLength batch u.classes _ _ :=
        .settleAmbient (Bool.eq_false_iff.2 hplain) hholds
      refine ⟨hruns.trans hsettle.runs, ?_⟩
      exact (hsettle.sound (hruns.sound hs)).ambients.lookup (Store.lookup_settleAmbient _ t _)
  case case7 =>
      intro u t origin hint s hplain hs
      rw [fabricate_eq, if_pos hplain]
      refine ⟨(Effect.value s t).runs, t, ?_, fun _ => s.lookup_value _ t⟩
      exact (hs.value _ t).values t _ (mem_of_lookup (s.lookup_value _ t))
  case case8 =>
      intro u t origin hint s hplain hbusy hs
      rw [fabricate_eq, if_neg hplain, if_pos hbusy]
      exact Store.cutCycle_runs (Bool.eq_false_iff.2 hplain) origin hint
  case case9 =>
      intro u t origin hint s hplain hbusy hrecipe hs
      rw [fabricate_eq, if_neg hplain, if_neg hbusy, hrecipe]
      exact Store.pushDegenerate_runs (Bool.eq_false_iff.2 hplain) origin hint _ _
  case case10 =>
      intro u t origin hint s hplain hbusy hrecipe hs
      rw [fabricate_eq, if_neg hplain, if_neg hbusy, hrecipe]
      exact Store.forgetCycle_runs t
        (Store.pushDegenerate_runs (Bool.eq_false_iff.2 hplain) origin hint _ _)
  case case11 =>
      intro u t origin hint s hplain hbusy owner field hrecipe hs
      have hplain' := Bool.eq_false_iff.2 hplain
      rw [fabricate_eq, if_neg hplain, if_neg hbusy, hrecipe]
      exact Store.forgetCycle_runs t ⟨(Effect.push origin hint hplain'
        fun x hx => by cases hx).runs, Store.holds_of_not_plain (s.push_typeAt? t _ _ _) hplain'⟩
  case case12 =>
      intro u t origin hint s hplain hbusy concrete hrecipe ih hs
      rw [fabricate_eq, if_neg hplain, if_neg hbusy, hrecipe]
      exact Store.forgetCycle_runs t (ih hs)
  case case13 =>
      intro u t origin hint s hplain hbusy params hrecipe ih
      rw [fabricate_eq, if_neg hplain, if_neg hbusy, hrecipe]
      exact ih.completed (Bool.eq_false_iff.2 hplain) origin hint rfl
  case case14 =>
      intro u t origin hint s hplain hbusy owner method params hrecipe ih
      rw [fabricate_eq, if_neg hplain, if_neg hbusy, hrecipe]
      exact ih.completed (Bool.eq_false_iff.2 hplain) origin hint rfl
  case case15 =>
      intro u s hs
      rw [materialize]
      exact ⟨.refl s, fun x hx => by cases hx⟩
  case case16 =>
      intro u s p ps first ihfirst ihrest hs
      obtain ⟨hfirst, hhas⟩ := ihfirst hs
      obtain ⟨hrest, hargs⟩ := ihrest (hfirst.sound hs)
      rw [materialize]
      refine ⟨hfirst.trans hrest, ?_⟩
      intro x hx
      rcases List.mem_cons.1 hx with rfl | hx
      · exact hrest.grows.has hhas
      · exact hargs x hx
  case case17 =>
      intro u s ih
      rw [supply]
      exact ih
  case case18 =>
      intro u s t ih
      rw [supply]
      exact ih
  case case19 =>
      intro u s t hs
      rw [supply]
      exact ⟨(Effect.typedNull s t).runs,
        (hs.typedNull t).typedNulls.lookup (s.lookup_typedNull t)⟩
  case case20 =>
      intro u s t hs
      rw [supply]
      exact ⟨(Effect.value s t).runs, (hs.value _ t).has_value (s.lookup_value _ t)⟩

end Workshop
end AppDriver
