import AppDriver.Proofs.FabricationInduction
import AppDriver.Proofs.Threading

/-! Fabrication with checked reads: where the arena is read at a reference, the checked functions
stop without an answer if the reference denotes no stand-in. From a sound store they never stop, and
answer as the others do. -/

namespace AppDriver

/-- `threadMap` with steps that can stop. -/
def threadMap? (f : α → σ → Option (β × σ)) : List α → σ → Option (List β × σ)
  | [], s => some ([], s)
  | a :: as, s =>
    (f a s).bind fun first =>
      (threadMap? f as first.2).map fun rest => (first.1 :: rest.1, rest.2)

/-- As `threadMap?`, for elements with any number of answers. -/
def threadFlatMap? (f : α → σ → Option (List β × σ)) (as : List α) (s : σ) :
    Option (List β × σ) :=
  (threadMap? f as s).map fun answers => (answers.1.flatten, answers.2)

/-- A run stops at no element if its steps stop nowhere among states that they do not leave. -/
theorem threadMap?_eq {L : σ → Prop} {f : α → σ → Option (β × σ)} {g : α → σ → β × σ}
    (as : List α) (h : ∀ a ∈ as, ∀ s, L s → f a s = some (g a s) ∧ L (g a s).2) {s : σ}
    (hs : L s) : threadMap? f as s = some (threadMap g as s) ∧ L (threadMap g as s).2 := by
  induction as generalizing s with
  | nil => exact ⟨rfl, hs⟩
  | cons a as ih =>
      obtain ⟨hfirst, hnext⟩ := h a List.mem_cons_self s hs
      obtain ⟨hrest, hlast⟩ := ih (fun b hb => h b (List.mem_cons_of_mem _ hb)) hnext
      refine ⟨?_, hlast⟩
      rw [threadMap?, hfirst, Option.bind_some, hrest]
      rfl

theorem threadFlatMap?_eq {L : σ → Prop} {f : α → σ → Option (List β × σ)}
    {g : α → σ → List β × σ} (as : List α)
    (h : ∀ a ∈ as, ∀ s, L s → f a s = some (g a s) ∧ L (g a s).2) {s : σ} (hs : L s) :
    threadFlatMap? f as s = some (threadFlatMap g as s) ∧ L (threadFlatMap g as s).2 := by
  obtain ⟨hall, hlast⟩ := threadMap?_eq as h hs
  refine ⟨?_, hlast⟩
  rw [threadFlatMap?, hall]
  rfl

namespace Store

/-- Reads the type of the shared object, to share it as one of its own type too. -/
def settleAmbient? (s : Store) (t : TypeName) (r : StandInRef) : Option (StandInRef × Store) :=
  match s.ambients.lookup t with
  | some existing => some (existing, s)
  | none =>
    let s := { s with ambients := (t, r) :: s.ambients }
    (s.get? r).map fun made =>
      match s.ambients.lookup made.typeName with
      | some _ => (r, s)
      | none => (r, { s with ambients := (made.typeName, r) :: s.ambients })

theorem settleAmbient?_eq {s : Store} (t : TypeName) {r : StandInRef} (hr : s.Has r) :
    s.settleAmbient? t r = some (s.settleAmbient t r) := by
  have hmade : get? { s with ambients := (t, r) :: s.ambients } r = some s.arena[r.index] :=
    List.getElem?_eq_getElem hr
  rw [settleAmbient?, settleAmbient]
  cases s.ambients.lookup t with
  | some existing => rfl
  | none =>
      dsimp only
      rewrite [hmade, Option.map_some, Option.map_some]
      cases hfound : ((t, r) :: s.ambients).lookup s.arena[r.index].typeName <;>
        simp only [hfound]

end Store

namespace Workshop

variable (w : Workshop) (batch : List Component)

mutual

/-- The shared object of a type, if everything that is read for it exists. -/
def ambient? (w : Workshop) (batch : List Component) (u : Underway) (t : TypeName) (s : Store) :
    Option (StandInRef × Store) :=
  match s.component? t with
  | some r => some (r, s)
  | none =>
    match _hc : batch.find? (·.name == t) with
    | some c =>
      if _hu : u.classes.contains t then some (s.cutComponentCycle t)
      else
        (w.materialize? batch (u.enterClass t) (c.constructorParams.map .ofType) s).map fun args =>
          args.2.enroll c args.1
    | none =>
      match s.ambients.lookup t with
      | some r => some (r, s)
      | none =>
        if t.isPlainValue then some (s.value w.arrayLength t)
        else
          (w.fabricate? batch u t .ambient ("ambient" ++ t.simpleName) s).bind fun made =>
            made.2.settleAmbient? t made.1
termination_by w.cost batch u (weight t + 2)
decreasing_by
  · exact cost_class_lt _hc (by simpa using _hu)
  · simp only [cost]; omega

def fabricate? (w : Workshop) (batch : List Component) (u : Underway) (t : TypeName)
    (origin : Origin) (hint : String) (s : Store) : Option (StandInRef × Store) :=
  if t.isPlainValue then some (s.value w.arrayLength t)
  else if _hu : u.types.contains t then some (s.cutCycle t origin hint)
  else
    match _hr : w.catalog.recipeFor t with
    | none => some (s.pushDegenerate t origin hint t.text .noRecipe)
    | some .unfabricable =>
      let made := s.pushDegenerate t origin hint t.text .unfabricable
      some (made.1, made.2.forgetCycle t)
    | some (.staticField owner field) =>
      let made := s.push t origin (.staticField owner field) hint
      some (made.1, made.2.forgetCycle t)
    | some (.substitute concrete) =>
      (w.fabricate? batch (u.enterType t) concrete origin hint s).map fun made =>
        (made.1, made.2.forgetCycle t)
    | some (.constructor params) =>
      (w.materialize? batch (u.enterType t) params s).map fun args =>
        let made := args.2.complete t origin (.constructor args.1) hint
        (made.1, made.2.forgetCycle t)
    | some (.staticFactory owner method params) =>
      (w.materialize? batch (u.enterType t) params s).map fun args =>
        let made := args.2.complete t origin (.staticFactory owner method args.1) hint
        (made.1, made.2.forgetCycle t)
termination_by w.cost batch u (weight t + 1)
decreasing_by
  · exact cost_substitute_lt _hr (by simpa using _hu)
  · exact cost_params_lt _hr (by simpa using _hu)
  · exact cost_params_lt _hr (by simpa using _hu)

def materialize? (w : Workshop) (batch : List Component) (u : Underway)
    (params : List ParamSource) (s : Store) : Option (List StandInRef × Store) :=
  match params with
  | [] => some ([], s)
  | p :: ps =>
    (w.supply? batch u p s).bind fun first =>
      (w.materialize? batch u ps first.2).map fun rest => (first.1 :: rest.1, rest.2)
termination_by w.cost batch u (paramsCost params)
decreasing_by
  · exact cost_head_lt w batch u p ps
  · exact cost_tail_lt w batch u p ps

def supply? (w : Workshop) (batch : List Component) (u : Underway) (p : ParamSource)
    (s : Store) : Option (StandInRef × Store) :=
  match p with
  | .context => w.ambient? batch u TypeName.context s
  | .ambient t => w.ambient? batch u t s
  | .degenerate t => some (s.typedNull t)
  | .value t => some (s.value w.arrayLength t)
termination_by w.cost batch u (weight p.typeName + 3)
decreasing_by
  · simp only [cost, ParamSource.typeName]; omega
  · simp only [cost, ParamSource.typeName]; omega

end

theorem ambient?_eq (u : Underway) (t : TypeName) (s : Store) :
    w.ambient? batch u t s =
      match s.component? t with
      | some r => some (r, s)
      | none =>
        match batch.find? (·.name == t) with
        | some c =>
          if u.classes.contains t then some (s.cutComponentCycle t)
          else
            (w.materialize? batch (u.enterClass t) (c.constructorParams.map .ofType) s).map
              fun args => args.2.enroll c args.1
        | none =>
          match s.ambients.lookup t with
          | some r => some (r, s)
          | none =>
            if t.isPlainValue then some (s.value w.arrayLength t)
            else
              (w.fabricate? batch u t .ambient ("ambient" ++ t.simpleName) s).bind fun made =>
                made.2.settleAmbient? t made.1 := by
  rw [ambient?]
  cases hregistered : s.component? t with
  | some r => rfl
  | none =>
      cases hfind : batch.find? (·.name == t) with
      | some c => rfl
      | none => rfl

theorem fabricate?_eq (u : Underway) (t : TypeName) (origin : Origin) (hint : String) (s : Store) :
    w.fabricate? batch u t origin hint s =
      if t.isPlainValue then some (s.value w.arrayLength t)
      else if u.types.contains t then some (s.cutCycle t origin hint)
      else
        match w.catalog.recipeFor t with
        | none => some (s.pushDegenerate t origin hint t.text .noRecipe)
        | some .unfabricable =>
          let made := s.pushDegenerate t origin hint t.text .unfabricable
          some (made.1, made.2.forgetCycle t)
        | some (.staticField owner field) =>
          let made := s.push t origin (.staticField owner field) hint
          some (made.1, made.2.forgetCycle t)
        | some (.substitute concrete) =>
          (w.fabricate? batch (u.enterType t) concrete origin hint s).map fun made =>
            (made.1, made.2.forgetCycle t)
        | some (.constructor params) =>
          (w.materialize? batch (u.enterType t) params s).map fun args =>
            let made := args.2.complete t origin (.constructor args.1) hint
            (made.1, made.2.forgetCycle t)
        | some (.staticFactory owner method params) =>
          (w.materialize? batch (u.enterType t) params s).map fun args =>
            let made := args.2.complete t origin (.staticFactory owner method args.1) hint
            (made.1, made.2.forgetCycle t) := by
  rw [fabricate?]
  split
  · rfl
  · split
    · rfl
    · split <;> rename_i hrecipe <;> rw [hrecipe]

/-- **Checked fabrication.** From a sound store, everything that fabrication reads exists. -/
theorem fabrication_checked :
    (∀ u t (s : Store), s.Sound → w.ambient? batch u t s = some (w.ambient batch u t s)) ∧
    (∀ u t origin hint (s : Store), s.Sound →
      w.fabricate? batch u t origin hint s = some (w.fabricate batch u t origin hint s)) ∧
    (∀ u params (s : Store), s.Sound →
      w.materialize? batch u params s = some (w.materialize batch u params s)) ∧
    (∀ u p (s : Store), s.Sound → w.supply? batch u p s = some (w.supply batch u p s)) := by
  apply w.fabrication_induction batch
    (fun u t s out => w.ambient? batch u t s = some out)
    (fun u t origin hint s out => w.fabricate? batch u t origin hint s = some out)
    (fun u params s out => w.materialize? batch u params s = some out)
    (fun u p s out => w.supply? batch u p s = some out)
  case registered =>
      intro u t s x hs hx
      simp only [ambient?_eq, hx]
  case cutClass =>
      intro u s c hs hnew hfind hbusy
      simp only [ambient?_eq, hnew, hfind, if_pos (List.contains_iff_mem.2 hbusy)]
  case enrolled =>
      intro u s c args hs hnew hfind hbusy hargs hstill ih
      simp only [ambient?_eq, hnew, hfind, if_neg (mt List.contains_iff_mem.1 hbusy), ih,
        Option.map_some]
  case known =>
      intro u t s x hs hnew hfind hx
      simp only [ambient?_eq, hnew, hfind, hx]
  case plain =>
      intro u t s hs hnew hfind hambient hplain
      simp only [ambient?_eq, hnew, hfind, hambient, if_pos hplain]
  case settled =>
      intro u t s made hs hnew hfind hambient hplain hmade ih
      obtain ⟨-, hholds⟩ := hmade hs
      simp only [ambient?_eq, hnew, hfind, hambient, hplain, Bool.false_eq_true, if_false, ih,
        Option.bind_some]
      exact Store.settleAmbient?_eq t hholds.has
  case fabricatedPlain =>
      intro u t origin hint s hs hplain
      rw [fabricate?_eq, if_pos hplain]
  case cutType =>
      intro u t origin hint s hs hplain hbusy
      rw [fabricate?_eq, hplain, if_neg Bool.false_ne_true, if_pos (List.contains_iff_mem.2 hbusy)]
  case noRecipe =>
      intro u t origin hint s hs hplain hbusy hrecipe
      rw [fabricate?_eq, hplain, if_neg Bool.false_ne_true,
        if_neg (mt List.contains_iff_mem.1 hbusy), hrecipe]
  case unfabricable =>
      intro u t origin hint s hs hplain hbusy hrecipe
      rw [fabricate?_eq, hplain, if_neg Bool.false_ne_true,
        if_neg (mt List.contains_iff_mem.1 hbusy), hrecipe]
  case staticField =>
      intro u t origin hint s owner field hs hplain hbusy hrecipe
      rw [fabricate?_eq, hplain, if_neg Bool.false_ne_true,
        if_neg (mt List.contains_iff_mem.1 hbusy), hrecipe]
  case substituted =>
      intro u t origin hint s concrete made hs hplain hbusy hrecipe hmade ih
      rw [fabricate?_eq, hplain, if_neg Bool.false_ne_true,
        if_neg (mt List.contains_iff_mem.1 hbusy), hrecipe]
      simp only [ih, Option.map_some]
  case completed =>
      intro u t origin hint s recipe args construction hs hplain hbusy hrecipe hbuilds hargs ih
      rw [fabricate?_eq, hplain, if_neg Bool.false_ne_true,
        if_neg (mt List.contains_iff_mem.1 hbusy), hrecipe]
      rw [Recipe.params.eq_def] at ih
      cases hbuilds with
      | constructor params => simp only [ih, Option.map_some]
      | staticFactory owner method params => simp only [ih, Option.map_some]
  case nil =>
      intro u s hs
      rw [materialize?]
  case cons =>
      intro u p ps s first rest hs hfirst hrest ihfirst ihrest
      rw [materialize?, ihfirst, Option.bind_some, ihrest]
      rfl
  case object =>
      intro u p s out hs hshared ih
      cases p with
      | context => rw [supply?]; exact ih
      | ambient t => rw [supply?]; exact ih
      | degenerate t => cases hshared
      | value t => cases hshared
  case typedNull =>
      intro u t s hs
      rw [supply?]
  case value =>
      intro u t s hs
      rw [supply?]

def register? (w : Workshop) (batch : List Component) (c : Component) (s : Store) :
    Option (StandInRef × Store) :=
  match s.component? c.name with
  | some r => some (r, s)
  | none =>
    (w.materialize? batch (Underway.enterClass {} c.name)
      (c.constructorParams.map .ofType) s).map fun args => args.2.enroll c args.1

theorem register?_eq {s : Store} (hs : s.Sound) (c : Component) :
    w.register? batch c s = some (w.register batch c s) := by
  have hargs := (w.fabrication_checked batch).2.2.1 (Underway.enterClass {} c.name)
    (c.constructorParams.map .ofType) s hs
  rw [register?, register, hargs]
  cases s.component? c.name <;> rfl

end Workshop
end AppDriver
